import Shipboard.Proofs.Computer.Budget
import Shipboard.Proofs.Computer.Limits

/-!
# Stretches without a jump

A program can keep a computer busy for ever, but not without taking jumps.  Any other instruction
has a parameter, so that it brings the computer on by two cells at least, and it reads its last
parameter through the limit of memory.  Memory may grow in front of the computer; the limit does
not.

* `jumps c`: the next instruction of `c` is a jump that is taken; `jumpsAt c n`: so is the one after
  `n` completed instructions;
* `position_of_step` and `position_of_after`: how far one instruction and how far a course of them
  brings a computer, if no jump is taken;
* `Stretch c first last`: a part of a run within which no jump is taken;
* `fetches_of_stretch`: the bound, and what follows for runs and for gravity assist programs.
-/

namespace Shipboard.Computer

variable {c d next : Computer} {first last n : ℕ}

/-- The next instruction is a jump that is taken. -/
def jumps (c : Computer) : Bool :=
  match c.fetch >>= c.effect with
  | .ok (.jump _) => true
  | _ => false

theorem jumps_of_effect {i : Instruction} {place : ℕ} (hi : c.fetch = .ok i)
    (he : c.effect i = .ok (.jump place)) : c.jumps = true := by
  have hjump : c.fetch >>= c.effect = .ok (.jump place) := bind_eq_ok.2 ⟨i, hi, he⟩
  rw [jumps, hjump]

/-! ### One instruction -/

theorem one_le_arity {operation : Operation} (h : operation ≠ .halt) : 1 ≤ operation.arity := by
  cases operation <;> first | decide | exact absurd rfl h

/-- The computer goes on behind the instruction, or where it jumps to. -/
theorem position_of_perform {arity : ℕ} {e : Effect} (hp : c.perform arity e = .runs next) :
    (∃ place, e = .jump place) ∨ next.position = c.position + 1 + arity := by
  cases e with
  | halt | wait => cases hp
  | jump place => exact .inl ⟨place, rfl⟩
  | store index v | receive index v =>
    cases hp
    right
    rw [advance, store_position]
  | emit v | rebase base | pass =>
    cases hp
    exact .inr rfl

/-- An instruction that is no taken jump brings the computer on by two cells at least, but not
beyond the limit. -/
theorem position_of_step (h : c.step = .runs next) (hjumps : c.jumps = false) :
    c.position + 2 ≤ next.position ∧ next.position ≤ memoryLimit := by
  obtain ⟨i, e, hi, he, hp⟩ := step_eq_runs_iff.1 h
  have hnext : next.position = c.position + 1 + i.operation.arity := by
    rcases position_of_perform hp with ⟨place, rfl⟩ | hnext
    · rw [jumps_of_effect hi he] at hjumps
      cases hjumps
    · exact hnext
  have hhalt : i.operation ≠ .halt := by
    intro hop
    rw [effect_eq_halt_iff.2 hop] at he
    cases he
    cases hp
  have harity := one_le_arity hhalt
  rcases (effect_eq_ok_iff.1 he).within with rfl | rfl | ⟨hlt, -⟩
  · cases hp
  · cases hp
  · omega

/-! ### Courses -/

/-- The instruction after `n` completed ones is a jump that is taken. -/
def jumpsAt (c : Computer) (n : ℕ) : Bool :=
  (after n c).any jumps

theorem jumpsAt_add (h : after first c = some d) (k : ℕ) : c.jumpsAt (first + k) = d.jumpsAt k := by
  unfold jumpsAt
  rw [after_add, h, Option.bind_some]

/-- Nothing is fetched once a run has come to rest, and so no jump is taken. -/
theorem jumpsAt_of_after_eq_none (h : after first c = none) (hle : first ≤ n) :
    c.jumpsAt n = false := by
  obtain ⟨k, rfl⟩ := Nat.exists_eq_add_of_le hle
  rw [jumpsAt, after_add, h]
  rfl

/-- Without a taken jump the computer gets on by two cells with every instruction, but never beyond
the limit. -/
theorem position_of_after (h : after n c = some d) (hjumps : ∀ k < n, c.jumpsAt k = false) :
    c.position + 2 * n ≤ d.position ∧ (0 < n → d.position ≤ memoryLimit) := by
  induction n generalizing c with
  | zero =>
    cases h
    omega
  | succ n ih =>
    cases hs : c.step with
    | rests rest =>
      rw [after_succ_of_rests hs] at h
      cases h
    | runs next =>
      rw [after_succ_of_runs hs] at h
      have hone : after 1 c = some next := after_succ (after_zero c) hs
      have hlater : ∀ k < n, next.jumpsAt k = false := by
        intro k hk
        rw [← jumpsAt_add hone, Nat.add_comm]
        exact hjumps (k + 1) (by omega)
      obtain ⟨hfirst, hlimit⟩ := position_of_step hs (hjumps 0 (by omega))
      obtain ⟨hrest, hrestLimit⟩ := ih h hlater
      refine ⟨by omega, fun _ => ?_⟩
      by_cases hn : n = 0
      · subst hn
        cases h
        exact hlimit
      · exact hrestLimit (by omega)

/-- A part of a run of `c`: the instructions that are fetched after `first` up to `last` completed
ones, where no jump is taken before the last of them. -/
structure Stretch (c : Computer) (first last : ℕ) : Prop where
  fetched : ∃ d, after last c = some d
  straight : ∀ k, first ≤ k → k < last → c.jumpsAt k = false

theorem Stretch.le (h : c.Stretch first last) : last + 1 - first ≤ 2 ^ 23 + 1 := by
  obtain ⟨⟨e, he⟩, hstraight⟩ := h
  by_cases hle : first ≤ last
  · obtain ⟨n, rfl⟩ := Nat.exists_eq_add_of_le hle
    obtain ⟨d, hd, hde⟩ : ∃ d, after first c = some d ∧ after n d = some e := by
      rw [after_add] at he
      exact Option.bind_eq_some_iff.1 he
    have hjumps : ∀ k < n, d.jumpsAt k = false := by
      intro k hk
      rw [← jumpsAt_add hd]
      exact hstraight (first + k) (by omega) (by omega)
    obtain ⟨hposition, hlimit⟩ := position_of_after hde hjumps
    have hmemory : memoryLimit = 2 ^ 24 := by decide
    omega
  · omega

/-! ### Runs -/

/-- A run that has spent its budget has completed an instruction with each unit of it. -/
theorem exists_after_of_run_eq_none (h : run n c = none) : ∃ d, after n c = some d := by
  induction n generalizing c with
  | zero => exact ⟨c, rfl⟩
  | succ n ih =>
    rw [run_succ] at h
    cases hs : c.step with
    | rests rest =>
      rw [hs] at h
      cases h
    | runs next =>
      rw [hs] at h
      rw [after_succ_of_runs hs]
      exact ih h

/-- A run comes to rest soon after its last jump. -/
theorem exists_run_of_straight (h : ∀ k, n ≤ k → c.jumpsAt k = false) :
    ∃ rest, run (n + (2 ^ 23 + 1)) c = some rest := by
  cases hrun : run (n + (2 ^ 23 + 1)) c with
  | some rest => exact ⟨rest, rfl⟩
  | none =>
    have hstretch : c.Stretch n (n + (2 ^ 23 + 1)) :=
      ⟨exists_after_of_run_eq_none hrun, fun k hk _ => h k hk⟩
    have hle := hstretch.le
    omega

theorem suffices_execute_of_straight {program : List ℤ}
    (h : ∀ k, (load program).jumpsAt k = false) :
    Suffices (2 ^ 23 + 1) fun budget => GravityAssist.execute budget program := by
  obtain ⟨rest, hrun⟩ := exists_run_of_straight (n := 0) fun k _ => h k
  rw [Nat.zero_add] at hrun
  exact GravityAssist.suffices_execute hrun

/-- **Without jumps a run is bounded.**  From any state at most `2 ^ 23 + 1` instructions are
fetched between two taken jumps, even if the program extends itself in front of the computer. -/
theorem fetches_of_stretch :
    (∀ (c : Computer) (first last : ℕ), c.Stretch first last → last + 1 - first ≤ 2 ^ 23 + 1) ∧
    (∀ (c : Computer) (n : ℕ), (∀ k, n ≤ k → c.jumpsAt k = false) →
      ∃ rest, ∀ budget, n + (2 ^ 23 + 1) ≤ budget → run budget c = some rest) ∧
    (∀ program : List ℤ, (∀ k, (load program).jumpsAt k = false) →
      (Suffices (2 ^ 23 + 1) fun budget => GravityAssist.execute budget program) ∧
      ∀ budget, GravityAssist.execute budget program ≠ .error .outOfRange) ∧
    ∀ (program : List ℤ) (noun verb : ℤ),
      (3 ≤ program.length →
        ∀ k, (load ((program.set 1 noun).set 2 verb)).jumpsAt k = false) →
      (Suffices (2 ^ 23 + 1) fun budget => GravityAssist.runWith budget program noun verb) ∧
      ∀ budget, GravityAssist.runWith budget program noun verb ≠ .error .outOfRange := by
  refine ⟨fun c first last h => h.le, fun c n h => ?_, fun program h => ?_,
    fun program noun verb h => ?_⟩
  · obtain ⟨rest, hrun⟩ := exists_run_of_straight h
    refine ⟨rest, fun budget hle => ?_⟩
    obtain ⟨extra, rfl⟩ := Nat.exists_eq_add_of_le hle
    exact run_add hrun extra
  · exact ⟨suffices_execute_of_straight h, fun budget => execute_ne_outOfRange budget program⟩
  · refine ⟨?_, fun budget => runWith_ne_outOfRange budget program noun verb⟩
    apply GravityAssist.suffices_runWith_of_execute
    intro hlength
    exact suffices_execute_of_straight (h hlength)

/-- A program that jumps over a cell and then writes a halt instruction behind its end. -/
def leaping : List ℤ := [1105, 1, 4, 0, 1101, 98, 1, 8]

/-- A program without jumps that writes its last two instructions behind its end. -/
def extending : List ℤ := [1101, 4, 100, 8, 1101, 98, 1, 10]

/-- The part of a run behind its only jump, and a program that grows in front of the computer. -/
theorem fetches_of_stretch_extending :
    (load leaping).jumpsAt 0 = true ∧ (load leaping).Stretch 1 2 ∧ 2 + 1 - 1 ≤ 2 ^ 23 + 1 ∧
      (∃ rest, ∀ budget, 1 + (2 ^ 23 + 1) ≤ budget → run budget (load leaping) = some rest) ∧
      GravityAssist.execute 4 extending = .ok [1101, 4, 100, 8, 1101, 98, 1, 10, 104, 0, 99] ∧
      (Suffices (2 ^ 23 + 1) fun budget => GravityAssist.execute budget extending) ∧
      Suffices (2 ^ 23 + 1) fun budget => GravityAssist.runWith budget extending 4 100 := by
  have hleaping : ∀ k, 1 ≤ k → (load leaping).jumpsAt k = false := by
    intro k hk
    by_cases hlt : k < 3
    · have hfetched : ∀ k < 3, 1 ≤ k → (load leaping).jumpsAt k = false := by decide
      exact hfetched k hlt hk
    · have hrested : after 3 (load leaping) = none := by decide
      exact jumpsAt_of_after_eq_none hrested (by omega)
  have hextending : ∀ k, (load extending).jumpsAt k = false := by
    intro k
    by_cases hlt : k < 4
    · have hfetched : ∀ k < 4, (load extending).jumpsAt k = false := by decide
      exact hfetched k hlt
    · have hrested : after 4 (load extending) = none := by decide
      exact jumpsAt_of_after_eq_none hrested (by omega)
  have hstretch : (load leaping).Stretch 1 2 :=
    ⟨Option.isSome_iff_exists.1 (by decide), fun k hk _ => hleaping k hk⟩
  obtain ⟨hfetches, hreturns, hexecute, hrunWith⟩ := fetches_of_stretch
  exact ⟨by decide, hstretch, hfetches _ _ _ hstretch, hreturns _ _ hleaping, by decide,
    (hexecute _ hextending).1, (hrunWith extending 4 100 fun _ => hextending).1⟩

end Shipboard.Computer
