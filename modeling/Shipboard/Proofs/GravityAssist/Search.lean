import Shipboard.Proofs.Computer.Budget
import Shipboard.Proofs.Computer.Limits

/-!
# The search for a noun and a verb

The search tries one pair after the other, each with the program as it was given, and passes over
pairs with which the program is at fault.

* `Tried noun verb`: the pairs that are tried; `pairwise_trials`: they are tried in lexicographic
  order;
* `firstGiving_eq_find?`: if the program comes to an end with every pair, then the search is that of
  a list for the first member with a property;
* `find_cases`: the two ways in which it ends;
* `find_of_trials`: what it finds, and when it finds nothing.
-/

namespace Shipboard

/-- Of the members of a list that is in order, the first with a property is the least. -/
theorem find?_eq_some_iff_of_pairwise {α : Type} {xs : List α} {R : α → α → Prop} {p : α → Bool}
    {b : α} (hasymm : ∀ a b, R a b → ¬ R b a) (hxs : xs.Pairwise R) :
    xs.find? p = some b ↔ b ∈ xs ∧ p b = true ∧ ∀ a ∈ xs, R a b → p a = false := by
  rw [List.find?_eq_some_iff_append]
  constructor
  · rintro ⟨hb, front, behind, rfl, hfront⟩
    refine ⟨by simp, hb, fun a ha hab => ?_⟩
    obtain ⟨-, hbehind, -⟩ := List.pairwise_append.1 hxs
    rcases List.mem_append.1 ha with ha | ha
    · simpa using hfront a ha
    · -- what comes behind `b` is not less
      rcases List.mem_cons.1 ha with rfl | ha
      · exact absurd hab (hasymm a a hab)
      · exact absurd (List.rel_of_pairwise_cons hbehind ha) (hasymm a b hab)
  · rintro ⟨hmem, hb, hless⟩
    obtain ⟨front, behind, rfl⟩ := List.append_of_mem hmem
    refine ⟨hb, front, behind, rfl, fun a ha => ?_⟩
    obtain ⟨-, -, hfront⟩ := List.pairwise_append.1 hxs
    have hab : R a b := hfront a ha b (by simp)
    simpa using hless a (by simp [ha]) hab

namespace GravityAssist

variable {run : ℤ → ℤ → Except Failure ℤ} {program : List ℤ} {wanted noun verb : ℤ} {budget : ℕ}
  {pairs : List (ℤ × ℤ)} {pair : ℤ × ℤ}

/-! ### The pairs that are tried -/

/-- A noun and a verb that are tried. -/
def Tried (noun verb : ℤ) : Prop :=
  (0 ≤ noun ∧ noun ≤ 99) ∧ 0 ≤ verb ∧ verb ≤ 99

/-- The lexicographic order of pairs. -/
def Before (a b : ℤ × ℤ) : Prop :=
  a.1 < b.1 ∨ a.1 = b.1 ∧ a.2 < b.2

theorem Before.asymm {a b : ℤ × ℤ} (h : Before a b) : ¬ Before b a := by
  unfold Before at *
  omega

theorem eq_or_before (a b : ℤ × ℤ) : a = b ∨ Before a b ∨ Before b a := by
  unfold Before
  rw [Prod.ext_iff]
  omega

theorem mem_trials_iff : (noun, verb) ∈ trials ↔ Tried noun verb := by
  unfold trials Tried
  simp only [List.mem_flatMap, List.mem_map, List.mem_range, Prod.mk.injEq]
  constructor
  · rintro ⟨i, hi, j, hj, rfl, rfl⟩
    omega
  · rintro ⟨⟨hnoun, hnoun'⟩, hverb, hverb'⟩
    exact ⟨noun.toNat, by omega, verb.toNat, by omega, by omega, by omega⟩

theorem pairwise_trials : trials.Pairwise Before := by
  unfold trials
  rw [List.pairwise_flatMap]
  constructor
  · -- with the same noun
    intro i _
    rw [List.pairwise_map]
    apply List.pairwise_lt_range.imp
    intro j k hjk
    exact .inr ⟨rfl, by simpa using hjk⟩
  · -- with different nouns
    apply List.pairwise_lt_range.imp
    intro i j hij a ha b hb
    obtain ⟨_, -, rfl⟩ := List.mem_map.1 ha
    obtain ⟨_, -, rfl⟩ := List.mem_map.1 hb
    exact .inl (by simpa using hij)

/-! ### Going through them -/

/-- A pair with which a program comes to an output or to a fault. -/
def Concludes (run : ℤ → ℤ → Except Failure ℤ) (pair : ℤ × ℤ) : Prop :=
  (∃ output, run pair.1 pair.2 = .ok output) ∨
    ∃ fault, run pair.1 pair.2 = .error (.fault fault)

/-- A pair that is passed over: the program is at fault or gives another output. -/
def Misses (run : ℤ → ℤ → Except Failure ℤ) (wanted noun verb : ℤ) : Prop :=
  (∃ fault, run noun verb = .error (.fault fault)) ∨
    ∃ output, run noun verb = .ok output ∧ output ≠ wanted

theorem Misses.ne (h : Misses run wanted noun verb) : run noun verb ≠ .ok wanted := by
  intro hgives
  rcases h with ⟨fault, hfault⟩ | ⟨output, houtput, hne⟩
  · rw [hfault] at hgives
    cases hgives
  · rw [houtput] at hgives
    exact hne (Except.ok.inj hgives)

theorem Concludes.misses_iff (h : Concludes run (noun, verb)) :
    Misses run wanted noun verb ↔ run noun verb ≠ .ok wanted := by
  refine ⟨Misses.ne, fun hne => ?_⟩
  rcases h with ⟨output, houtput⟩ | hfault
  · refine .inr ⟨output, houtput, ?_⟩
    rintro rfl
    exact hne houtput
  · exact .inl hfault

/-- If the program comes to an end with every pair, then the search looks for the first one that
gives the wanted output, and for nothing else. -/
theorem firstGiving_eq_find? (h : ∀ pair ∈ pairs, Concludes run pair) :
    firstGiving run wanted pairs =
      .ok (pairs.find? fun pair => run pair.1 pair.2 = .ok wanted) := by
  induction pairs with
  | nil => rfl
  | cons pair pairs ih =>
    have hothers := ih fun other hother => h other (by simp [hother])
    obtain ⟨noun, verb⟩ := pair
    rw [firstGiving, hothers]
    rcases h (noun, verb) (by simp) with ⟨output, houtput⟩ | ⟨fault, hfault⟩
    · dsimp only at houtput
      by_cases hwanted : output = wanted
      · simp [houtput, hwanted]
      · simp [houtput, hwanted]
    · dsimp only at hfault
      simp [hfault]

theorem concludes_runWith (h : runWith budget program noun verb ≠ .error .unfinished) :
    Concludes (runWith budget program) (noun, verb) := by
  have hrange := Computer.runWith_ne_outOfRange budget program noun verb
  show (∃ output, runWith budget program noun verb = _) ∨
    ∃ fault, runWith budget program noun verb = _
  cases hrun : runWith budget program noun verb with
  | ok output => exact .inl ⟨output, rfl⟩
  | error why =>
    cases why with
    | fault fault => exact .inr ⟨fault, rfl⟩
    | outOfRange => exact absurd hrun hrange
    | unfinished => exact absurd hrun h

/-- Either the search finds the first pair that gives the wanted output, or no pair gives it and
the search tells so. -/
theorem find_cases (wanted : ℤ)
    (h : ∀ noun verb, Tried noun verb → runWith budget program noun verb ≠ .error .unfinished) :
    (∃ noun verb, Tried noun verb ∧ runWith budget program noun verb = .ok wanted ∧
      (∀ noun' verb', Tried noun' verb' → Before (noun', verb') (noun, verb) →
        Misses (runWith budget program) wanted noun' verb') ∧
      find budget program wanted = .ok (noun, verb)) ∨
    (∀ noun verb, Tried noun verb → Misses (runWith budget program) wanted noun verb) ∧
      find budget program wanted = .error (.fault (.unsolvable (.noNounAndVerb wanted))) := by
  have hconcludes : ∀ pair ∈ trials, Concludes (runWith budget program) pair := by
    rintro ⟨noun, verb⟩ hpair
    exact concludes_runWith (h noun verb (mem_trials_iff.1 hpair))
  unfold find
  rw [firstGiving_eq_find? hconcludes]
  cases hfind : trials.find? fun pair =>
      decide (runWith budget program pair.1 pair.2 = .ok wanted) with
  | some pair =>
    obtain ⟨noun, verb⟩ := pair
    obtain ⟨hmem, hgives, hearlier⟩ :=
      (find?_eq_some_iff_of_pairwise (fun _ _ => Before.asymm) pairwise_trials).1 hfind
    refine .inl ⟨noun, verb, mem_trials_iff.1 hmem, of_decide_eq_true hgives, ?_, rfl⟩
    intro noun' verb' htried hbefore
    have hmem' := mem_trials_iff.2 htried
    exact (hconcludes _ hmem').misses_iff.2 (of_decide_eq_false (hearlier _ hmem' hbefore))
  | none =>
    refine .inr ⟨fun noun verb htried => ?_, rfl⟩
    have hmem := mem_trials_iff.2 htried
    have hnone := List.find?_eq_none.1 hfind _ hmem
    exact (hconcludes _ hmem).misses_iff.2 (by simpa using hnone)

/-- **The search finds the first pair in lexicographic order and never ends with a fault of the
program**, if the program comes to an end with every pair. -/
theorem find_of_trials (program : List ℤ) (wanted : ℤ)
    (hends : ∀ noun verb, Tried noun verb →
      ∃ budget, runWith budget program noun verb ≠ .error .unfinished) :
    ∃ enough,
      (∀ noun verb, Tried noun verb → Suffices enough fun n => runWith n program noun verb) ∧
      ∀ budget, enough ≤ budget →
        (∀ noun verb, find budget program wanted = .ok (noun, verb) ↔
          Tried noun verb ∧ runWith budget program noun verb = .ok wanted ∧
            ∀ noun' verb', Tried noun' verb' → Before (noun', verb') (noun, verb) →
              Misses (runWith budget program) wanted noun' verb') ∧
        (find budget program wanted = .error (.fault (.unsolvable (.noNounAndVerb wanted))) ↔
          ∀ noun verb, Tried noun verb → runWith budget program noun verb ≠ .ok wanted) ∧
        ((∃ noun verb, find budget program wanted = .ok (noun, verb)) ∨
          find budget program wanted = .error (.fault (.unsolvable (.noNounAndVerb wanted)))) := by
  obtain ⟨enough, henough⟩ : ∃ enough, ∀ pair ∈ trials,
      Suffices enough fun n => runWith n program pair.1 pair.2 := by
    apply Suffices.exists_forall
    rintro ⟨noun, verb⟩ hpair
    obtain ⟨budget, hbudget⟩ := hends noun verb (mem_trials_iff.1 hpair)
    exact ⟨budget, suffices_runWith hbudget⟩
  have htrial : ∀ noun verb, Tried noun verb →
      Suffices enough fun n => runWith n program noun verb :=
    fun noun verb htried => henough (noun, verb) (mem_trials_iff.2 htried)
  refine ⟨enough, htrial, fun budget hbudget => ?_⟩
  have hbudgetEnds : ∀ noun verb, Tried noun verb →
      runWith budget program noun verb ≠ .error .unfinished :=
    fun noun verb htried => ((htrial noun verb htried).mono hbudget).1
  rcases find_cases wanted hbudgetEnds with
    ⟨noun, verb, htried, hgives, hearlier, hfind⟩ | ⟨hmisses, hfind⟩
  · refine ⟨fun noun' verb' => ⟨fun hfind' => ?_, ?_⟩, ⟨fun hnone => ?_, fun hnone => ?_⟩,
      .inl ⟨noun, verb, hfind⟩⟩
    · rw [hfind] at hfind'
      cases hfind'
      exact ⟨htried, hgives, hearlier⟩
    · rintro ⟨htried', hgives', hearlier'⟩
      -- of two different pairs the later one would have been passed by
      rcases eq_or_before (noun', verb') (noun, verb) with heq | hbefore | hbefore
      · rw [hfind, heq]
      · exact absurd hgives' (hearlier noun' verb' htried' hbefore).ne
      · exact absurd hgives (hearlier' noun verb htried hbefore).ne
    · rw [hfind] at hnone
      cases hnone
    · exact absurd hgives (hnone noun verb htried)
  · refine ⟨fun noun verb => ⟨fun hfind' => ?_, ?_⟩,
      ⟨fun _ noun verb htried => (hmisses noun verb htried).ne, fun _ => hfind⟩, .inr hfind⟩
    · rw [hfind] at hfind'
      cases hfind'
    · rintro ⟨htried, hgives, -⟩
      exact absurd hgives (hmisses noun verb htried).ne

/-- A program that puts the sum of its noun and its verb into its first cell. -/
def adding : List ℤ := [1101, 0, 0, 0, 99]

theorem runWith_adding (h : Tried noun verb) : runWith 2 adding noun verb = .ok (noun + verb) := by
  obtain ⟨hnoun, hverb⟩ := h
  have hfits : Computer.fits (noun + verb) = true := by
    have hleast : Computer.leastValue ≤ 0 := by decide
    have hgreatest : 198 ≤ Computer.greatestValue := by decide
    simp only [Computer.fits, Bool.and_eq_true, decide_eq_true_eq]
    omega
  have hread : ∀ k : ℕ, k < 5 → (Computer.load [1101, noun, verb, 0, 99]).read k =
      .ok ([1101, noun, verb, 0, 99].getD k 0) := by
    intro k hk
    have hlimit : 5 < Computer.memoryLimit := by decide
    rw [Computer.read_natCast (by omega), Computer.value_load]
  have hstep : (Computer.load [1101, noun, verb, 0, 99]).step =
      .runs ⟨#[noun + verb, noun, verb, 0, 99], 4, 0, [], #[]⟩ := by
    rw [Computer.step_eq_runs_iff]
    refine ⟨⟨.add, .immediate, .immediate, .position⟩, .store 0 (noun + verb), rfl, ?_, rfl⟩
    rw [Computer.effect_eq_ok_iff]
    have htarget : (Computer.load [1101, noun, verb, 0, 99]).target .position 2 = .ok 0 := by
      show (Computer.load [1101, noun, verb, 0, 99]).read (3 : ℕ) >>= Computer.cell = _
      rw [hread 3 (by omega)]
      rfl
    exact ⟨noun, verb, ⟨hread 1 (by omega), hread 2 (by omega), 0, htarget, rfl⟩, hfits⟩
  have hrun : (Computer.load [1101, noun, verb, 0, 99]).run 2 =
      some ⟨.halted, ⟨#[noun + verb, noun, verb, 0, 99], 4, 0, [], #[]⟩⟩ := by
    rw [Computer.run_succ, hstep]
    rfl
  have hexecute : execute 2 [1101, noun, verb, 0, 99] = .ok [noun + verb, noun, verb, 0, 99] := by
    rw [execute, Computer.finish, Computer.runToHalt, hrun]
    rfl
  show execute 2 [1101, noun, verb, 0, 99] >>= _ = _
  rw [hexecute]
  rfl

/-- Fifty pairs have the sum 149, of which the one with the least noun is found; none has the sum
199. -/
theorem find_of_trials_adding :
    ∃ enough, ∀ budget, enough ≤ budget →
      find budget adding 149 = .ok (50, 99) ∧
      find budget adding 199 = .error (.fault (.unsolvable (.noNounAndVerb 199))) := by
  have hends : ∀ noun verb, Tried noun verb →
      ∃ budget, runWith budget adding noun verb ≠ .error .unfinished := by
    intro noun verb htried
    refine ⟨2, ?_⟩
    rw [runWith_adding htried]
    nofun
  obtain ⟨first, hfirst, hfound⟩ := find_of_trials adding 149 hends
  obtain ⟨second, hsecond, hnone⟩ := find_of_trials adding 199 hends
  have hadds : ∀ {noun verb}, Tried noun verb → ∀ {budget},
      (Suffices budget fun n => runWith n adding noun verb) →
      runWith budget adding noun verb = .ok (noun + verb) := by
    intro noun verb htried budget hbudget
    rw [← runWith_adding htried]
    refine hbudget.unique (suffices_runWith ?_)
    rw [runWith_adding htried]
    nofun
  refine ⟨max first second, fun budget hbudget => ⟨?_, ?_⟩⟩
  · have hbudget := le_of_max_le_left hbudget
    have htried : Tried 50 99 := ⟨by omega, by omega⟩
    refine ((hfound budget hbudget).1 50 99).2
      ⟨htried, hadds htried ((hfirst _ _ htried).mono hbudget), ?_⟩
    intro noun verb htried hbefore
    refine .inr ⟨_, hadds htried ((hfirst _ _ htried).mono hbudget), ?_⟩
    obtain ⟨-, -, hverb⟩ := htried
    rcases hbefore with hnoun | ⟨hnoun, hless⟩
    · dsimp only at hnoun
      omega
    · dsimp only at hnoun hless
      omega
  · have hbudget := le_of_max_le_right hbudget
    refine (hnone budget hbudget).2.1.2 fun noun verb htried hgives => ?_
    rw [hadds htried ((hsecond _ _ htried).mono hbudget)] at hgives
    obtain ⟨⟨-, hnoun⟩, -, hverb⟩ := htried
    have hsum : noun + verb = 199 := Except.ok.inj hgives
    omega

end GravityAssist

end Shipboard
