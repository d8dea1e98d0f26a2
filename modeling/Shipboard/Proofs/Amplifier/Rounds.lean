import Mathlib.Tactic
import Shipboard.Amplifier
import Shipboard.Proofs.Computer.Course
import Shipboard.Proofs.Computer.Memory
import Shipboard.Proofs.Text.Numeral

/-!
# Rounds that are counted

A feedback loop counts its rounds in a signed word of thirty-two bits.  How many rounds there are is
up to the program, so that the loop is compared with one that goes on without a counter.

* `Amplifier.Ends`: what a loop without a counter comes to, after so many complete rounds;
* `Amplifier.Completes`: such a loop goes through so many rounds;
* `Amplifier.settle_of_rounds`: below two to the power of thirty-one complete rounds the counter
  makes no difference, and from there on it is all that matters;
* `Amplifier.settle_of_countdown`: a program that halts in the first round that cannot be counted.
-/

namespace Shipboard.Amplifier

variable {budget left counted rounds : ℕ} {amplifiers : List Computer} {incoming : ℤ}
  {halted : Bool} {after : Round} {why : Failure} {result : Except Failure ℤ}

/-! ### A loop without a counter -/

/-- A feedback loop that does not count its rounds ends with a result: after so many complete rounds
one of its runs fails, or the last amplifier has halted in the last of these rounds. -/
inductive Ends (budget : ℕ) : List Computer → ℤ → ℕ → Except Failure ℤ → Prop
  | fails {amplifiers : List Computer} {incoming : ℤ} {why : Failure}
      (round : round budget amplifiers incoming true = .error why) :
      Ends budget amplifiers incoming 0 (.error why)
  | halts {amplifiers : List Computer} {incoming : ℤ} {after : Round}
      (round : round budget amplifiers incoming true = .ok after) (halted : after.halted = true) :
      Ends budget amplifiers incoming 1 (.ok after.signal)
  | goesOn {amplifiers : List Computer} {incoming : ℤ} {after : Round} {rounds : ℕ}
      {result : Except Failure ℤ} (round : round budget amplifiers incoming true = .ok after)
      (halted : after.halted = false)
      (later : Ends budget after.amplifiers after.signal rounds result) :
      Ends budget amplifiers incoming (rounds + 1) result

/-- A feedback loop that does not count its rounds goes through so many of them: no run fails, and
the last amplifier has not halted before the last one. -/
def Completes (budget : ℕ) : ℕ → List Computer → ℤ → Prop
  | 0, _, _ => True
  | rounds + 1, amplifiers, incoming =>
    ∃ after, round budget amplifiers incoming true = .ok after ∧
      (rounds = 0 ∨
        after.halted = false ∧ Completes budget rounds after.amplifiers after.signal)

/-- A loop that ends has gone through its complete rounds. -/
theorem Ends.completes (h : Ends budget amplifiers incoming rounds result) :
    Completes budget rounds amplifiers incoming := by
  induction h with
  | fails => trivial
  | halts hround => exact ⟨_, hround, .inl rfl⟩
  | goesOn hround hhalted _ ih => exact ⟨_, hround, .inr ⟨hhalted, ih⟩⟩

/-! ### A loop with a counter -/

theorem proceed_ne_outOfRange (c : Computer) : c.proceed budget ≠ .error .outOfRange := by
  unfold Computer.proceed
  split <;> nofun

theorem signal_ne_outOfRange (output : Option ℤ) : signal output ≠ .error .outOfRange := by
  cases output <;> nofun

/-- Nothing is counted within a round. -/
theorem round_ne_outOfRange (amplifiers : List Computer) (incoming : ℤ) (halted : Bool) :
    round budget amplifiers incoming halted ≠ .error .outOfRange := by
  induction amplifiers generalizing incoming halted with
  | nil => nofun
  | cons amplifier others ih =>
    intro h
    rw [round, bind_eq_error] at h
    rcases h with h | ⟨⟨left, flag⟩, -, h⟩
    · exact proceed_ne_outOfRange _ h
    · rcases bind_eq_error.1 h with h | ⟨outgoing, -, h⟩
      · exact signal_ne_outOfRange _ h
      · rcases bind_eq_error.1 h with h | ⟨rest, -, h⟩
        · exact ih _ _ h
        · cases h

theorem loop_of_round_error (h : round budget amplifiers incoming true = .error why) :
    loop budget left counted amplifiers incoming = .error why := by
  cases left <;> rw [loop, h] <;> rfl

theorem loop_succ_of_round (h : round budget amplifiers incoming true = .ok after) :
    loop budget (left + 1) counted amplifiers incoming =
      if after.halted then .ok ⟨after.signal, counted + 1⟩
      else loop budget left (counted + 1) after.amplifiers after.signal := by
  rw [loop, h]
  rfl

/-- As long as the rounds can be counted, the counter makes no difference. -/
theorem loop_of_ends (h : Ends budget amplifiers incoming rounds result) (hle : rounds ≤ left) :
    loop budget left counted amplifiers incoming =
      result.map fun signal => ⟨signal, counted + rounds⟩ := by
  induction h generalizing left counted with
  | fails hround => exact loop_of_round_error hround
  | halts hround hhalted =>
    obtain ⟨left, rfl⟩ := Nat.exists_eq_add_of_le' hle
    rw [loop_succ_of_round hround, if_pos hhalted]
    rfl
  | @goesOn _ _ after rounds _ hround hhalted _ ih =>
    obtain ⟨left, rfl⟩ := Nat.exists_eq_add_of_le' (Nat.le_of_add_left_le hle)
    rw [loop_succ_of_round hround, hhalted, if_neg Bool.false_ne_true, ih (by omega),
      Nat.add_right_comm, Nat.add_assoc]

/-- The counter is left by the round behind the last one that can be counted. -/
theorem loop_eq_outOfRange_iff :
    loop budget left counted amplifiers incoming = .error .outOfRange ↔
      Completes budget (left + 1) amplifiers incoming := by
  induction left generalizing counted amplifiers incoming with
  | zero =>
    rw [loop, bind_eq_error, or_iff_right (round_ne_outOfRange _ _ _)]
    simp [Completes, throw, throwThe, MonadExceptOf.throw]
  | succ left ih =>
    cases hround : round budget amplifiers incoming true with
    | error why =>
      have hwhy : why ≠ .outOfRange := by
        rintro rfl
        exact round_ne_outOfRange _ _ _ hround
      rw [loop_of_round_error hround]
      simp [Completes, hround, hwhy]
    | ok after =>
      rw [loop_succ_of_round hround]
      cases hhalted : after.halted with
      | true => simp [Completes, hround, hhalted]
      | false =>
        rw [if_neg Bool.false_ne_true, ih]
        simp [Completes, hround, hhalted]

/-- A loop that does not go through so many rounds has ended before. -/
theorem ends_or_completes (n : ℕ) (amplifiers : List Computer) (incoming : ℤ) :
    (∃ rounds < n, ∃ result, Ends budget amplifiers incoming rounds result) ∨
      Completes budget n amplifiers incoming := by
  induction n generalizing amplifiers incoming with
  | zero => exact .inr trivial
  | succ n ih =>
    cases hround : round budget amplifiers incoming true with
    | error why => exact .inl ⟨0, n.succ_pos, _, .fails hround⟩
    | ok after =>
      rcases Nat.eq_zero_or_pos n with rfl | hn
      · exact .inr ⟨after, hround, .inl rfl⟩
      · cases hhalted : after.halted with
        | true => exact .inl ⟨1, by omega, _, .halts hround hhalted⟩
        | false =>
          rcases ih after.amplifiers after.signal with ⟨rounds, hlt, result, h⟩ | h
          · exact .inl ⟨rounds + 1, by omega, result, .goesOn hround hhalted h⟩
          · exact .inr ⟨after, hround, .inr ⟨hhalted, h⟩⟩

theorem feedback_eq_outOfRange_iff {program phases : List ℤ} :
    feedback budget program phases = .error .outOfRange ↔
      Completes budget (2 ^ 31) (phases.map (inLoop program)) 0 := by
  rw [feedback, map_eq_error, settle, loop_eq_outOfRange_iff]
  rfl

/-! ### A loop of any length -/

/-- A program that takes its phase setting for a number of rounds, passes its signal on in each of
them and halts in the last. -/
def countdown : List ℤ := [3, 14, 3, 15, 1001, 14, -1, 14, 4, 15, 1005, 14, 2, 99, 0, 0]

/-- An amplifier with this program while it passes zeros on, with so many rounds left. -/
def counting (left : ℤ) (position : ℕ) (inputs : List ℤ) (outputs : Array ℤ) : Computer where
  memory := #[3, 14, 3, 15, 1001, 14, -1, 14, 4, 15, 1005, 14, 2, 99, left, 0]
  position := position
  inputs := inputs
  outputs := outputs

section Countdown

open Computer

variable {v : ℤ}

theorem step_phase (v : ℤ) : (counting 0 0 [v, 0] #[]).step = .runs (counting v 2 [0] #[]) := by
  rw [step_eq_runs_iff]
  refine ⟨⟨.input, .position, .position, .position⟩, .receive 14 v, rfl, ?_, rfl⟩
  have htarget : (counting 0 0 [v, 0] #[]).target .position 0 = .ok 14 :=
    target_position 1 14 rfl (by decide) rfl (by decide)
  exact effect_eq_ok_iff.2 (.inr ⟨v, [0], 14, rfl, htarget, rfl⟩)

theorem step_signal (v : ℤ) : (counting v 2 [0] #[]).step = .runs (counting v 4 [] #[]) := by
  rw [step_eq_runs_iff]
  refine ⟨⟨.input, .position, .position, .position⟩, .receive 15 0, rfl, ?_, rfl⟩
  have htarget : (counting v 2 [0] #[]).target .position 0 = .ok 15 :=
    target_position 3 15 rfl (by decide) rfl (by decide)
  exact effect_eq_ok_iff.2 (.inr ⟨0, [], 15, rfl, htarget, rfl⟩)

theorem step_decrement (hfits : fits (v + -1) = true) :
    (counting v 4 [] #[]).step = .runs (counting (v + -1) 8 [] #[]) := by
  rw [step_eq_runs_iff]
  refine ⟨⟨.add, .position, .immediate, .position⟩, .store 14 (v + -1), rfl, ?_, rfl⟩
  have hleft : (counting v 4 [] #[]).operand .position 0 = .ok v :=
    operand_position 5 14 rfl (by decide) rfl (by decide)
  have hright : (counting v 4 [] #[]).operand .immediate 1 = .ok (-1) :=
    parameter_eq 6 rfl (by decide)
  have htarget : (counting v 4 [] #[]).target .position 2 = .ok 14 :=
    target_position 7 14 rfl (by decide) rfl (by decide)
  exact effect_eq_ok_iff.2 ⟨v, -1, ⟨hleft, hright, 14, htarget, rfl⟩, hfits⟩

theorem step_output (v : ℤ) : (counting v 8 [] #[]).step = .runs (counting v 10 [] #[0]) := by
  rw [step_eq_runs_iff]
  refine ⟨⟨.output, .position, .position, .position⟩, .emit 0, rfl, ?_, rfl⟩
  have hvalue : (counting v 8 [] #[]).operand .position 0 = .ok 0 :=
    operand_position 9 15 rfl (by decide) rfl (by decide)
  exact effect_eq_ok_iff.2 ⟨0, hvalue, rfl⟩

/-- The amplifier goes back to its start if a round is left, and else it goes on to its halt
instruction. -/
theorem step_branch (v : ℤ) : (counting v 10 [] #[0]).step =
    .runs (counting v (if v ≠ 0 then 2 else 13) [] #[0]) := by
  rw [step_eq_runs_iff]
  have htest : (counting v 10 [] #[0]).operand .position 0 = .ok v :=
    operand_position 11 14 rfl (by decide) rfl (by decide)
  have hgoal : (counting v 10 [] #[0]).operand .immediate 1 = .ok 2 :=
    parameter_eq 12 rfl (by decide)
  refine ⟨⟨.jumpIfTrue, .position, .immediate, .position⟩, if v ≠ 0 then .jump 2 else .pass, rfl,
    effect_eq_ok_iff.2 ⟨v, 2, htest, hgoal, ?_⟩, ?_⟩
  · split_ifs with hv
    · exact .inl ⟨hv, 2, rfl, rfl⟩
    · exact .inr ⟨hv, rfl⟩
  · split_ifs <;> rfl

/-- One round of the amplifier. -/
theorem run_counting (hfits : fits (v + -1) = true) (h : 5 ≤ budget) :
    run budget (counting v 2 [0] #[]) =
      some (if v + -1 ≠ 0 then ⟨.needsInput, counting (v + -1) 2 [] #[0]⟩
        else ⟨.halted, counting (v + -1) 13 [] #[0]⟩) := by
  have hcourse : after 4 (counting v 2 [0] #[]) =
      some (counting (v + -1) (if v + -1 ≠ 0 then 2 else 13) [] #[0]) := by
    rw [after_succ_of_runs (step_signal v), after_succ_of_runs (step_decrement hfits),
      after_succ_of_runs (step_output _), after_succ_of_runs (step_branch _), after_zero]
  refine run_eq_some_iff.2 ⟨4, by omega, _, hcourse, ?_⟩
  split_ifs <;> rfl

/-- A round of a loop that has one amplifier. -/
theorem round_singleton {amplifier left : Computer} {ending : Ending} {outgoing : ℤ}
    (hrun : run budget (amplifier.feed incoming) = some ⟨ending, left⟩)
    (hending : ∀ fault, ending ≠ .failed fault) (houtputs : left.outputs.back? = some outgoing) :
    round budget [amplifier] incoming halted =
      .ok ⟨[left.takeOutputs], outgoing, decide (ending = .halted)⟩ := by
  rw [round, proceed, hrun]
  cases ending with
  | failed fault => exact (hending fault rfl).elim
  | halted =>
    show (signal left.outputs.back? >>= _) = _
    rw [houtputs]
    rfl
  | needsInput =>
    show (signal left.outputs.back? >>= _) = _
    rw [houtputs]
    rfl

/-- The first round begins like every other once the phase setting has been read. -/
theorem run_phase (hfits : fits (v + -1) = true) (h : 6 ≤ budget) :
    run budget (counting 0 0 [v, 0] #[]) = run budget (counting v 2 [0] #[]) := by
  obtain ⟨budget, rfl⟩ := Nat.exists_eq_add_of_le' (Nat.one_le_of_lt h)
  rw [run_succ, step_phase]
  show run budget (counting v 2 [0] #[]) = run (budget + 1) (counting v 2 [0] #[])
  rw [run_counting hfits (by omega), run_counting hfits (by omega)]

theorem fits_countdown {n : ℕ} (hn : n < 2 ^ 63) : fits (((n + 1 : ℕ) : ℤ) + -1) = true := by
  rw [fits_eq, Text.fitsSigned_iff, cellBits]
  omega

/-- The loop goes through as many rounds as the amplifier has left. -/
theorem ends_counting {amplifier : Computer} {n : ℕ} (hn : n < 2 ^ 63) (h : 5 ≤ budget)
    (hrun : run budget (amplifier.feed 0) = run budget (counting (n + 1 : ℕ) 2 [0] #[])) :
    Ends budget [amplifier] 0 (n + 1) (.ok 0) := by
  rw [run_counting (fits_countdown hn) h] at hrun
  induction n generalizing amplifier with
  | zero => exact .halts (round_singleton hrun nofun rfl) rfl
  | succ n ih =>
    have hleft : ((n + 1 + 1 : ℕ) : ℤ) + -1 = (n + 1 : ℕ) := by omega
    have hne : ((n + 1 : ℕ) : ℤ) ≠ 0 := by omega
    rw [hleft, if_pos hne] at hrun
    exact .goesOn (round_singleton hrun nofun rfl) rfl
      (ih (by omega) (run_counting (fits_countdown (by omega)) h))

/-- A phase setting above zero is the number of rounds. -/
theorem ends_countdown {n : ℕ} (hn : n < 2 ^ 63) (h : 6 ≤ budget) :
    Ends budget ([((n + 1 : ℕ) : ℤ)].map (inLoop countdown)) 0 (n + 1) (.ok 0) :=
  ends_counting hn (by omega) (run_phase (fits_countdown hn) h)

end Countdown

/-! ### The counter of a loop -/

/-- **The counter of rounds is wide enough for all but the longest loops.**  A loop ends out of
range exactly if it goes through `2 ^ 31` complete rounds, whatever comes after them. -/
theorem settle_of_rounds (budget : ℕ) (program phases : List ℤ) :
    (∀ rounds result, Ends budget (phases.map (inLoop program)) 0 rounds result →
      rounds < 2 ^ 31 →
        settle budget program phases = (result.map fun signal => ⟨signal, rounds⟩) ∧
        feedback budget program phases = result) ∧
    (feedback budget program phases = .error .outOfRange ↔
      Completes budget (2 ^ 31) (phases.map (inLoop program)) 0) ∧
    ((∃ rounds < 2 ^ 31, ∃ result, Ends budget (phases.map (inLoop program)) 0 rounds result) ∨
      Completes budget (2 ^ 31) (phases.map (inLoop program)) 0) := by
  refine ⟨fun rounds result h hlt => ?_, feedback_eq_outOfRange_iff, ends_or_completes _ _ _⟩
  have hsettle : settle budget program phases =
      result.map fun signal => (⟨signal, 0 + rounds⟩ : Settled) :=
    loop_of_ends h (by rw [roundLimit]; omega)
  rw [Nat.zero_add] at hsettle
  refine ⟨hsettle, ?_⟩
  rw [feedback, hsettle]
  cases result <;> rfl

theorem settle_of_rounds_countdown :
    settle 6 countdown [3] = .ok ⟨0, 3⟩ ∧ feedback 6 countdown [3] = .ok 0 :=
  (settle_of_rounds 6 countdown [3]).1 3 (.ok 0) (ends_countdown (n := 2) (by decide) le_rfl)
    (by decide)

/-- The last amplifier halts in the round that takes the counter out of its range, and no signal
comes back. -/
theorem settle_of_countdown :
    ∃ enough, ∀ budget, enough ≤ budget →
      Ends budget ([2147483648].map (inLoop countdown)) 0 2147483648 (.ok 0) ∧
      feedback budget countdown [2147483648] = .error .outOfRange := by
  refine ⟨6, fun budget h => ?_⟩
  have hends := ends_countdown (n := 2147483647) (by decide) h
  exact ⟨hends, feedback_eq_outOfRange_iff.2 hends.completes⟩

end Shipboard.Amplifier
