import Mathlib.Tactic
import Shipboard.Amplifier
import Shipboard.Proofs.Outcome

/-!
# Amplifiers that are used once

An amplifier of a chain is given its phase setting together with the signal, and its first output
goes on.  An amplifier of a feedback loop is given its phase setting before and the signals one by
one, it may pause, and its latest output goes on.  For amplifiers that halt with one output this is
the same.

* `Amplifier.Relays program incoming phases s`: a row of such amplifiers turns the signal `incoming`
  into `s`;
* `Amplifier.chain_of_relays` and `Amplifier.round_of_relays`: a chain and a round of a feedback
  loop pass the signal on in this way;
* `Amplifier.settle_of_relays`: both come to `s`, the feedback loop after one round.
-/

namespace Shipboard.Amplifier

variable {program phases : List ℤ} {incoming outgoing phase s : ℤ} {left : Computer} {budget : ℕ}

/-- Each amplifier of a row, given its phase setting and the incoming signal, halts and has put out
one value, which is the incoming signal of the next one; `s` is the signal behind the row. -/
inductive Relays (program : List ℤ) : ℤ → List ℤ → ℤ → Prop
  | nil (s : ℤ) : Relays program s [] s
  | cons {incoming phase outgoing s : ℤ} {phases : List ℤ} {budget : ℕ} {left : Computer}
      (run : (inChain program incoming phase).run budget = some ⟨.halted, left⟩)
      (outputs : left.outputs.toList = [outgoing]) (others : Relays program outgoing phases s) :
      Relays program incoming (phase :: phases) s

theorem feed_inLoop (program : List ℤ) (incoming phase : ℤ) :
    (inLoop program phase).feed incoming = inChain program incoming phase := by
  simp [inLoop, inChain, Computer.feed, Computer.feedAll]

/-! ### One amplifier -/

theorem amplify_of_run (hrun : (inChain program incoming phase).run budget = some ⟨.halted, left⟩)
    (houtputs : left.outputs.toList = [outgoing]) :
    amplify budget program incoming phase = .ok outgoing := by
  have hfirst : left.outputs[0]? = some outgoing := by
    rw [← Array.getElem?_toList, houtputs, List.getElem?_cons_zero]
  rw [amplify, Computer.finish, Computer.runToHalt, hrun]
  show signal left.outputs[0]? = _
  rw [hfirst, signal]

/-- An amplifier of a feedback loop that halts with one output, in front of others. -/
theorem round_cons_of_run {others : List Computer} {after : Round} {halted : Bool}
    (hrun : (inChain program incoming phase).run budget = some ⟨.halted, left⟩)
    (houtputs : left.outputs.toList = [outgoing])
    (hothers : round budget others outgoing true = .ok after) :
    round budget (inLoop program phase :: others) incoming halted =
      .ok { after with amplifiers := left.takeOutputs :: after.amplifiers } := by
  have hlatest : left.outputs.back? = some outgoing := by
    rw [← Array.getLast?_toList, houtputs, List.getLast?_singleton]
  rw [round, feed_inLoop, Computer.proceed, hrun]
  show (signal left.outputs.back? >>= fun outgoing => round budget others outgoing true >>= _) = _
  rw [hlatest, signal]
  show (round budget others outgoing true >>= _) = _
  rw [hothers]
  rfl

/-! ### A row of amplifiers -/

theorem chain_of_relays (h : Relays program incoming phases s) :
    ∃ enough, ∀ budget, enough ≤ budget →
      phases.foldlM (amplify budget program) incoming = .ok s := by
  induction h with
  | nil s => exact ⟨0, fun budget _ => rfl⟩
  | @cons _ _ _ _ _ first _ hrun houtputs _ ih =>
    obtain ⟨enough, hothers⟩ := ih
    refine ⟨max first enough, fun budget hbudget => ?_⟩
    obtain ⟨extra, rfl⟩ := Nat.exists_eq_add_of_le (le_of_max_le_left hbudget)
    rw [List.foldlM_cons, amplify_of_run (Computer.run_add hrun extra) houtputs]
    exact hothers _ (le_of_max_le_right hbudget)

theorem round_of_relays (h : Relays program incoming phases s) :
    ∃ enough, ∀ budget, enough ≤ budget → ∃ amplifiers,
      round budget (phases.map (inLoop program)) incoming true = .ok ⟨amplifiers, s, true⟩ := by
  induction h with
  | nil s => exact ⟨0, fun budget _ => ⟨[], rfl⟩⟩
  | @cons _ _ _ _ _ first _ hrun houtputs _ ih =>
    obtain ⟨enough, hothers⟩ := ih
    refine ⟨max first enough, fun budget hbudget => ?_⟩
    obtain ⟨extra, rfl⟩ := Nat.exists_eq_add_of_le (le_of_max_le_left hbudget)
    obtain ⟨amplifiers, hround⟩ := hothers _ (le_of_max_le_right hbudget)
    exact ⟨_, round_cons_of_run (Computer.run_add hrun extra) houtputs hround⟩

/-- A round after which the last amplifier has halted is the last one. -/
theorem loop_of_halted {amplifiers : List Computer} {after : Round}
    (h : round budget amplifiers incoming true = .ok after) (hhalted : after.halted = true)
    (left rounds : ℕ) :
    loop budget (left + 1) rounds amplifiers incoming = .ok ⟨after.signal, rounds + 1⟩ := by
  rw [loop, h]
  show (if after.halted then _ else _) = _
  rw [if_pos hhalted]
  rfl

/-- **A chain and a feedback loop agree on amplifiers that are used once**, with every budget that
is large enough, and the loop is left after one round. -/
theorem settle_of_relays (h : Relays program 0 phases s) :
    ∃ enough, ∀ budget, enough ≤ budget →
      chain budget program phases = .ok s ∧
      settle budget program phases = .ok ⟨s, 1⟩ ∧
      feedback budget program phases = .ok s := by
  obtain ⟨first, hchain⟩ := chain_of_relays h
  obtain ⟨second, hround⟩ := round_of_relays h
  refine ⟨max first second, fun budget hbudget => ?_⟩
  obtain ⟨amplifiers, hround⟩ := hround budget (le_of_max_le_right hbudget)
  have hsettle : settle budget program phases = .ok ⟨s, 1⟩ :=
    loop_of_halted hround rfl 2147483646 0
  refine ⟨hchain budget (le_of_max_le_left hbudget), hsettle, ?_⟩
  rw [feedback, hsettle]
  rfl

/-- A program that adds its phase setting to a signal and halts. -/
def addOnce : List ℤ := [3, 11, 3, 12, 1, 11, 12, 12, 4, 12, 99]

/-- Three amplifiers, of which the last one has the phase setting of the first one. -/
theorem settle_of_relays_addOnce :
    Relays addOnce 0 [5, 7, 5] 17 ∧
      ∃ enough, ∀ budget, enough ≤ budget →
        chain budget addOnce [5, 7, 5] = .ok 17 ∧
        settle budget addOnce [5, 7, 5] = .ok ⟨17, 1⟩ ∧
        feedback budget addOnce [5, 7, 5] = .ok 17 := by
  have hadd : ∀ {incoming phase outgoing s : ℤ} {phases : List ℤ},
      ((inChain addOnce incoming phase).run 5).map
        (fun rest => (rest.ending, rest.computer.outputs.toList)) = some (.halted, [outgoing]) →
      Relays addOnce outgoing phases s → Relays addOnce incoming (phase :: phases) s := by
    intro incoming phase outgoing s phases h hothers
    obtain ⟨⟨ending, left⟩, hrun, hrest⟩ := Option.map_eq_some_iff.1 h
    obtain ⟨rfl, houtputs⟩ := Prod.mk.inj hrest
    exact .cons hrun houtputs hothers
  have hthird : Relays addOnce 12 [5] 17 := hadd (by decide +kernel) (.nil 17)
  have hsecond : Relays addOnce 5 [7, 5] 17 := hadd (by decide +kernel) hthird
  have hrelays : Relays addOnce 0 [5, 7, 5] 17 := hadd (by decide +kernel) hsecond
  exact ⟨hrelays, settle_of_relays hrelays⟩

end Shipboard.Amplifier
