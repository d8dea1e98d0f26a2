import Shipboard.Proofs.Computer.Amid

/-!
# Sessions

In a session a computer is given its inputs turn by turn and is run after each turn; outputs may be
taken at any time.  Whatever the turns are, the session comes to the same as one run with all the
inputs (`play_of_run`).

* `Handling` is something that is done to a computer between two runs, a `Turn` what is done before
  one run;
* `Session.play` goes through the turns and stops at the first run that fails;
* `Session.whole s values` is the computer of a session as if nothing had been taken from it and
  `values` had been given to it at once.  No handling changes it.
-/

namespace Shipboard.Computer

/-- Something that is done to a computer between two runs. -/
inductive Handling
  /-- Queue one value. -/
  | push (value : ℤ)
  /-- Queue some values. -/
  | extend (values : List ℤ)
  /-- Take the outputs. -/
  | take
  deriving DecidableEq, Repr

/-- What is done to a computer before one run. -/
abbrev Turn := List Handling

/-- The values that a handling queues. -/
def Handling.values : Handling → List ℤ
  | .push value => [value]
  | .extend values => values
  | .take => []

/-- The values that are queued in a turn. -/
def Turn.values (turn : Turn) : List ℤ := turn.flatMap Handling.values

/-- A computer with the outputs that have been taken from it, in order. -/
structure Session where
  computer : Computer
  taken : List ℤ := []
  deriving DecidableEq, Repr

namespace Session

/-- Handle the computer of a session. -/
def handle (s : Session) : Handling → Session
  | .push value => { s with computer := s.computer.feed value }
  | .extend values => { s with computer := s.computer.feedAll values }
  | .take => ⟨s.computer.takeOutputs, s.taken ++ s.computer.outputs.toList⟩

/-- Do all that is to be done before one run. -/
def prepare (s : Session) (turn : Turn) : Session := turn.foldl handle s

/-- The end of a session: how its last run ended, what it came to and the turns that it did not
come to. -/
structure Closing where
  ending : Ending
  session : Session
  skipped : List Turn := []
  deriving DecidableEq, Repr

/-- Go through a turn and later ones, with a run after each, until a run fails. -/
def play (budget : ℕ) (s : Session) (turn : Turn) : (later : List Turn) → Option Closing
  | [] => (run budget (s.prepare turn).computer).map fun rest =>
      ⟨rest.ending, ⟨rest.computer, (s.prepare turn).taken⟩, []⟩
  | next :: later =>
    match run budget (s.prepare turn).computer with
    | none => none
    | some ⟨.failed fault, left⟩ =>
      some ⟨.failed fault, ⟨left, (s.prepare turn).taken⟩, next :: later⟩
    | some ⟨_, left⟩ => play budget ⟨left, (s.prepare turn).taken⟩ next later

/-- The computer of a session, as if nothing had been taken from it and it had been given some more
values. -/
def whole (s : Session) (values : List ℤ) : Computer :=
  s.computer.amid s.taken values

theorem whole_handle (s : Session) (handling : Handling) (values : List ℤ) :
    (s.handle handling).whole values = s.whole (handling.values ++ values) := by
  cases handling with
  | push value => simp [handle, whole, Handling.values, amid, feed]
  | extend more => simp [handle, whole, Handling.values, amid, feedAll]
  | take => exact takeOutputs_amid

theorem whole_prepare (s : Session) (turn : Turn) (values : List ℤ) :
    (s.prepare turn).whole values = s.whole (turn.values ++ values) := by
  induction turn generalizing s with
  | nil => rfl
  | cons handling turn ih =>
    rw [prepare, List.foldl_cons]
    refine (ih (s.handle handling)).trans ?_
    rw [whole_handle]
    simp [Turn.values]

/-- The end of a session is the end of a run of the whole computer. -/
theorem play_of_run_whole {budget : ℕ} {rest : Rest} (s : Session) (turn : Turn)
    (later : List Turn)
    (h : run budget (s.whole (turn.values ++ later.flatMap Turn.values)) = some rest) :
    ∃ closing, play budget s turn later = some closing ∧ closing.ending = rest.ending ∧
      closing.session.whole (closing.skipped.flatMap Turn.values) = rest.computer ∧
      ((∀ fault, rest.ending ≠ .failed fault) → closing.skipped = []) := by
  induction later generalizing s turn with
  | nil =>
    rw [List.flatMap_nil, ← whole_prepare] at h
    obtain ⟨ending, left, hrun, hends, hgoes⟩ := run_amid h
    refine ⟨_, by rw [play, hrun]; rfl, ?_⟩
    by_cases hending : ending = .needsInput
    · -- there is nothing more to come, so the whole computer waits too
      subst hending
      have hwaits := step_eq_needsInput_iff.2 ⟨starved_of_run hrun, rfl⟩
      have hrest := run_unique (hgoes (by simp)) (run_of_rests (step_amid_nil hwaits) 0)
      rw [hrest]
      exact ⟨rfl, rfl, fun _ => rfl⟩
    · rw [hends hending]
      exact ⟨rfl, rfl, fun _ => rfl⟩
  | cons next later ih =>
    rw [← whole_prepare] at h
    obtain ⟨ending, left, hrun, hends, hgoes⟩ := run_amid h
    cases ending with
    | failed fault =>
      refine ⟨_, by rw [play, hrun], ?_⟩
      rw [hends (by simp)]
      exact ⟨rfl, rfl, fun hnot => (hnot fault rfl).elim⟩
    | halted | needsInput =>
      rw [play, hrun]
      exact ih _ _ (hgoes (by simp))

/-- **All ways to feed a computer come to the same.**  Turn by turn a session ends in the same way
as the run that has all inputs at once, with the same outputs and the same inputs left. -/
theorem play_of_run (program : List ℤ) (turn : Turn) (later : List Turn) {budget : ℕ}
    {rest : Rest}
    (h : run budget ((load program).feedAll ((turn :: later).flatMap Turn.values)) = some rest) :
    ∃ closing, play budget ⟨load program, []⟩ turn later = some closing ∧
      closing.ending = rest.ending ∧
      closing.session.computer.memory = rest.computer.memory ∧
      closing.session.computer.position = rest.computer.position ∧
      closing.session.computer.base = rest.computer.base ∧
      closing.session.taken ++ closing.session.computer.outputs.toList =
        rest.computer.outputs.toList ∧
      closing.session.computer.inputs ++ closing.skipped.flatMap Turn.values =
        rest.computer.inputs ∧
      ((∀ fault, rest.ending ≠ .failed fault) → closing.skipped = []) ∧
      (rest.ending = .needsInput → closing.session.computer.Starved) ∧
      (rest.ending = .halted → ∀ values extra,
        run (extra + 1) (closing.session.computer.feedAll values) =
          some ⟨.halted, closing.session.computer.feedAll values⟩) := by
  have hwhole : run budget ((⟨load program, []⟩ : Session).whole
      (turn.values ++ later.flatMap Turn.values)) = some rest := by
    rwa [List.flatMap_cons, feedAll_eq_amid] at h
  obtain ⟨closing, hplay, hending, hrest, hskipped⟩ := play_of_run_whole _ turn later hwhole
  obtain ⟨ending, computer⟩ := rest
  subst hrest
  refine ⟨closing, hplay, hending, rfl, rfl, rfl, amid_outputs.symm, rfl, hskipped, ?_, ?_⟩
  · rintro rfl
    obtain ⟨hat, hinputs⟩ := starved_of_run hwhole
    exact ⟨hat, (List.append_eq_nil_iff.1 hinputs).1⟩
  · rintro rfl
    have hhalt := atHalt_of_run hwhole
    exact AtHalt.run_feedAll (c := closing.session.computer) hhalt

/-- A program that puts out its inputs, one after the other: it is given two of them in three
turns, the second of which gives none, and its first output is taken. -/
theorem play_of_run_echo :
    ∃ rest closing, run 9 ((load [3, 9, 4, 9, 3, 9, 4, 9, 99, 0]).feedAll [5, 6]) = some rest ∧
      rest.ending = .halted ∧
      play 9 ⟨load [3, 9, 4, 9, 3, 9, 4, 9, 99, 0], []⟩ [.push 5] [[.take], [.extend [6]]] =
        some closing ∧
      closing.session.taken = [5] ∧
      closing.session.taken ++ closing.session.computer.outputs.toList =
        rest.computer.outputs.toList := by
  have hrun : run 9 ((load [3, 9, 4, 9, 3, 9, 4, 9, 99, 0]).feedAll [5, 6]) =
      some ⟨.halted, ⟨#[3, 9, 4, 9, 3, 9, 4, 9, 99, 6], 8, 0, [], #[5, 6]⟩⟩ := by decide
  obtain ⟨closing, hplay, -, -, -, -, houtputs, -⟩ :=
    play_of_run [3, 9, 4, 9, 3, 9, 4, 9, 99, 0] [.push 5] [[.take], [.extend [6]]] hrun
  have htaken : (play 9 ⟨load [3, 9, 4, 9, 3, 9, 4, 9, 99, 0], []⟩ [.push 5]
      [[.take], [.extend [6]]]).map (fun closing => closing.session.taken) = some [5] := by decide
  rw [hplay] at htaken
  exact ⟨_, closing, hrun, rfl, hplay, Option.some.inj htaken, houtputs⟩

end Session

end Shipboard.Computer
