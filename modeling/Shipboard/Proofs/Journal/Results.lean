import Mathlib.Tactic
import Shipboard.Journal.Task
import Shipboard.Proofs.Outcome

/-!
# Journals make no difference

A computation that notes down what it does has the result of the same computation without notes.

* `Noted.result_foldlM` is this for a computation at every member of a list;
* there is a lemma `Noted.result_…` for every computation of the tasks, and `Noted.result_solve` is
  for the solver of any day.
-/

namespace Shipboard.Noted

variable {α β : Type} {detail : Level} {budget : ℕ} {program : List ℤ}

theorem result_foldlM (f : β → α → Noted β) (b : β) (xs : List α) :
    (xs.foldlM f b).result = xs.foldlM (fun b a => (f b a).result) b := by
  induction xs generalizing b with
  | nil => rfl
  | cons x xs ih => simp only [List.foldlM_cons, result_bind, ih]

@[simp] theorem result_finish (c : Computer) : (finish detail budget c).result = c.finish budget :=
  rfl

@[simp] theorem result_proceed (c : Computer) :
    (proceed detail budget c).result = c.proceed budget :=
  rfl

@[simp] theorem result_outputsOf (inputs : List ℤ) :
    (outputsOf detail budget program inputs).result = Computer.outputsOf budget program inputs := by
  simp [outputsOf, Computer.outputsOf]

/-! ### Gravity assist -/

theorem result_runWith (noun verb : ℤ) :
    (runWith detail budget program noun verb).result =
      GravityAssist.runWith budget program noun verb := by
  rw [runWith]
  split_ifs with hshort
  · rfl
  · rw [GravityAssist.runWith, if_neg hshort]
    simp only [execute, GravityAssist.execute, result_bind, result_finish, result_pure]
    congr
    funext memory
    cases memory[0]? <;> rfl

theorem result_firstGiving (run : ℤ → ℤ → Noted ℤ) (wanted : ℤ) (pairs : List (ℤ × ℤ)) :
    (firstGiving run wanted pairs).result =
      GravityAssist.firstGiving (fun noun verb => (run noun verb).result) wanted pairs := by
  induction pairs with
  | nil => rfl
  | cons pair pairs ih =>
    obtain ⟨noun, verb⟩ := pair
    rw [firstGiving, GravityAssist.firstGiving]
    rcases (run noun verb).result with (why | _ | _) | output
    · exact ih
    · rfl
    · rfl
    · by_cases houtput : output = wanted
      · simp only [houtput, if_true]
      · simp only [houtput, if_false, result_after, ih]

theorem result_find (wanted : ℤ) :
    (find detail budget program wanted).result = GravityAssist.find budget program wanted := by
  have hrun : (fun noun verb => (runWith detail budget program noun verb).result) =
      GravityAssist.runWith budget program := funext₂ result_runWith
  rw [find, GravityAssist.find, result_bind, result_firstGiving, hrun]
  congr
  funext found
  cases found <;> rfl

theorem result_gravityAssist (text : String) :
    (gravityAssist detail budget text).result = GravityAssist.solve budget text := by
  simp [gravityAssist, GravityAssist.solve, result_runWith, result_find]

/-! ### Diagnostics and boost -/

theorem result_diagnosticReport (system : ℤ) :
    (diagnosticReport detail budget program system).result =
      Diagnostics.report budget program system := by
  simp only [diagnosticReport, Diagnostics.report, result_bind, result_outputsOf]
  congr
  funext outputs
  cases outputs.getLast? <;> rfl

theorem result_diagnosticCode (system : ℤ) :
    (diagnosticCode detail budget program system).result =
      Diagnostics.code budget program system := by
  simp only [diagnosticCode, Diagnostics.code, result_bind, result_diagnosticReport,
    result_noteIf, result_note, result_pure, pure_bind]
  cases Diagnostics.report budget program system <;> rfl

theorem result_diagnostics (text : String) :
    (diagnostics detail budget text).result = Diagnostics.solve budget text := by
  simp [diagnostics, Diagnostics.solve, result_diagnosticCode]

theorem result_boostValue (mode : ℤ) :
    (boostValue detail budget program mode).result = Boost.value budget program mode := by
  simp [boostValue, Boost.value]

theorem result_boost (text : String) :
    (boost detail budget text).result = Boost.solve budget text := by
  simp [boost, Boost.solve, result_boostValue]

/-! ### Amplifiers -/

theorem result_amplify (incoming phase : ℤ) :
    (amplify detail budget program incoming phase).result =
      Amplifier.amplify budget program incoming phase := by
  simp [amplify, Amplifier.amplify]

theorem result_chain (phases : List ℤ) :
    (chain detail budget program phases).result = Amplifier.chain budget program phases := by
  simp only [chain, Amplifier.chain, result_foldlM, result_amplify]

theorem result_round (amplifiers : List Computer) (incoming : ℤ) (halted : Bool) :
    (round detail budget amplifiers incoming halted).result =
      Amplifier.round budget amplifiers incoming halted := by
  induction amplifiers generalizing incoming halted with
  | nil => rfl
  | cons amplifier others ih => simp [round, Amplifier.round, ih]

theorem result_loop (left rounds : ℕ) (amplifiers : List Computer) (incoming : ℤ) :
    (loop detail budget left rounds amplifiers incoming).result =
      Amplifier.loop budget left rounds amplifiers incoming := by
  induction left generalizing rounds amplifiers incoming with
  | zero => simp [loop, Amplifier.loop, result_round]; rfl
  | succ left ih =>
    simp only [loop, Amplifier.loop, result_bind, result_round]
    congr
    funext after
    split_ifs
    · rfl
    · exact ih ..

theorem result_settle (phases : List ℤ) :
    (settle detail budget program phases).result = Amplifier.settle budget program phases := by
  rw [settle]
  split_ifs
  · exact result_loop ..
  · rfl

theorem result_feedback (phases : List ℤ) :
    (feedback detail budget program phases).result = Amplifier.feedback budget program phases := by
  rw [feedback, Amplifier.feedback, result_bind, result_settle]
  cases Amplifier.settle budget program phases <;> rfl

theorem result_best (first stop : ℤ) (row : List ℤ → Noted ℤ) :
    (best first stop row).result =
      Amplifier.best first stop fun phases => (row phases).result := by
  have hbetter : (fun best phases => (better row best phases).result) =
      Amplifier.better fun phases => (row phases).result := by
    funext best phases
    rw [better, Amplifier.better, result_bind]
    congr
    funext signal
    cases best with
    | none => rfl
    | some b => simp only [result_pure]
  have harrangements (all : List (List ℤ)) : all.map ([].reverse ++ ·) = all := by simp
  rw [best, Amplifier.best, foldArrangements_eq, harrangements, result_bind, result_foldlM, hbetter]
  congr
  funext found
  cases found <;> rfl

theorem result_bestChain :
    (bestChain detail budget program).result = Amplifier.bestChain budget program := by
  simp only [bestChain, Amplifier.bestChain, result_best, result_chain]

theorem result_bestFeedback :
    (bestFeedback detail budget program).result = Amplifier.bestFeedback budget program := by
  simp only [bestFeedback, Amplifier.bestFeedback, result_best, result_feedback]

theorem result_amplifiers (text : String) :
    (amplifiers detail budget text).result = Amplifier.solve budget text := by
  simp [amplifiers, Amplifier.solve, result_bestChain, result_bestFeedback]

/-! ### Surveys -/

theorem result_fuel (text : String) : (fuel detail text).result = Fuel.solve text := by
  simp [fuel, Fuel.solve]

theorem result_wires (text : String) : (wires detail text).result = Wire.solve text := by
  simp [wires, Wire.solve]

theorem result_passcodes (text : String) :
    (passcodes detail text).result = Task.orFault (Passcode.solve text) := by
  simp only [passcodes, Passcode.solve, result_bind, result_liftM_fault, result_note, result_pure,
    pure_bind]
  cases Passcode.parseRange text <;> rfl

theorem result_record (c : Chart) (line : List Char × ℕ) :
    (record detail c line).result =
      Task.orFault ((Orbit.parseLine line.1 line.2).map c.record) := by
  simp only [record, result_bind, result_liftM_fault, result_noteIf, result_pure, pure_bind]
  cases Orbit.parseLine line.1 line.2 <;> rfl

/-- Line by line, a chart is made of the orbits of all lines, or has the first fault among them. -/
theorem result_foldlM_record (c : Chart) (lines : List (List Char × ℕ)) :
    (lines.foldlM (record detail) c).result =
      Task.orFault ((lines.mapM fun line => Orbit.parseLine line.1 line.2).map
        (List.foldl Chart.record c)) := by
  induction lines generalizing c with
  | nil => rfl
  | cons line lines ih =>
    rw [List.foldlM_cons, List.mapM_cons, result_bind, result_record]
    cases Orbit.parseLine line.1 line.2 with
    | error why => rfl
    | ok orbit =>
      show (lines.foldlM (record detail) (c.record orbit)).result = _
      rw [ih]
      cases lines.mapM fun line => Orbit.parseLine line.1 line.2 <;> rfl

theorem result_chart (text : String) :
    (chart detail text).result = Task.orFault (Chart.parse text) := by
  have hall : Orbit.parseAll text =
      (Text.numberedLines text.toList).mapM fun line => Orbit.parseLine line.1 line.2 := rfl
  rw [chart, result_bind, result_foldlM_record, ← hall, Chart.parse]
  cases Orbit.parseAll text with
  | error why => rfl
  | ok orbits =>
    have hmade : orbits.foldl Chart.record Chart.empty = Chart.ofOrbits orbits := rfl
    simp only [Task.orFault, Except.map, Except.mapError, bind, Except.bind, hmade]
    cases (Chart.ofOrbits orbits).firstEndless? <;> rfl

theorem result_split (stream : List Char) (w h : ℕ) :
    (split detail stream w h).result = Task.orFault (LayerStack.split stream w h) := by
  simp only [split, result_bind, result_liftM_fault, result_noteIf, result_note, result_pure,
    pure_bind]
  cases hsize : LayerStack.checkSize w h with
  | error why =>
    have hsplit : LayerStack.split stream w h = .error why := by
      rw [LayerStack.split, hsize]
      rfl
    rw [hsplit]
    rfl
  | ok u => cases LayerStack.split stream w h <;> rfl

theorem result_flatten (s : LayerStack) : (flatten detail s).result = s.flatten := by
  simp [flatten]

/-! ### Tasks -/

theorem result_concluded (x : Noted α) (words : String) :
    (concluded detail x words).result = x.result := by
  simp [concluded]

theorem result_orbits (path text : String) :
    (orbits detail path text).result = Task.orFault (Chart.solve text) := by
  rw [orbits, result_bind, result_concluded, result_bind, result_chart, Chart.solve]
  cases Chart.parse text with
  | error why => rfl
  | ok chart =>
    show (liftM chart.summary : Except Failure _) >>= _ = Task.orFault chart.summary
    cases chart.summary with
    | error why => rfl
    | ok answer =>
      show Noted.result (noteIf _ _ _ _ >>= fun _ => pure _) = _
      rw [result_bind, result_noteIf]
      rfl

theorem result_arrangedAmplifiers (settings : Settings) (path text : String) :
    (arrangedAmplifiers detail budget path text).result =
      Task.solve budget settings text .amplifiers := by
  simp only [arrangedAmplifiers, result_bind, result_concluded, result_liftM_fault,
    result_bestChain, result_bestFeedback, result_pure]
  rfl

theorem result_image (settings : Settings) (path text : String) :
    (image detail settings path text).result = Task.solve budget settings text .image := by
  simp only [image, result_bind, result_split, result_note, result_liftM, result_flatten,
    result_pure, pure_bind]
  rfl

/-- **Notes make no difference to the answers of a day**, in whatever detail they are made. -/
theorem result_solve (settings : Settings) (text : String) (day : Day) :
    (solve detail budget settings text day).result = Task.solve budget settings text day := by
  cases day with
  | fuel => exact (result_concluded ..).trans (result_fuel text)
  | gravityAssist => exact (result_concluded ..).trans (result_gravityAssist text)
  | wires => exact (result_concluded ..).trans (result_wires text)
  | passcodes => exact (result_concluded ..).trans (result_passcodes text)
  | diagnostics => exact (result_concluded ..).trans (result_diagnostics text)
  | orbits => exact result_orbits ..
  | amplifiers => exact result_arrangedAmplifiers ..
  | image => exact result_image ..
  | boost => exact (result_concluded ..).trans (result_boost text)

end Shipboard.Noted
