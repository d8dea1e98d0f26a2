import Mathlib.Tactic
import Shipboard.Proofs.Image.Saving
import Shipboard.Task

/-!
# What a task does with the answers of its day

Every day has a solver, which gives answers or a failure.  A task prints the answers and nothing
else, and if it fails it leaves nothing behind, but for two cases.  How files are read and how
pictures are saved is left open: all this holds for every file system.

* `Task.words` are the answers as they are written, and `Task.labelled` puts them behind their
  labels;
* `Task.report_eq`: the solver decides what is reported, unless a chain of amplifiers has a best
  arrangement and a feedback loop has none;
* `Task.PartlyDone` are the two cases in which a task fails and has done something.  A picture that
  cannot be saved is one of them: saving it may have made a file all the same, as it does in
  `Task.file_of_unsaved_picture`;
* `Task.Ends` are the ways in which a task ends whose input can be read, and `Task.ends_outcome`
  says that there are no others;
* `Task.run_answers`: the outcome of a task, for every number, all settings and all files.
-/

namespace Shipboard

theorem Day.number_injective : Function.Injective Day.number := by
  intro day day' h
  have hsame : ofNumber? day.number = ofNumber? day'.number := congrArg ofNumber? h
  rwa [ofNumber?_number, ofNumber?_number, Option.some.injEq] at hsame

theorem Day.exists_number_eq {n : ℕ} (hn : 1 ≤ n ∧ n ≤ 9) : ∃ day : Day, day.number = n := by
  obtain ⟨day, hday⟩ := Option.isSome_iff_exists.1 (Day.ofNumber?_isSome_iff.2 hn)
  exact ⟨day, by simpa using List.find?_some hday⟩

namespace Task

variable {Files : Type} {system : FileSystem Files} {detail : Option Level} {budget number : ℕ}
  {settings : Settings} {files : Files} {text : String} {day : Day} {failure : Failure}

/-! ### Answers -/

/-- The picture among the answers of a day. -/
def pictureIn? : (day : Day) → Answer day → Option Picture
  | .image, (_, picture) => some picture
  | _, _ => none

/-- The answers of a day as they are written.  A picture is drawn if it is to be shown. -/
def words (settings : Settings) : (day : Day) → Answer day → List String
  | .fuel, (a, b) | .gravityAssist, (a, b) | .diagnostics, (a, b) | .boost, (a, b) =>
    [toString a, toString b]
  | .wires, (a, b) | .passcodes, (a, b) => [toString a, toString b]
  | .orbits, (total, transfers) => toString total :: transfers.toList.map toString
  | .amplifiers, (chain, circle) =>
    [toString chain.signal, phaseList chain.phases, toString circle.signal, phaseList circle.phases]
  | .image, (checksum, picture) =>
    toString checksum :: if settings.display then [picture.drawing] else []

/-- Only a layered image has a picture among its answers. -/
theorem eq_image_of_pictureIn? {answer : Answer day} {picture : Picture}
    (hpicture : pictureIn? day answer = some picture) : day = .image := by
  cases day with
  | image => rfl
  | _ => cases hpicture

/-- What stands in front of the answers of a day. -/
def labels : Day → List String
  | .fuel => ["TOTAL FUEL NEEDED (MODULES)   : ", "TOTAL FUEL NEEDED (WITH FUEL) : "]
  | .gravityAssist => ["OUTPUT (1202) : ", "NOUN/VERB     : "]
  | .wires => ["CLOSEST DIST  : ", "SHORTEST DIST : "]
  | .passcodes => ["TOTAL PASSWORDS (PART 1) : ", "TOTAL PASSWORDS (PART 2) : "]
  | .diagnostics => ["AIR CONDITIONER  : ", "THERMAL RADIATOR : "]
  | .orbits => ["TOTAL ORBIT LENGTH : ", "TOTAL STEPS FROM ME TO SANTA : "]
  | .amplifiers =>
    ["MAX SETTING OUTPUT : ", "MAX SETTINGS       : ", "MAX RELOOP OUTPUT  : ",
      "MAX RELOOP         : "]
  | .image => ["", ""]
  | .boost => ["BOOST KEYCODE : ", "COORDINATES   : "]

/-- Words behind the labels of a day, as far as there are any. -/
def labelled (day : Day) (words : List String) : List String :=
  List.zipWith (· ++ ·) (labels day) words

/-- The checksum and the drawing of a layered image have no labels. -/
theorem labelled_image (settings : Settings) (checksum : ℕ) (picture : Picture) :
    labelled .image (words settings .image (checksum, picture)) =
      toString checksum :: if settings.display then [picture.drawing] else [] := by
  cases hdisplay : settings.display <;> simp [labelled, labels, words, hdisplay]

theorem solve_amplifiers_of_program {program : List Int}
    (hprogram : Computer.parseProgram text = .ok program) :
    solve budget settings text .amplifiers = (do
      let chain ← Amplifier.bestChain budget program
      let circle ← Amplifier.bestFeedback budget program
      return (chain, circle)) := by
  rw [solve, hprogram]
  rfl

/-- For the signals of the amplifiers the phase settings are left out. -/
theorem solve_amplifiers (budget : ℕ) (settings : Settings) (text : String) :
    Amplifier.solve budget text = (solve budget settings text .amplifiers).map
      fun (chain, circle) => (chain.signal, circle.signal) := by
  cases hprogram : Computer.parseProgram text with
  | error why =>
    rw [Amplifier.solve, solve, hprogram]
    rfl
  | ok program =>
    -- both take the same steps, of which any may fail
    rw [solve_amplifiers_of_program hprogram, Amplifier.solve, hprogram]
    show (Amplifier.bestChain budget program >>= fun _ => _) = _
    cases Amplifier.bestChain budget program with
    | error failure => rfl
    | ok chain =>
      show (Amplifier.bestFeedback budget program >>= fun _ => _) =
        (Amplifier.bestFeedback budget program >>= fun _ => _).map _
      cases Amplifier.bestFeedback budget program <;> rfl

/-! ### Reports -/

/-- The report of a day whose solver alone decides what is printed. -/
def reportOf (settings : Settings) (day : Day) : Except Failure (Answer day) → Report
  | .ok answer =>
    { printed := labelled day (words settings day answer), picture := pictureIn? day answer }
  | .error failure => { printed := [], result := .error failure }

theorem reportOf_image (settings : Settings) (checksum : ℕ) (picture : Picture) :
    reportOf settings .image (.ok (checksum, picture)) =
      { printed := toString checksum :: if settings.display then [picture.drawing] else []
        picture := some picture } := by
  rw [← labelled_image]
  rfl

/-- A chain of amplifiers has a best arrangement, but a feedback loop has none. -/
def ChainOnly (budget : ℕ) (text : String) (chain : Amplifier.Amplified) (failure : Failure) :
    Prop :=
  ∃ program, Computer.parseProgram text = .ok program ∧
    Amplifier.bestChain budget program = .ok chain ∧
    Amplifier.bestFeedback budget program = .error failure

theorem solve_of_chainOnly {chain : Amplifier.Amplified}
    (hchain : ChainOnly budget text chain failure) :
    solve budget settings text .amplifiers = .error failure := by
  obtain ⟨program, hprogram, hchain, hcircle⟩ := hchain
  rw [solve_amplifiers_of_program hprogram, hchain, hcircle]
  rfl

theorem not_chainOnly_of_solve {answer : Answer day}
    (hsolve : solve budget settings text day = .ok answer) :
    day = .amplifiers → ¬ ∃ chain failure, ChainOnly budget text chain failure := by
  rintro rfl ⟨chain, failure, hchain⟩
  rw [solve_of_chainOnly hchain] at hsolve
  cases hsolve

/-- The lines for the best arrangement of a chain. -/
def chainLines (chain : Amplifier.Amplified) : List String :=
  labelled .amplifiers [toString chain.signal, phaseList chain.phases]

theorem amplifiers_of_chainOnly {chain : Amplifier.Amplified}
    (hchain : ChainOnly budget text chain failure) :
    amplifiers budget text = { printed := chainLines chain, result := .error failure } := by
  obtain ⟨program, hprogram, hchain, hcircle⟩ := hchain
  simp only [amplifiers, hprogram, hchain, hcircle]
  rfl

/-- The amplifiers are reported as the answers of the other days are, unless there is a chain
only. -/
theorem amplifiers_eq (settings : Settings)
    (hnone : ¬ ∃ chain failure, ChainOnly budget text chain failure) :
    amplifiers budget text =
      reportOf settings .amplifiers (solve budget settings text .amplifiers) := by
  cases hprogram : Computer.parseProgram text with
  | error why =>
    simp only [amplifiers, solve, hprogram]
    rfl
  | ok program =>
    rw [solve_amplifiers_of_program hprogram]
    cases hchain : Amplifier.bestChain budget program with
    | error failure =>
      simp only [amplifiers, hprogram, hchain]
      rfl
    | ok chain =>
      cases hcircle : Amplifier.bestFeedback budget program with
      | error failure => exact absurd ⟨chain, failure, program, hprogram, hchain, hcircle⟩ hnone
      | ok circle =>
        simp only [amplifiers, hprogram, hchain, hcircle]
        rfl

/-- But for a chain of amplifiers without a feedback loop, the solver alone decides what is
reported. -/
theorem report_eq (budget : ℕ) (settings : Settings) (text : String)
    (hnone : day = .amplifiers → ¬ ∃ chain failure, ChainOnly budget text chain failure) :
    report budget settings text day = reportOf settings day (solve budget settings text day) := by
  cases day with
  | fuel =>
    rw [report, fuel, solve]
    cases Fuel.solve text <;> rfl
  | gravityAssist =>
    rw [report, gravityAssist, solve]
    cases GravityAssist.solve budget text <;> rfl
  | wires =>
    rw [report, wires, solve]
    cases Wire.solve text <;> rfl
  | passcodes =>
    rw [report, passcodes, solve]
    cases orFault (Passcode.solve text) <;> rfl
  | diagnostics =>
    rw [report, diagnostics, solve]
    cases Diagnostics.solve budget text <;> rfl
  | orbits =>
    rw [report, orbits, solve]
    rcases orFault (Chart.solve text) with failure | ⟨total, _ | transfers⟩ <;> rfl
  | amplifiers => exact amplifiers_eq settings (hnone rfl)
  | image =>
    have hsolve : checkAndFlatten settings text = solve budget settings text .image := rfl
    rw [report, image, hsolve]
    rcases solve budget settings text .image with failure | ⟨checksum, picture⟩
    · rfl
    · exact (reportOf_image settings checksum picture).symm
  | boost =>
    rw [report, boost, solve]
    cases Boost.solve budget text <;> rfl

/-! ### Runs -/

theorem ofNumber?_eq_none (hnumber : ¬ (1 ≤ number ∧ number ≤ 9)) :
    Day.ofNumber? number = none := by
  rwa [← Day.ofNumber?_isSome_iff, Bool.not_eq_true, Option.isSome_eq_false_iff,
    Option.isNone_iff_eq_none] at hnumber

/-- In any world, a number without a day is noted down and nothing else is asked for. -/
theorem run_of_unknown (hnumber : ¬ (1 ≤ number ∧ number ≤ 9)) (m : Type → Type) [Monad m]
    (w : World m) : ∃ journal, run w budget number settings = do
      w.note journal
      return Failure.because (.unknownDay number) := by
  rw [run, ofNumber?_eq_none hnumber]
  exact ⟨_, rfl⟩

theorem outcome_of_unknown (hnumber : ¬ (1 ≤ number ∧ number ≤ 9)) :
    outcome system detail budget number settings files =
      ⟨[], files, Failure.because (.unknownDay number)⟩ := by
  rw [outcome, run, ofNumber?_eq_none hnumber]
  rfl

theorem outcome_of_unreadable {why : FileTree.Fault}
    (hread : system.read files settings.input = .error why) :
    outcome system detail budget day.number settings files =
      ⟨[], files, Failure.because (.unreadable settings.input why)⟩ := by
  simp only [outcome, run, Day.ofNumber?_number, readInput, bind, StateT.bind, FileSystem.world,
    hread]
  rfl

/-- What a report leaves when it has been printed and its picture has been saved. -/
def delivered (system : FileSystem Files) (settings : Settings) (files : Files) (r : Report) :
    Outcome Files :=
  match r.picture, settings.output with
  | some picture, some path => ⟨r.printed, (system.save files path picture).1,
      (system.save files path picture).2.mapError fun why => .fault (.unsaved why)⟩
  | _, _ => ⟨r.printed, files, r.result⟩

theorem forM_print (lines : List String) (scene : Scene Files) :
    lines.forM (system.world detail).print scene =
      ((), { scene with printed := scene.printed ++ lines }) := by
  induction lines generalizing scene with
  | nil =>
    rw [List.append_nil]
    rfl
  | cons line lines ih =>
    have hcons : (line :: lines).forM (system.world detail).print scene =
        lines.forM (system.world detail).print
          { scene with printed := scene.printed ++ [line] } := rfl
    rw [hcons, ih, List.append_assoc]
    rfl

theorem deliver_eq (r : Report) (notes : Journal) :
    Outcome.of (deliver (system.world detail) settings r ⟨files, [], notes⟩) =
      delivered system settings files r := by
  simp only [deliver, bind, StateT.bind, forM_print, List.nil_append]
  rw [delivered]
  cases hpicture : r.picture with
  | none => rfl
  | some picture =>
    cases hpath : settings.output with
    | none => rfl
    | some path =>
      rcases hsave : system.save files path picture with ⟨files', why | _⟩ <;>
        simp only [FileSystem.world, StateT.bind, hsave] <;> rfl

theorem outcome_of_read (hread : system.read files settings.input = .ok text) :
    outcome system detail budget day.number settings files =
      delivered system settings files (report budget settings text day) := by
  simp only [outcome, run, Day.ofNumber?_number, readInput, bind, StateT.bind, FileSystem.world,
    hread]
  exact deliver_eq _ _

theorem delivered_of_no_picture {r : Report} (hr : r.picture = none ∨ settings.output = none) :
    delivered system settings files r = ⟨r.printed, files, r.result⟩ := by
  rw [delivered]
  rcases hr with hpicture | houtput
  · rw [hpicture]
  · rw [houtput]
    cases r.picture <;> rfl

theorem delivered_of_picture {r : Report} {picture : Picture} {path : String}
    (hpicture : r.picture = some picture) (hpath : settings.output = some path) :
    delivered system settings files r = ⟨r.printed, (system.save files path picture).1,
      (system.save files path picture).2.mapError fun why => .fault (.unsaved why)⟩ := by
  rw [delivered, hpicture, hpath]

/-- A task fails, and has printed or written something.  Either the amplifiers have a chain only, or
the picture of a layered image cannot be saved. -/
inductive PartlyDone (system : FileSystem Files) (budget : ℕ) (settings : Settings)
    (files : Files) : Day → Outcome Files → Prop
  | chainOnly {text : String} {chain : Amplifier.Amplified} {failure : Failure}
      (hread : system.read files settings.input = .ok text)
      (hchain : ChainOnly budget text chain failure) :
      PartlyDone system budget settings files .amplifiers
        ⟨chainLines chain, files, .error failure⟩
  | unsaved {text : String} {checksum : ℕ} {picture : Picture} {path : String} {why : SavingFault}
      (hread : system.read files settings.input = .ok text)
      (hsolve : solve budget settings text .image = .ok (checksum, picture))
      (hpath : settings.output = some path)
      (hsave : (system.save files path picture).2 = .error why) :
      PartlyDone system budget settings files .image
        ⟨toString checksum :: if settings.display then [picture.drawing] else [],
          (system.save files path picture).1, .error (.fault (.unsaved why))⟩

/-- The picture among the answers of a day can be saved, if there is one and a file for it. -/
def Saves (system : FileSystem Files) (settings : Settings) (files : Files) (day : Day)
    (answer : Answer day) : Prop :=
  ∀ picture path, pictureIn? day answer = some picture → settings.output = some path →
    (system.save files path picture).2 = .ok ()

/-- In either case this is how the task ends. -/
theorem PartlyDone.outcome_eq {o : Outcome Files}
    (ho : PartlyDone system budget settings files day o) :
    outcome system detail budget day.number settings files = o := by
  cases ho with
  | chainOnly hread hchain =>
    rw [outcome_of_read hread, report, amplifiers_of_chainOnly hchain]
    exact delivered_of_no_picture (.inl rfl)
  | @unsaved text checksum picture path why hread hsolve hpath hsave =>
    have hreport : report budget settings text .image =
        { printed := toString checksum :: if settings.display then [picture.drawing] else []
          picture := some picture } := by
      rw [report_eq _ _ _ (not_chainOnly_of_solve hsolve), hsolve, reportOf_image]
    rw [outcome_of_read hread, delivered_of_picture (by rw [hreport]) hpath, hreport, hsave]
    rfl

/-- The ways in which a task ends whose input can be read. -/
inductive Ends (system : FileSystem Files) (budget : ℕ) (settings : Settings) (files : Files)
    (text : String) (day : Day) : Outcome Files → Prop
  | failed {failure : Failure} (hsolve : solve budget settings text day = .error failure) :
      Ends system budget settings files text day ⟨[], files, .error failure⟩
  | partlyDone {o : Outcome Files} (ho : PartlyDone system budget settings files day o) :
      Ends system budget settings files text day o
  | answered {answer : Answer day} (hsolve : solve budget settings text day = .ok answer)
      (hnone : pictureIn? day answer = none ∨ settings.output = none) :
      Ends system budget settings files text day
        ⟨labelled day (words settings day answer), files, .ok ()⟩
  | saved {answer : Answer day} {picture : Picture} {path : String}
      (hsolve : solve budget settings text day = .ok answer)
      (hpicture : pictureIn? day answer = some picture) (hpath : settings.output = some path)
      (hsave : (system.save files path picture).2 = .ok ()) :
      Ends system budget settings files text day
        ⟨labelled day (words settings day answer), (system.save files path picture).1, .ok ()⟩

/-- A task whose input can be read ends in one of these ways. -/
theorem ends_outcome (hread : system.read files settings.input = .ok text) :
    Ends system budget settings files text day
      (outcome system detail budget day.number settings files) := by
  by_cases hchain : day = .amplifiers ∧ ∃ chain failure, ChainOnly budget text chain failure
  · obtain ⟨rfl, chain, failure, hchain⟩ := hchain
    have ho : PartlyDone system budget settings files .amplifiers _ := .chainOnly hread hchain
    rw [ho.outcome_eq]
    exact .partlyDone ho
  · have houtcome : outcome system detail budget day.number settings files =
        delivered system settings files
          (reportOf settings day (solve budget settings text day)) := by
      rw [outcome_of_read hread, report_eq budget settings text (not_and.1 hchain)]
    cases hsolve : solve budget settings text day with
    | error failure =>
      rw [houtcome, hsolve, delivered_of_no_picture (.inl rfl)]
      exact .failed hsolve
    | ok answer =>
      by_cases hnone : pictureIn? day answer = none ∨ settings.output = none
      · rw [houtcome, hsolve, delivered_of_no_picture hnone]
        exact .answered hsolve hnone
      · obtain ⟨hpicture, hpath⟩ := not_or.1 hnone
        obtain ⟨picture, hpicture⟩ := Option.ne_none_iff_exists'.1 hpicture
        obtain ⟨path, hpath⟩ := Option.ne_none_iff_exists'.1 hpath
        -- all lines are printed by now, whether the picture can be saved or not
        cases hsave : (system.save files path picture).2 with
        | ok done =>
          rw [houtcome, hsolve, delivered_of_picture hpicture hpath, hsave]
          exact .saved hsolve hpicture hpath hsave
        | error why =>
          obtain rfl := eq_image_of_pictureIn? hpicture
          obtain ⟨checksum, _⟩ := answer
          cases hpicture
          have ho : PartlyDone system budget settings files .image _ :=
            .unsaved hread hsolve hpath hsave
          rw [ho.outcome_eq]
          exact .partlyDone ho

namespace Ends

variable {o : Outcome Files}

/-- A task succeeds exactly if its solver gives answers and the picture among them can be saved. -/
theorem result_eq_ok_iff (hread : system.read files settings.input = .ok text)
    (ho : Ends system budget settings files text day o) :
    o.result = .ok () ↔
      ∃ answer, solve budget settings text day = .ok answer ∧
        Saves system settings files day answer := by
  cases ho with
  | failed hsolve => simp [hsolve]
  | partlyDone ho =>
    cases ho with
    | chainOnly hread' hchain =>
      cases hread.symm.trans hread'
      simp [solve_of_chainOnly hchain]
    | unsaved hread' hsolve hpath hsave =>
      cases hread.symm.trans hread'
      refine iff_of_false nofun ?_
      rintro ⟨answer, hanswer, hsaves⟩
      cases hsolve.symm.trans hanswer
      cases hsave.symm.trans (hsaves _ _ rfl hpath)
  | answered hsolve hnone =>
    refine iff_of_true rfl ⟨_, hsolve, fun picture path hpicture hpath => ?_⟩
    simp [hpicture, hpath] at hnone
  | saved hsolve hpicture hpath hsave =>
    refine iff_of_true rfl ⟨_, hsolve, fun picture' path' hpicture' hpath' => ?_⟩
    cases hpicture.symm.trans hpicture'
    cases hpath.symm.trans hpath'
    exact hsave

/-- A failure of the solver is the failure of the task. -/
theorem result_of_error (hread : system.read files settings.input = .ok text)
    (ho : Ends system budget settings files text day o)
    (hfailure : solve budget settings text day = .error failure) : o.result = .error failure := by
  cases ho with
  | failed hsolve =>
    cases hsolve.symm.trans hfailure
    rfl
  | partlyDone ho =>
    cases ho with
    | chainOnly hread' hchain =>
      cases hread.symm.trans hread'
      cases (solve_of_chainOnly hchain).symm.trans hfailure
      rfl
    | unsaved hread' hsolve =>
      cases hread.symm.trans hread'
      cases hsolve.symm.trans hfailure
  | answered hsolve => cases hsolve.symm.trans hfailure
  | saved hsolve => cases hsolve.symm.trans hfailure

theorem printed_of_ok {answer : Answer day} (ho : Ends system budget settings files text day o)
    (hanswer : solve budget settings text day = .ok answer) (hok : o.result = .ok ()) :
    o.printed = labelled day (words settings day answer) := by
  cases ho with
  | failed => cases hok
  | partlyDone ho => cases ho <;> cases hok
  | answered hsolve =>
    cases hsolve.symm.trans hanswer
    rfl
  | saved hsolve =>
    cases hsolve.symm.trans hanswer
    rfl

theorem of_result_eq_error (ho : Ends system budget settings files text day o)
    (hfailure : o.result = .error failure) :
    PartlyDone system budget settings files day o ∨ o.printed = [] ∧ o.files = files := by
  cases ho with
  | failed => exact .inr ⟨rfl, rfl⟩
  | partlyDone ho => exact .inl ho
  | answered => cases hfailure
  | saved => cases hfailure

/-- Nothing is written but the picture of a layered image. -/
theorem of_files_ne (ho : Ends system budget settings files text day o) (hne : o.files ≠ files) :
    day = .image ∧ ∃ path picture, settings.output = some path ∧
      o.files = (system.save files path picture).1 := by
  cases ho with
  | failed => exact absurd rfl hne
  | partlyDone ho =>
    cases ho with
    | chainOnly => exact absurd rfl hne
    | unsaved hread hsolve hpath hsave => exact ⟨rfl, _, _, hpath, rfl⟩
  | answered => exact absurd rfl hne
  | saved hsolve hpicture hpath =>
    exact ⟨eq_image_of_pictureIn? hpicture, _, _, hpath, rfl⟩

end Ends

/-- A file tree with one file, which is in the working directory. -/
def desk (text : String) : FileTree :=
  ⟨["ship"], [(["ship", "input"], .file text.toUTF8)]⟩

theorem readText_desk (text : String) : (desk text).readText "./input" = .ok text := by
  have hpath : FileTree.Path.parse "./input" = .ok ⟨false, [".", "input"], false⟩ := by
    decide +kernel
  exact FileTree.readText_of_read (FileTree.read_of_resolve hpath rfl rfl)

/-- The file is found from the root too, and on a way that leaves the working directory. -/
theorem readText_desk_from_root (text : String) :
    (desk text).readText "/ship/.././ship/input" = .ok text := by
  have hpath : FileTree.Path.parse "/ship/.././ship/input" =
      .ok ⟨true, ["ship", "..", ".", "ship", "input"], false⟩ := by
    decide +kernel
  exact FileTree.readText_of_read (FileTree.read_of_resolve hpath rfl rfl)

/-- Show a picture of one white pixel, and save it in a file whose name asks for no format. -/
def unsavable : Settings where
  output := some "./out"
  width := 1
  height := 1
  display := true

theorem partlyDone_desk :
    PartlyDone FileTree.system 0 unsavable (desk "1\n") .image
      ⟨["0", "#"], (desk "1\n").put ["ship", "out"] (.file .empty),
        .error (.fault (.unsaved Png.noFormat))⟩ := by
  have hslot : (desk "1\n").slot "./out" = .ok ["ship", "out"] := by
    have hpath : FileTree.Path.parse "./out" = .ok ⟨false, [".", "out"], false⟩ := by
      decide +kernel
    rw [FileTree.slot, hpath]
    rfl
  have hname : Png.checkName "./out" = .error Png.noFormat := by decide +kernel
  have hsave : FileTree.system.save (desk "1\n") "./out" ⟨1, 1, #[.white]⟩ =
      ((desk "1\n").put ["ship", "out"] (.file .empty), .error Png.noFormat) := by
    simp only [FileTree.system_save, hslot, hname]
  have hsolve : solve 0 unsavable "1\n" .image = .ok (0, ⟨1, 1, #[.white]⟩) := by
    show checkAndFlatten _ _ = .ok (0, ⟨1, 1, #[.white]⟩)
    decide +kernel
  have hlines : (toString 0 :: if true then [Picture.drawing ⟨1, 1, #[.white]⟩] else []) =
      ["0", "#"] := by
    decide +kernel
  have hfiles : (FileTree.system.save (desk "1\n") "./out" ⟨1, 1, #[.white]⟩).1 =
      (desk "1\n").put ["ship", "out"] (.file .empty) := congrArg Prod.fst hsave
  rw [← hlines, ← hfiles]
  exact .unsaved (readText_desk _) hsolve rfl (congrArg Prod.snd hsave)

/-- A task fails since a picture cannot be saved, and its file is there all the same. -/
theorem file_of_unsaved_picture :
    (desk "1\n").find? ["ship", "out"] = none ∧
      (outcome FileTree.system none 0 8 unsavable (desk "1\n")).result =
        .error (.fault (.unsaved Png.noFormat)) ∧
      (outcome FileTree.system none 0 8 unsavable (desk "1\n")).files.find? ["ship", "out"] =
        some (.file .empty) := by
  have hnone : (desk "1\n").find? ["ship", "out"] = none := rfl
  have houtcome : outcome FileTree.system none 0 8 unsavable (desk "1\n") = _ :=
    partlyDone_desk.outcome_eq
  rw [houtcome]
  refine ⟨hnone, rfl, FileTree.find?_put_self ?_⟩
  rw [hnone]
  exact nofun

/-- **A task prints the answers of its solver, and leaves nothing behind if it fails**, unless it is
partly done: then a chain has been printed, or saving the picture has left what it leaves. -/
theorem run_answers (system : FileSystem Files) (detail : Option Level) (budget number : ℕ)
    (settings : Settings) (files : Files) :
    (¬ (1 ≤ number ∧ number ≤ 9) →
      (∀ (m : Type → Type) [Monad m] (w : World m), ∃ journal, run w budget number settings = do
        w.note journal
        return Failure.because (.unknownDay number)) ∧
      outcome system detail budget number settings files =
        ⟨[], files, Failure.because (.unknownDay number)⟩) ∧
    (1 ≤ number ∧ number ≤ 9 → ∃ day : Day, day.number = number ∧
      (∀ why, system.read files settings.input = .error why →
        outcome system detail budget number settings files =
          ⟨[], files, Failure.because (.unreadable settings.input why)⟩) ∧
      (∀ text, system.read files settings.input = .ok text →
        ((outcome system detail budget number settings files).result = .ok () ↔
          ∃ answer, solve budget settings text day = .ok answer ∧
            Saves system settings files day answer) ∧
        (∀ failure, solve budget settings text day = .error failure →
          (outcome system detail budget number settings files).result = .error failure) ∧
        (∀ answer, solve budget settings text day = .ok answer →
          (outcome system detail budget number settings files).result = .ok () →
          (outcome system detail budget number settings files).printed =
            labelled day (words settings day answer))) ∧
      (∀ o, PartlyDone system budget settings files day o →
        outcome system detail budget number settings files = o) ∧
      (∀ failure, (outcome system detail budget number settings files).result = .error failure →
        PartlyDone system budget settings files day
          (outcome system detail budget number settings files) ∨
        (outcome system detail budget number settings files).printed = [] ∧
          (outcome system detail budget number settings files).files = files) ∧
      ((outcome system detail budget number settings files).files ≠ files →
        day = .image ∧ ∃ path picture, settings.output = some path ∧
          (outcome system detail budget number settings files).files =
            (system.save files path picture).1)) ∧
    (∀ text, Amplifier.solve budget text = (solve budget settings text .amplifiers).map
      fun (chain, circle) => (chain.signal, circle.signal)) := by
  refine ⟨fun hnumber => ⟨run_of_unknown hnumber, outcome_of_unknown hnumber⟩, fun hnumber => ?_,
    solve_amplifiers budget settings⟩
  obtain ⟨day, rfl⟩ := Day.exists_number_eq hnumber
  refine ⟨day, rfl, fun why => outcome_of_unreadable, fun text hread => ?_,
    fun o ho => ho.outcome_eq, ?_⟩
  · have hends : Ends system budget settings files text day
        (outcome system detail budget day.number settings files) := ends_outcome hread
    exact ⟨hends.result_eq_ok_iff hread, fun failure => hends.result_of_error hread,
      fun answer => hends.printed_of_ok⟩
  · cases hread : system.read files settings.input with
    | error why =>
      rw [outcome_of_unreadable hread]
      exact ⟨fun _ _ => .inr ⟨rfl, rfl⟩, fun hne => absurd rfl hne⟩
    | ok text =>
      have hends : Ends system budget settings files text day
          (outcome system detail budget day.number settings files) := ends_outcome hread
      exact ⟨fun failure => hends.of_result_eq_error, hends.of_files_ne⟩

/-- A chart without the two ends of a transfer, a picture that is not saved, and a number without a
day. -/
theorem run_answers_desk :
    outcome FileTree.system (some .trace) 0 6 { input := "/ship/.././ship/input" }
        (desk "A)B\nB)C") =
      ⟨["TOTAL ORBIT LENGTH : 3"], desk "A)B\nB)C", .ok ()⟩ ∧
    outcome FileTree.system none 0 8 unsavable (desk "1\n") =
      ⟨["0", "#"], (desk "1\n").put ["ship", "out"] (.file .empty),
        .error (.fault (.unsaved Png.noFormat))⟩ ∧
    outcome FileTree.system none 0 10 {} (desk "") =
      ⟨[], desk "", Failure.because (.unknownDay 10)⟩ := by
  refine ⟨?_, ?_, ((run_answers FileTree.system none 0 10 {} (desk "")).1 (by decide)).2⟩
  · obtain ⟨day, hday, -, hread, -, -, hfiles⟩ :=
      (run_answers FileTree.system (some .trace) 0 6 { input := "/ship/.././ship/input" }
        (desk "A)B\nB)C")).2.1 (by decide)
    obtain rfl : day = .orbits := Day.number_injective hday
    have hsolve : solve 0 { input := "/ship/.././ship/input" } "A)B\nB)C" .orbits =
        .ok (3, none) := by
      show orFault (Chart.solve "A)B\nB)C") = .ok (3, none)
      decide +kernel
    obtain ⟨hok, -, hprinted⟩ := hread _ (readText_desk_from_root _)
    have hresult := hok.2 ⟨_, hsolve, nofun⟩
    have hlines : labelled .orbits (words { input := "/ship/.././ship/input" } .orbits (3, none)) =
        ["TOTAL ORBIT LENGTH : 3"] := by
      decide +kernel
    generalize outcome FileTree.system (some .trace) 0 6 _ (desk "A)B\nB)C") = o at *
    have hsame : o.files = desk "A)B\nB)C" := by
      by_contra hne
      cases (hfiles hne).1
    calc o = ⟨o.printed, o.files, o.result⟩ := rfl
      _ = ⟨["TOTAL ORBIT LENGTH : 3"], desk "A)B\nB)C", .ok ()⟩ := by
        rw [hprinted _ hsolve hresult, hlines, hsame, hresult]
  · obtain ⟨day, hday, -, -, hpartly, -, -⟩ :=
      (run_answers FileTree.system none 0 8 unsavable (desk "1\n")).2.1 (by decide)
    obtain rfl : day = .image := Day.number_injective hday
    exact hpartly _ partlyDone_desk

end Task

end Shipboard
