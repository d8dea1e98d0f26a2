import Mathlib.Tactic
import Shipboard.Proofs.Orbit.Cycle
import Shipboard.Proofs.Text.Lines

/-!
# The names on a chart

What is on a chart can be told from the lines of its text: the names in the order in which they are
first met, and for each of them the centre of its first orbit.

* `Orbit.Malformed line`: the line is not blank, and it is not in the form of an orbit;
  `Orbit.parseAll_eq_error_iff` says that the first such line of a text is reported;
* `Chart.names_ofOrbits`: the names of a chart are what the orbits mention, less repetitions;
* `Chart.place_of_name?`: names and places determine each other;
* `Chart.Shows.head?_ancestors`: the first ancestor of a body is the centre of its first orbit;
* `Chart.names_of_parse`: all of this for a text.
-/

namespace Shipboard

namespace Orbit

variable {line : List Char} {i j : ℕ} {text : String} {orbits : List Orbit} {fault : Fault}

/-! ### Lines that are no orbits -/

/-- Something is on a line, but without a closing parenthesis, or with nothing on one side of the
first closing parenthesis. -/
def Malformed (line : List Char) : Prop :=
  Text.trim line ≠ [] ∧ (')' ∉ Text.trim line ∨ ∃ centre body,
    Text.trim line = centre ++ ')' :: body ∧ ')' ∉ centre ∧ (centre = [] ∨ body = []))

/-- The malformed lines are those that are neither blank nor in the form of an orbit. -/
theorem malformed_iff : Malformed line ↔ Text.trim line ≠ [] ∧ ¬ ∃ orbit, Writes line orbit := by
  refine and_congr_right fun _ => ⟨?_, fun hform => ?_⟩
  · rintro hbad ⟨orbit, centre, body, htext, hnot, hcentre, hbody, -⟩
    rcases hbad with hnone | ⟨centre', body', htext', hnot', hempty⟩
    · simp [htext] at hnone
    · -- a text has one first closing parenthesis only
      have hsplit := (Text.splitOnce_eq_some_iff.2 ⟨htext, hnot⟩).symm.trans
        (Text.splitOnce_eq_some_iff.2 ⟨htext', hnot'⟩)
      obtain ⟨rfl, rfl⟩ := Prod.mk.inj (Option.some.inj hsplit)
      exact hempty.elim hcentre hbody
  · by_cases hmem : ')' ∈ Text.trim line
    · obtain ⟨centre, body, htext, hnot⟩ := List.eq_append_cons_of_mem hmem
      refine .inr ⟨centre, body, htext, hnot, ?_⟩
      by_contra! hparts
      exact hform ⟨_, centre, body, htext, hnot, hparts.1, hparts.2, rfl⟩
    · exact .inl hmem

/-- The first malformed line stands at a place, counted from zero. -/
structure FirstMalformed (lines : List (List Char)) (i : ℕ) (line : List Char) : Prop where
  getElem?_eq : lines[i]? = some line
  malformed : Malformed line
  not_malformed_of_lt : ∀ j < i, ∀ other, lines[j]? = some other → ¬ Malformed other

theorem FirstMalformed.unique {lines : List (List Char)} {other : List Char}
    (h : FirstMalformed lines i line) (h' : FirstMalformed lines j other) :
    i = j ∧ line = other := by
  rcases Nat.lt_trichotomy i j with hlt | rfl | hgt
  · exact (h'.not_malformed_of_lt i hlt line h.getElem?_eq h.malformed).elim
  · exact ⟨rfl, Option.some.inj (h.getElem?_eq.symm.trans h'.getElem?_eq)⟩
  · exact (h.not_malformed_of_lt j hgt other h'.getElem?_eq h'.malformed).elim

/-- The orbits of a text are those that are written on its lines, blank lines apart. -/
theorem parseAll_eq_ok_iff_entries :
    parseAll text = .ok orbits ↔ List.Forall₂ Writes (Text.entries text.toList) orbits := by
  rw [parseAll_eq_ok_iff, Text.entries_eq_map_numberedLines, List.forall₂_map_left_iff]
  simp only [Writes, Text.trim_trim]

theorem firstMalformed_of_parseAll (h : parseAll text = .error fault) :
    ∃ i line, FirstMalformed (Text.lines text.toList) i line ∧
      fault = .misread (i + 1) (.orbit (String.ofList (Text.trim line))) := by
  obtain ⟨front, ⟨line, n⟩, behind, hlines, hfront, hline⟩ := mapM_eq_error_iff.1 h
  obtain ⟨hform, rfl⟩ := parseLine_eq_error_iff.1 hline
  have hmem : (line, n) ∈ Text.numberedLines text.toList := by simp [hlines]
  obtain ⟨i, hi, hblank, rfl⟩ := Text.mem_numberedLines_iff.1 hmem
  refine ⟨i, line, ⟨hi, malformed_iff.2 ⟨hblank, hform⟩, fun j hj other hother hbad => ?_⟩, rfl⟩
  -- an earlier line stands in front, where all lines are read
  obtain ⟨hblank', hform'⟩ := malformed_iff.1 hbad
  have hearlier : (other, j + 1) ∈ front ++ (line, i + 1) :: behind := by
    rw [← hlines]
    exact Text.mem_numberedLines_iff.2 ⟨j, hother, hblank', rfl⟩
  have horder := Text.pairwise_numberedLines text.toList
  rw [hlines] at horder
  rcases List.mem_append.1 hearlier with hmem | hmem
  · obtain ⟨orbit, horbit⟩ := hfront _ hmem
    exact hform' ⟨orbit, parseLine_eq_ok_iff.1 horbit⟩
  · rcases List.mem_cons.1 hmem with heq | hmem
    · obtain ⟨-, hsame⟩ := Prod.mk.inj heq
      omega
    · have hlater := (List.pairwise_cons.1 (List.pairwise_append.1 horder).2.1).1 _ hmem
      simp only at hlater
      omega

/-- No line of a text that is read is malformed. -/
theorem not_malformed_of_parseAll (h : parseAll text = .ok orbits) :
    ∀ line ∈ Text.lines text.toList, ¬ Malformed line := by
  intro line hline hbad
  obtain ⟨hblank, hform⟩ := malformed_iff.1 hbad
  obtain ⟨i, hi⟩ := List.mem_iff_getElem?.1 hline
  have hmem : (line, i + 1) ∈ Text.numberedLines text.toList :=
    Text.mem_numberedLines_iff.2 ⟨i, hi, hblank, rfl⟩
  obtain ⟨orbit, -, horbit⟩ := exists_ok_of_mapM h hmem
  exact hform ⟨orbit, parseLine_eq_ok_iff.1 horbit⟩

/-- **The first malformed line is reported.** -/
theorem parseAll_eq_error_iff :
    parseAll text = .error fault ↔
      ∃ i line, FirstMalformed (Text.lines text.toList) i line ∧
        fault = .misread (i + 1) (.orbit (String.ofList (Text.trim line))) := by
  refine ⟨firstMalformed_of_parseAll, ?_⟩
  rintro ⟨i, line, hfirst, rfl⟩
  cases hread : parseAll text with
  | error fault =>
    obtain ⟨j, other, hfirst', rfl⟩ := firstMalformed_of_parseAll hread
    obtain ⟨rfl, rfl⟩ := hfirst.unique hfirst'
    rfl
  | ok orbits =>
    have hmem := List.mem_of_getElem? hfirst.getElem?_eq
    exact (not_malformed_of_parseAll hread line hmem hfirst.malformed).elim

/-- A text is read if and only if none of its lines is malformed. -/
theorem exists_parseAll_eq_ok_iff :
    (∃ orbits, parseAll text = .ok orbits) ↔
      ∀ line ∈ Text.lines text.toList, ¬ Malformed line := by
  refine ⟨fun ⟨orbits, hread⟩ => not_malformed_of_parseAll hread, fun h => ?_⟩
  cases hread : parseAll text with
  | ok orbits => exact ⟨orbits, rfl⟩
  | error fault =>
    obtain ⟨i, line, hfirst, -⟩ := parseAll_eq_error_iff.1 hread
    exact (h line (List.mem_of_getElem? hfirst.getElem?_eq) hfirst.malformed).elim

/-- The names that an orbit mentions, in the order in which they are written. -/
def mentions (orbit : Orbit) : List String :=
  [orbit.centre, orbit.body]

theorem centreOf_eq_none_iff {name : String} :
    centreOf orbits name = none ↔ ∀ orbit ∈ orbits, orbit.body ≠ name := by
  simp [centreOf]

end Orbit

namespace Chart

variable {c : Chart} {orbits : List Orbit} {orbit : Orbit} {name : String} {i : ℕ}

/-! ### Names in order -/

theorem eraseDups_concat {α : Type} [DecidableEq α] (xs : List α) (x : α) :
    (xs ++ [x]).eraseDups = if x ∈ xs then xs.eraseDups else xs.eraseDups ++ [x] := by
  rw [List.eraseDups_append]
  by_cases h : x ∈ xs <;> simp [List.removeAll, List.eraseDups_cons, h]

theorem names_enter_of_eraseDups {names : List String} (h : c.names = names.eraseDups) :
    (c.enter name).1.names = (names ++ [name]).eraseDups := by
  simp only [names_enter, eraseDups_concat, h, List.mem_eraseDups]

/-- **The names of a chart are what its orbits mention, each where it is met first.** -/
theorem names_ofOrbits (orbits : List Orbit) :
    (ofOrbits orbits).names = (orbits.flatMap Orbit.mentions).eraseDups := by
  induction orbits using List.reverseRecOn with
  | nil => rfl
  | append_singleton orbits orbit ih =>
    have hmentions : (orbits ++ [orbit]).flatMap Orbit.mentions =
        orbits.flatMap Orbit.mentions ++ [orbit.centre] ++ [orbit.body] := by
      simp [Orbit.mentions]
    rw [hmentions, ofOrbits, List.foldl_append]
    change (((ofOrbits orbits).record orbit).names = _)
    rw [record, names_attach]
    exact names_enter_of_eraseDups (names_enter_of_eraseDups ih)

/-! ### Names and places -/

/-- A name is looked up at the place where it is. -/
theorem place_eq_ok_of_name? (hnodup : c.names.Nodup) (h : c.name? i = some name) :
    c.place name = .ok i := by
  rw [name?_eq] at h
  obtain ⟨place, hplace, hname⟩ := exists_place_eq_ok (List.mem_of_getElem? h)
  have hlt := (List.getElem?_eq_some_iff.1 h).1
  rw [hplace, (List.getElem?_inj hlt hnodup).1 (h.trans hname.symm)]

theorem lt_size_of_name? (h : c.name? i = some name) : i < c.size := by
  rw [name?_eq] at h
  rw [size_eq]
  exact (List.getElem?_eq_some_iff.1 h).1

theorem exists_name?_of_lt (h : i < c.size) : ∃ name, c.name? i = some name := by
  rw [size_eq] at h
  exact ⟨c.names[i], by rw [name?_eq, List.getElem?_eq_getElem h]⟩

/-! ### The first ancestor -/

theorem head?_ancestors (h : i < c.size) : (c.ancestors i).head? = c.centre? i := by
  obtain ⟨n, hn⟩ := Nat.exists_eq_succ_of_ne_zero (Nat.ne_zero_of_lt h)
  rw [ancestors, hn, inwards]
  cases c.centre? i <;> rfl

/-- The first ancestor of a body is the centre of its first orbit. -/
theorem Shows.head?_ancestors (h : c.Shows orbits) (hname : c.name? i = some name) :
    (c.ancestors i).head? = (Orbit.centreOf orbits name).map c.names.idxOf := by
  have hlt := lt_size_of_name? hname
  rw [name?_eq] at hname
  rw [Chart.head?_ancestors hlt, h.linked, hname, Option.bind_some]

theorem Shows.name?_head?_ancestors (h : c.Shows orbits) (hname : c.name? i = some name) :
    (c.ancestors i).head?.bind c.name? = Orbit.centreOf orbits name := by
  rw [h.head?_ancestors hname]
  cases hcentre : Orbit.centreOf orbits name with
  | none => rfl
  | some centre =>
    have hmem := (h.mem_names centre).2 (Orbit.named_of_centreOf hcentre).2
    rw [Option.map_some, Option.bind_some, name?_eq, List.getElem?_idxOf hmem]

/-! ### Reading -/

theorem parse_eq_misread_iff {text : String} {n : ℕ} {why : Misreading} :
    parse text = .error (.misread n why) ↔
      ∃ i line, Orbit.FirstMalformed (Text.lines text.toList) i line ∧ n = i + 1 ∧
        why = .orbit (String.ofList (Text.trim line)) := by
  have hparse : parse text = .error (.misread n why) ↔
      Orbit.parseAll text = .error (.misread n why) := by
    cases hread : Orbit.parseAll text with
    | error fault => simp [parse, hread, bind, Except.bind]
    | ok orbits =>
      rw [parse_eq_of_parseAll hread]
      cases (ofOrbits orbits).firstEndless? <;> simp
  simp only [hparse, Orbit.parseAll_eq_error_iff, Fault.misread.injEq]

/-- Something is misread exactly if a line is malformed. -/
theorem exists_parse_eq_misread_iff {text : String} :
    (∃ n why, parse text = .error (.misread n why)) ↔
      ∃ line ∈ Text.lines text.toList, Orbit.Malformed line := by
  constructor
  · rintro ⟨n, why, hparse⟩
    obtain ⟨i, line, hfirst, -, -⟩ := parse_eq_misread_iff.1 hparse
    exact ⟨line, List.mem_of_getElem? hfirst.getElem?_eq, hfirst.malformed⟩
  · rintro ⟨line, hline, hbad⟩
    cases hread : Orbit.parseAll text with
    | ok orbits => exact (Orbit.not_malformed_of_parseAll hread line hline hbad).elim
    | error fault =>
      obtain ⟨i, first, hfirst, -⟩ := Orbit.parseAll_eq_error_iff.1 hread
      exact ⟨_, _, parse_eq_misread_iff.2 ⟨i, first, hfirst, rfl, rfl⟩⟩

/-- What has been read is a chart unless there is a cycle. -/
theorem parse_cases {text : String} (h : Orbit.parseAll text = .ok orbits) :
    (∃ name, parse text = .error (.orbitCycle name)) ∨ parse text = .ok (ofOrbits orbits) := by
  rw [parse_eq_of_parseAll h]
  cases (ofOrbits orbits).firstEndless? with
  | some body => exact .inl ⟨body.name, rfl⟩
  | none => exact .inr rfl

/-- **A chart tells the names of a text in order, and for each body its first orbit.**  Lines are
counted from one, blank ones too. -/
theorem names_of_parse (text : String) :
    ((∃ n why, parse text = .error (.misread n why)) ↔
      ∃ line ∈ Text.lines text.toList, Orbit.Malformed line) ∧
    (∀ n why, parse text = .error (.misread n why) ↔
      ∃ i line, Orbit.FirstMalformed (Text.lines text.toList) i line ∧ n = i + 1 ∧
        why = .orbit (String.ofList (Text.trim line))) ∧
    ((∀ line ∈ Text.lines text.toList, ¬ Orbit.Malformed line) →
      ∃ orbits, List.Forall₂ Orbit.Writes (Text.entries text.toList) orbits ∧
        ((∃ name, parse text = .error (.orbitCycle name)) ∨ ∃ c, parse text = .ok c) ∧
        ∀ c, parse text = .ok c →
          c.names.Nodup ∧ (∀ name, name ∈ c.names ↔ Orbit.Named orbits name) ∧
          c.names = (orbits.flatMap Orbit.mentions).eraseDups ∧
          (∀ i < c.size, ∃ name, c.name? i = some name ∧ c.place name = .ok i) ∧
          (∀ name ∈ c.names, ∃ i, c.place name = .ok i ∧ c.name? i = some name) ∧
          (∀ name, name ∉ c.names → c.place name = .error (.unknownBody name)) ∧
          (∀ i name, c.name? i = some name →
            (c.ancestors i).head?.bind c.name? = Orbit.centreOf orbits name ∧
            ((c.ancestors i).head? = none ↔ ∀ orbit ∈ orbits, orbit.body ≠ name))) := by
  refine ⟨exists_parse_eq_misread_iff, fun _ _ => parse_eq_misread_iff, fun hlines => ?_⟩
  obtain ⟨orbits, hread⟩ := Orbit.exists_parseAll_eq_ok_iff.2 hlines
  refine ⟨orbits, Orbit.parseAll_eq_ok_iff_entries.1 hread,
    (parse_cases hread).imp_right fun h => ⟨_, h⟩, fun c hc => ?_⟩
  obtain ⟨orbits', hread', -, rfl⟩ := parse_eq_ok_iff.1 hc
  obtain rfl := Except.ok.inj (hread.symm.trans hread')
  have hshows := ofOrbits_shows orbits
  refine ⟨hshows.nodup, hshows.mem_names, names_ofOrbits orbits, fun i hi => ?_,
    fun name hname => ?_, fun name hname => place_eq_error_iff.2 ⟨hname, rfl⟩,
    fun i name hname => ⟨?_, ?_⟩⟩
  · obtain ⟨name, hname⟩ := exists_name?_of_lt hi
    exact ⟨name, hname, place_eq_ok_of_name? hshows.nodup hname⟩
  · obtain ⟨i, hplace, hi⟩ := exists_place_eq_ok hname
    exact ⟨i, hplace, (name?_eq _ i).trans hi⟩
  · exact hshows.name?_head?_ancestors hname
  · rw [hshows.head?_ancestors hname, Option.map_eq_none_iff, Orbit.centreOf_eq_none_iff]

/-- A name may have a parenthesis in it, and a body that is listed again keeps its orbit.  Of two
malformed lines the first is reported, and its number counts the blank line. -/
theorem names_of_parse_parenthesis :
    (∃ c, parse "COM)A\n\n A)B)C \nB)A" = .ok c ∧ c.names = ["COM", "A", "B)C", "B"] ∧
      (c.ancestors 1).head?.bind c.name? = some "COM") ∧
    parse "A)B\n\n B-C\n)D" = .error (.misread 3 (.orbit "B-C")) := by
  constructor
  · have hread : Orbit.parseAll "COM)A\n\n A)B)C \nB)A" =
        .ok [⟨"COM", "A"⟩, ⟨"A", "B)C"⟩, ⟨"B", "A"⟩] := by decide +kernel
    obtain ⟨orbits, horbits, -, hchart⟩ :=
      (names_of_parse _).2.2 (Orbit.exists_parseAll_eq_ok_iff.1 ⟨_, hread⟩)
    obtain rfl := Except.ok.inj (hread.symm.trans (Orbit.parseAll_eq_ok_iff_entries.2 horbits))
    have hparse : parse "COM)A\n\n A)B)C \nB)A" =
        .ok ⟨#[⟨"COM", none⟩, ⟨"A", some 0⟩, ⟨"B)C", some 1⟩, ⟨"B", none⟩]⟩ := by decide +kernel
    obtain ⟨-, -, hnames, -, -, -, hfirst⟩ := hchart _ hparse
    exact ⟨_, hparse, hnames.trans (by decide +kernel), (hfirst 1 "A" rfl).1⟩
  · refine ((names_of_parse _).2.1 3 _).2 ⟨2, " B-C".toList, ⟨by decide +kernel, ?_, ?_⟩, rfl, ?_⟩
    · exact ⟨by decide +kernel, .inl (by decide +kernel)⟩
    · intro j hj other hother hbad
      obtain rfl | rfl : j = 0 ∨ j = 1 := by omega
      · have hline : (Text.lines "A)B\n\n B-C\n)D".toList)[0]? = some "A)B".toList := by
          decide +kernel
        obtain rfl := Option.some.inj (hother.symm.trans hline)
        exact (Orbit.malformed_iff.1 hbad).2
          ⟨⟨"A", "B"⟩, (@Orbit.parseLine_eq_ok_iff _ 1 _).1 (by decide +kernel)⟩
      · have hline : (Text.lines "A)B\n\n B-C\n)D".toList)[1]? = some [] := by decide +kernel
        obtain rfl := Option.some.inj (hother.symm.trans hline)
        exact hbad.1 rfl
    · decide +kernel

end Chart

end Shipboard
