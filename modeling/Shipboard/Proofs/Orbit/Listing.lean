import Mathlib.Tactic
import Shipboard.Orbit.Chart
import Shipboard.Proofs.Orbit.Lineage
import Shipboard.Proofs.Outcome

/-!
# What a chart shows

A chart is made of a list of orbits, one after the other.  Here it is tied to that list, so that
what is said about a chart can be said about names and the orbits that are listed.

* `Orbit.Writes line orbit`: the line is in the form of an orbit; `Orbit.parseLine_eq_ok_iff` and
  `Orbit.parseAll_eq_ok_iff` say that exactly the lines in this form are read;
* `Orbit.centreOf orbits body` is the centre of the first orbit of a body;
* `Chart.Shows c orbits`: the names of the chart are those that the orbits name, each once, and the
  places are linked as the first orbits say; `Chart.ofOrbits_shows` is the main result.
-/

namespace Shipboard

/-! ### Lines -/

theorem Text.splitOnce_append {sep : Char} {front behind : List Char} (h : sep ∉ front) :
    Text.splitOnce sep (front ++ sep :: behind) = some (front, behind) := by
  induction front with
  | nil => simp [Text.splitOnce]
  | cons c front ih =>
    simp only [List.mem_cons, not_or] at h
    rw [List.cons_append, Text.splitOnce, if_neg (Ne.symm h.1), ih h.2]
    rfl

/-- A text is split at the first separator. -/
theorem Text.splitOnce_eq_some_iff {sep : Char} {cs front behind : List Char} :
    Text.splitOnce sep cs = some (front, behind) ↔ cs = front ++ sep :: behind ∧ sep ∉ front := by
  constructor
  · intro h
    induction cs generalizing front with
    | nil => cases h
    | cons c cs ih =>
      rw [Text.splitOnce] at h
      split_ifs at h with hc
      · cases h
        simp [hc]
      · obtain ⟨⟨first, rest⟩, hsplit, heq⟩ := Option.map_eq_some_iff.1 h
        cases heq
        obtain ⟨rfl, hnot⟩ := ih hsplit
        simp [hnot, Ne.symm hc]
  · rintro ⟨rfl, h⟩
    exact Text.splitOnce_append h

namespace Orbit

/-- A line is in the form of an orbit: apart from the blanks around it, it is the name of the
centre, the first closing parenthesis and the name of the body. -/
def Writes (line : List Char) (orbit : Orbit) : Prop :=
  ∃ centre body, Text.trim line = centre ++ ')' :: body ∧ ')' ∉ centre ∧ centre ≠ [] ∧
    body ≠ [] ∧ orbit = ⟨String.ofList centre, String.ofList body⟩

/-- The lines in the form of an orbit are read. -/
theorem parseLine_eq_ok_iff {line : List Char} {number : ℕ} {orbit : Orbit} :
    parseLine line number = .ok orbit ↔ Writes line orbit := by
  constructor
  · intro h
    unfold parseLine at h
    dsimp only at h
    split at h
    · next c cs b bs hsplit =>
      cases h
      obtain ⟨htext, hnot⟩ := Text.splitOnce_eq_some_iff.1 hsplit
      exact ⟨c :: cs, b :: bs, htext, hnot, by simp, by simp, rfl⟩
    · cases h
  · rintro ⟨centre, body, htext, hnot, hcentre, hbody, rfl⟩
    obtain ⟨c, cs, rfl⟩ := List.exists_cons_of_ne_nil hcentre
    obtain ⟨b, bs, rfl⟩ := List.exists_cons_of_ne_nil hbody
    simp only [parseLine, htext, Text.splitOnce_append hnot]

/-- The other lines are reported. -/
theorem parseLine_eq_error_iff {line : List Char} {number : ℕ} {fault : Fault} :
    parseLine line number = .error fault ↔
      (¬ ∃ orbit, Writes line orbit) ∧
        fault = .misread number (.orbit (String.ofList (Text.trim line))) := by
  simp only [← @parseLine_eq_ok_iff line number]
  unfold parseLine
  dsimp only
  split <;> simp [eq_comm]

/-- The orbits of a text are those that its lines write, if all of them write one. -/
theorem parseAll_eq_ok_iff {text : String} {orbits : List Orbit} :
    parseAll text = .ok orbits ↔
      List.Forall₂ (fun line orbit => Writes line.1 orbit) (Text.numberedLines text.toList)
        orbits := by
  simp only [parseAll, mapM_eq_ok_iff, parseLine_eq_ok_iff]

/-- If the orbits of a text are not read, there is a line in another form, and it is reported. -/
theorem exists_line_of_parseAll_eq_error {text : String} {fault : Fault}
    (h : parseAll text = .error fault) :
    ∃ line ∈ Text.numberedLines text.toList, (¬ ∃ orbit, Writes line.1 orbit) ∧
      fault = .misread line.2 (.orbit (String.ofList (Text.trim line.1))) := by
  obtain ⟨front, line, behind, hlines, -, hline⟩ := mapM_eq_error_iff.1 h
  exact ⟨line, by simp [hlines], parseLine_eq_error_iff.1 hline⟩

/-! ### The first orbit of a body -/

/-- The centre of the first listed orbit of a body. -/
def centreOf (orbits : List Orbit) (body : String) : Option String :=
  (orbits.find? fun orbit => orbit.body == body).map Orbit.centre

/-- A name that some orbits mention. -/
def Named (orbits : List Orbit) (name : String) : Prop :=
  ∃ orbit ∈ orbits, name = orbit.centre ∨ name = orbit.body

variable {orbits : List Orbit} {orbit : Orbit} {name body centre : String}

theorem named_append_singleton :
    Named (orbits ++ [orbit]) name ↔
      Named orbits name ∨ name = orbit.centre ∨ name = orbit.body := by
  simp only [Named, List.mem_append, List.mem_singleton, or_and_right, exists_or, exists_eq_left]

/-- An orbit that is listed last counts only if its body has none yet. -/
theorem centreOf_append_singleton :
    centreOf (orbits ++ [orbit]) body =
      (centreOf orbits body).or (if orbit.body = body then some orbit.centre else none) := by
  unfold centreOf
  rw [List.find?_append]
  cases orbits.find? fun orbit => orbit.body == body with
  | some _ => rfl
  | none => by_cases h : orbit.body = body <;> simp [h]

theorem named_of_centreOf (h : centreOf orbits body = some centre) :
    Named orbits body ∧ Named orbits centre := by
  obtain ⟨orbit, hfind, rfl⟩ := Option.map_eq_some_iff.1 h
  have hmem := List.mem_of_find?_eq_some hfind
  have hbody := List.find?_some hfind
  simp only [beq_iff_eq] at hbody
  exact ⟨⟨orbit, hmem, .inr hbody.symm⟩, ⟨orbit, hmem, .inl rfl⟩⟩

end Orbit

namespace Chart

/-! ### Names and places -/

theorem name?_eq (c : Chart) (place : ℕ) : c.name? place = c.names[place]? := by
  simp [name?, names]

theorem size_eq (c : Chart) : c.size = c.names.length := by
  simp [size, names]

theorem place?_eq (c : Chart) (name : String) : c.place? name = c.names.idxOf? name := by
  rw [place?, names, List.idxOf?, List.findIdx?_map, ← List.findIdx?_toArray]
  rfl

/-- The name at a place; a place beyond the last has the empty name. -/
def nameAt (c : Chart) (place : ℕ) : String :=
  (c.name? place).getD ""

theorem place_eq_ok_iff {c : Chart} {name : String} {place : ℕ} :
    c.place name = .ok place ↔ c.names.idxOf? name = some place := by
  rw [Chart.place, place?_eq]
  split <;> simp [*]

theorem place_eq_error_iff {c : Chart} {name : String} {fault : Fault} :
    c.place name = .error fault ↔ name ∉ c.names ∧ fault = .unknownBody name := by
  rw [Chart.place, place?_eq, ← List.idxOf?_eq_none_iff]
  split <;> simp [*, eq_comm]

/-- A name on a chart has a place. -/
theorem exists_place_eq_ok {c : Chart} {name : String} (h : name ∈ c.names) :
    ∃ place, c.place name = .ok place ∧ c.names[place]? = some name := by
  cases hplace : c.place name with
  | error fault => exact ((place_eq_error_iff.1 hplace).1 h).elim
  | ok place =>
    obtain ⟨hlt, hname, -⟩ := List.idxOf?_eq_some_iff.1 (place_eq_ok_iff.1 hplace)
    exact ⟨place, rfl, List.getElem?_eq_some_iff.2 ⟨hlt, hname⟩⟩

variable {c : Chart} {orbits : List Orbit} {orbit : Orbit} {name : String} {p q : ℕ}

/-! ### Making a chart -/

theorem names_enter :
    (c.enter name).1.names = if name ∈ c.names then c.names else c.names ++ [name] := by
  unfold enter
  split
  · next place h =>
    rw [place?_eq] at h
    rw [if_pos]
    by_contra hnot
    rw [List.idxOf?_eq_none_iff.2 hnot] at h
    cases h
  · next h =>
    rw [place?_eq, List.idxOf?_eq_none_iff] at h
    rw [if_neg h]
    simp [names]

theorem mem_names_enter {other : String} :
    other ∈ (c.enter name).1.names ↔ other ∈ c.names ∨ other = name := by
  rw [names_enter]
  split_ifs with h
  · constructor
    · exact .inl
    · rintro (hother | rfl)
      · exact hother
      · exact h
  · simp

theorem nodup_names_enter (h : c.names.Nodup) : (c.enter name).1.names.Nodup := by
  rw [names_enter]
  split_ifs with hname
  · exact h
  · refine List.nodup_append.2 ⟨h, List.nodup_singleton name, fun other hother _ hsame => ?_⟩
    rw [List.mem_singleton.1 hsame]
    rintro rfl
    exact hname hother

theorem getElem?_enter : (c.enter name).1.names[(c.enter name).2]? = some name := by
  unfold enter
  split
  · next place h =>
    rw [place?_eq, List.idxOf?_eq_some_iff] at h
    obtain ⟨hlt, hname, -⟩ := h
    rw [List.getElem?_eq_getElem hlt, hname]
  · simp [names, size]

/-- Names keep their places. -/
theorem getElem?_enter_of_eq {other : String} (h : c.names[p]? = some other) :
    (c.enter name).1.names[p]? = some other := by
  rw [names_enter]
  split_ifs
  · exact h
  · exact List.getElem?_append_left (List.getElem?_eq_some_iff.1 h).1 ▸ h

/-- Entering a name links no places. -/
theorem centre?_enter : (c.enter name).1.centre? p = c.centre? p := by
  unfold enter
  split
  · rfl
  · simp only [centre?, Array.getElem?_push]
    split_ifs with hp
    · simp [hp]
    · rfl

theorem names_attach {body centre : ℕ} : (c.attach body centre).names = c.names := by
  refine List.ext_getElem? fun i => ?_
  simp only [← name?_eq, name?, attach, Array.getElem?_modify]
  split_ifs
  · cases c.bodies[i]? <;> rfl
  · rfl

/-- A body that orbits another already keeps its orbit. -/
theorem centre?_attach {body centre : ℕ} (h : body < c.size) :
    (c.attach body centre).centre? p =
      if p = body then some ((c.centre? p).getD centre) else c.centre? p := by
  simp only [centre?, attach, Array.getElem?_modify]
  by_cases hp : p = body
  · subst hp
    have hlt : p < c.bodies.size := h
    rw [if_pos rfl, if_pos rfl, Array.getElem?_eq_getElem hlt]
    cases hcentre : c.bodies[p].centre <;> simp [hcentre]
  · rw [if_neg (Ne.symm hp), if_neg hp]

/-- Each place is linked to the place of the centre that the first of some orbits gives. -/
def Linked (c : Chart) (orbits : List Orbit) : Prop :=
  ∀ p, c.centre? p = (c.names[p]?.bind (Orbit.centreOf orbits)).map c.names.idxOf

/-- The names of a chart are those that some orbits mention, each once, and its places are linked as
the first orbits say. -/
structure Shows (c : Chart) (orbits : List Orbit) : Prop where
  nodup : c.names.Nodup
  mem_names : ∀ name, name ∈ c.names ↔ Orbit.Named orbits name
  linked : c.Linked orbits

/-- A new name is that of a body of which no orbit is known. -/
theorem Linked.enter (h : c.Linked orbits)
    (hnamed : ∀ name, Orbit.Named orbits name → name ∈ c.names) :
    (c.enter name).1.Linked orbits := by
  intro p
  rw [centre?_enter, h p, names_enter]
  split_ifs with hname
  · rfl
  · rcases Nat.lt_trichotomy p c.names.length with hlt | rfl | hgt
    · rw [List.getElem?_append_left hlt]
      cases hcentre : c.names[p]?.bind (Orbit.centreOf orbits) with
      | none => rfl
      | some centre =>
        obtain ⟨body, -, hbody⟩ := Option.bind_eq_some_iff.1 hcentre
        have hmem := hnamed centre (Orbit.named_of_centreOf hbody).2
        simp [List.idxOf_append, hmem]
    · -- the place of the new name
      cases hcentre : Orbit.centreOf orbits name with
      | none => simp [hcentre]
      | some centre => exact (hname (hnamed name (Orbit.named_of_centreOf hcentre).1)).elim
    · rw [List.getElem?_eq_none hgt.le, List.getElem?_eq_none (by simpa using hgt)]
      rfl

theorem idxOf_eq_of_nodup (h : c.names.Nodup) (hp : c.names[p]? = some name) :
    c.names.idxOf name = p := by
  obtain ⟨hlt, rfl⟩ := List.getElem?_eq_some_iff.1 hp
  exact h.idxOf_getElem p hlt

/-- A link from a place that has none yet is that of an orbit listed last. -/
theorem Linked.attach (h : c.Linked orbits) (hnodup : c.names.Nodup)
    (hp : c.names[p]? = some orbit.body) (hq : c.names[q]? = some orbit.centre) :
    (c.attach p q).Linked (orbits ++ [orbit]) := by
  intro r
  have hlt : p < c.size := by
    rw [size_eq]
    exact (List.getElem?_eq_some_iff.1 hp).1
  rw [centre?_attach hlt, names_attach, h r]
  split_ifs with hr
  · subst hr
    simp only [hp, Option.bind_some, Orbit.centreOf_append_singleton]
    cases Orbit.centreOf orbits orbit.body with
    | none => simp [idxOf_eq_of_nodup hnodup hq]
    | some centre => rfl
  · cases hname : c.names[r]? with
    | none => rfl
    | some name =>
      have hne : orbit.body ≠ name := by
        rintro rfl
        exact hr ((idxOf_eq_of_nodup hnodup hname).symm.trans (idxOf_eq_of_nodup hnodup hp))
      simp [Orbit.centreOf_append_singleton, hne]

/-- Recording an orbit shows it behind the others. -/
theorem Shows.record (h : c.Shows orbits) : (c.record orbit).Shows (orbits ++ [orbit]) := by
  have hnamed : ∀ name, Orbit.Named orbits name → name ∈ c.names :=
    fun name => (h.mem_names name).2
  have hentered : ∀ name, Orbit.Named orbits name → name ∈ (c.enter orbit.centre).1.names :=
    fun name hname => mem_names_enter.2 (.inl (hnamed name hname))
  have hnodup : ((c.enter orbit.centre).1.enter orbit.body).1.names.Nodup :=
    nodup_names_enter (nodup_names_enter h.nodup)
  refine ⟨?_, fun name => ?_, ?_⟩
  · rw [Chart.record, names_attach]
    exact hnodup
  · rw [Chart.record, names_attach, mem_names_enter, mem_names_enter, h.mem_names,
      Orbit.named_append_singleton, or_assoc]
  · exact ((h.linked.enter hnamed).enter hentered).attach hnodup getElem?_enter
      (getElem?_enter_of_eq getElem?_enter)

theorem shows_empty : empty.Shows [] := by
  refine ⟨by simp [names, empty], fun name => by simp [names, empty, Orbit.Named], fun p => ?_⟩
  simp [centre?, names, empty]

/-- **A chart shows the orbits that it is made of.** -/
theorem ofOrbits_shows (orbits : List Orbit) : (ofOrbits orbits).Shows orbits := by
  induction orbits using List.reverseRecOn with
  | nil => exact shows_empty
  | append_singleton orbits orbit ih =>
    rw [ofOrbits, List.foldl_append]
    exact ih.record

/-! ### Links between places and between names -/

namespace Shows

/-- A body that orbits another is linked to it by their places. -/
theorem centre?_idxOf {body centre : String} (h : c.Shows orbits)
    (hbody : Orbit.centreOf orbits body = some centre) :
    c.centre? (c.names.idxOf body) = some (c.names.idxOf centre) := by
  have hmem := (h.mem_names body).2 (Orbit.named_of_centreOf hbody).1
  rw [h.linked, List.getElem?_idxOf hmem, Option.bind_some, hbody]
  rfl

/-- Places that are linked are those of a body and of what it orbits. -/
theorem centreOf_nameAt (h : c.Shows orbits) (hp : c.centre? p = some q) :
    Orbit.centreOf orbits (c.nameAt p) = some (c.nameAt q) ∧ q < c.size := by
  rw [h.linked] at hp
  obtain ⟨centre, hcentre, rfl⟩ := Option.map_eq_some_iff.1 hp
  obtain ⟨body, hbody, hcentre⟩ := Option.bind_eq_some_iff.1 hcentre
  have hmem := (h.mem_names centre).2 (Orbit.named_of_centreOf hcentre).2
  rw [nameAt, nameAt, name?_eq, name?_eq, hbody, List.getElem?_idxOf hmem, size_eq]
  exact ⟨hcentre, List.idxOf_lt_length_of_mem hmem⟩

/-- A place that is not linked is that of a body that orbits nothing. -/
theorem centreOf_nameAt_eq_none (h : c.Shows orbits) (hp : p < c.size)
    (hnone : c.centre? p = none) : Orbit.centreOf orbits (c.nameAt p) = none := by
  rw [size_eq] at hp
  rw [h.linked, List.getElem?_eq_getElem hp, Option.map_eq_none_iff, Option.bind_some] at hnone
  rwa [nameAt, name?_eq, List.getElem?_eq_getElem hp]

/-- The names along a lineage of places are a lineage of names. -/
theorem lineage_names {places : List ℕ} (h : c.Shows orbits) (hp : p < c.size)
    (hplaces : Lineage c.centre? p places) :
    Lineage (Orbit.centreOf orbits) (c.nameAt p) (places.map c.nameAt) :=
  hplaces.map hp (fun _ _ => h.centreOf_nameAt) fun _ => h.centreOf_nameAt_eq_none

end Shows

end Chart

end Shipboard
