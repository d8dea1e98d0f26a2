import Mathlib.Tactic
import Shipboard.Proofs.Orbit.Listing

/-!
# Cycles of orbits

A chart is refused if from some body more links lead inwards than there are bodies.  This is the
case exactly if some body orbits itself, and on every other chart all ways inwards come to an end.

* `Orbit.OnCycle orbits body`: the body orbits itself, directly or through others;
* `Chart.length_lt_of_nodup`: a way inwards that meets no body twice is shorter than there are
  bodies;
* `Chart.Shows.firstEndless?_eq_none_iff`: nothing is endless if and only if nothing is on a cycle;
* `Chart.parse_of_lines`: what is read, and what is reported, for every text.
-/

namespace Shipboard

/-- A body orbits itself, directly or through others. -/
def Orbit.OnCycle (orbits : List Orbit) (body : String) : Prop :=
  Relation.TransGen (Links (Orbit.centreOf orbits)) body body

namespace Chart

variable {c : Chart} {orbits : List Orbit} {place n : ℕ} {places : List ℕ}

/-! ### Ways inwards -/

/-- Enough links show the whole lineage. -/
theorem inwards_of_lineage (h : Lineage c.centre? place places) (hn : places.length ≤ n) :
    c.inwards n place = places := by
  induction h generalizing n with
  | root h =>
    cases n with
    | zero => rfl
    | succ n => rw [inwards, h]
  | link h _ ih =>
    cases n with
    | zero => simp at hn
    | succ n =>
      rw [inwards, h]
      exact congrArg _ (ih (by simpa using hn))

/-- A way inwards that is shorter than it could be has come to its end. -/
theorem lineage_of_length_lt (h : (c.inwards n place).length < n) :
    Lineage c.centre? place (c.inwards n place) := by
  induction n generalizing place with
  | zero => omega
  | succ n ih =>
    rw [inwards] at h ⊢
    cases hcentre : c.centre? place with
    | none => exact .root hcentre
    | some centre =>
      simp only [hcentre, List.length_cons] at h
      exact .link hcentre (ih (by omega))

theorem length_inwards_le : (c.inwards n place).length ≤ n := by
  induction n generalizing place with
  | zero => simp [inwards]
  | succ n ih =>
    rw [inwards]
    cases c.centre? place with
    | none => simp
    | some centre => simpa using ih

theorem isChain_inwards : List.IsChain (Links c.centre?) (place :: c.inwards n place) := by
  induction n generalizing place with
  | zero => exact .singleton _
  | succ n ih =>
    rw [inwards]
    cases hcentre : c.centre? place with
    | none => exact .singleton _
    | some centre => exact .cons_cons hcentre ih

theorem lt_size_of_mem (h : c.Shows orbits) (hplace : place < c.size)
    (hchain : List.IsChain (Links c.centre?) (place :: places)) :
    ∀ p ∈ place :: places, p < c.size := by
  induction places generalizing place with
  | nil => simpa using hplace
  | cons q places ih =>
    obtain ⟨hlink, hchain⟩ := List.isChain_cons_cons.1 hchain
    have hlater := ih (h.centreOf_nameAt hlink).2 hchain
    simpa using ⟨hplace, by simpa using hlater⟩

/-- A way inwards that meets no body twice is shorter than there are bodies. -/
theorem length_lt_of_nodup (h : c.Shows orbits) (hplace : place < c.size)
    (hchain : List.IsChain (Links c.centre?) (place :: places)) (hnodup : (place :: places).Nodup) :
    places.length < c.size := by
  have hsub : place :: places ⊆ List.range c.size :=
    fun p hp => List.mem_range.2 (lt_size_of_mem h hplace hchain p hp)
  simpa using (hnodup.subperm hsub).length_le

/-- Where no link leads back, no way inwards meets a body twice. -/
theorem nodup_of_isChain (hacyclic : ∀ p, ¬ Relation.TransGen (Links c.centre?) p p)
    (hchain : List.IsChain (Links c.centre?) (place :: places)) : (place :: places).Nodup := by
  have hpairwise : (place :: places).Pairwise (Relation.TransGen (Links c.centre?)) :=
    (hchain.imp fun _ _ hlink => .single hlink).pairwise
  refine hpairwise.imp fun {p q} hlinks => ?_
  rintro rfl
  exact hacyclic p hlinks

/-! ### Endless ways -/

theorem exists_lineage_of_isEndless (h : c.isEndless place = false) :
    ∃ places, Lineage c.centre? place places := by
  rw [isEndless, beq_eq_false_iff_ne] at h
  exact ⟨_, lineage_of_length_lt (Nat.lt_of_le_of_ne length_inwards_le h)⟩

theorem firstEndless?_eq_none_iff :
    c.firstEndless? = none ↔ ∀ place < c.size, c.isEndless place = false := by
  unfold firstEndless?
  rw [Option.bind_eq_none_iff]
  constructor
  · intro h place hplace
    by_contra hendless
    cases hfind : (List.range c.size).find? c.isEndless with
    | none =>
      rw [List.find?_eq_none] at hfind
      exact hfind place (List.mem_range.2 hplace) (by simpa using hendless)
    | some first =>
      have hlt : first < c.bodies.size := List.mem_range.1 (List.mem_of_find?_eq_some hfind)
      have hnone := h first hfind
      rw [Array.getElem?_eq_getElem hlt] at hnone
      cases hnone
  · intro h first hfind
    have hendless := List.find?_some hfind
    rw [h first (List.mem_range.1 (List.mem_of_find?_eq_some hfind))] at hendless
    cases hendless

namespace Shows

/-- On a chart where nothing is on a cycle, no link leads back. -/
theorem acyclic_of_onCycle (h : c.Shows orbits) (hnone : ∀ body, ¬ Orbit.OnCycle orbits body)
    (p : ℕ) : ¬ Relation.TransGen (Links c.centre?) p p := by
  intro hp
  refine hnone (c.nameAt p) (Relation.TransGen.lift c.nameAt ?_ _ _ hp)
  exact fun _ _ hlink => (h.centreOf_nameAt hlink).1

/-- **Exactly the charts with a cycle have an endless way inwards.** -/
theorem firstEndless?_eq_none_iff (h : c.Shows orbits) :
    c.firstEndless? = none ↔ ∀ body, ¬ Orbit.OnCycle orbits body := by
  rw [Chart.firstEndless?_eq_none_iff]
  constructor
  · intro hends body hcycle
    obtain ⟨centre, hcentre, -⟩ := Relation.TransGen.head'_iff.1 hcycle
    have hmem := (h.mem_names body).2 (Orbit.named_of_centreOf hcentre).1
    have hplace : c.names.idxOf body < c.size := by
      rw [size_eq]
      exact List.idxOf_lt_length_of_mem hmem
    obtain ⟨places, hplaces⟩ := exists_lineage_of_isEndless (hends _ hplace)
    -- the place of the body would be in its own lineage
    have hback : c.names.idxOf body ∈ places :=
      hplaces.mem_iff.2
        (Relation.TransGen.lift c.names.idxOf (fun _ _ => h.centre?_idxOf) _ _ hcycle)
    exact (List.nodup_cons.1 hplaces.nodup).1 hback
  · intro hnone place hplace
    have hchain : List.IsChain (Links c.centre?) (place :: c.inwards (c.size + 1) place) :=
      isChain_inwards
    have hlt := length_lt_of_nodup h hplace hchain
      (nodup_of_isChain (h.acyclic_of_onCycle hnone) hchain)
    rw [isEndless, beq_eq_false_iff_ne]
    omega

/-- Where nothing is on a cycle, the ancestors of a body are its whole lineage. -/
theorem lineage_ancestors (h : c.Shows orbits) (hnone : ∀ body, ¬ Orbit.OnCycle orbits body)
    (hplace : place < c.size) : Lineage c.centre? place (c.ancestors place) := by
  have hends := Chart.firstEndless?_eq_none_iff.1 (h.firstEndless?_eq_none_iff.2 hnone)
  obtain ⟨places, hplaces⟩ := exists_lineage_of_isEndless (hends place hplace)
  have hlt := length_lt_of_nodup h hplace hplaces.isChain hplaces.nodup
  rwa [ancestors, inwards_of_lineage hplaces hlt.le]

end Shows

/-! ### Reading -/

variable {text : String}

theorem parse_eq_of_parseAll (h : Orbit.parseAll text = .ok orbits) :
    parse text =
      match (ofOrbits orbits).firstEndless? with
      | some body => .error (.orbitCycle body.name)
      | none => .ok (ofOrbits orbits) := by
  rw [parse, h]
  rfl

/-- The charts that are read are those of orbits of which none is on a cycle. -/
theorem parse_eq_ok_iff :
    parse text = .ok c ↔
      ∃ orbits, Orbit.parseAll text = .ok orbits ∧ (∀ body, ¬ Orbit.OnCycle orbits body) ∧
        c = ofOrbits orbits := by
  cases hread : Orbit.parseAll text with
  | error fault => simp [parse, hread, bind, Except.bind]
  | ok orbits =>
    simp only [parse_eq_of_parseAll hread, Except.ok.injEq, exists_eq_left',
      ← (ofOrbits_shows orbits).firstEndless?_eq_none_iff]
    cases (ofOrbits orbits).firstEndless? <;> simp [eq_comm]

/-- If every line is in the form of an orbit, what is reported is a cycle. -/
theorem exists_parse_eq_orbitCycle_iff (h : Orbit.parseAll text = .ok orbits) :
    (∃ name, parse text = .error (.orbitCycle name)) ↔ ∃ body, Orbit.OnCycle orbits body := by
  have hnone := (ofOrbits_shows orbits).firstEndless?_eq_none_iff
  rw [← not_iff_not, not_exists (p := Orbit.OnCycle orbits), ← hnone, parse_eq_of_parseAll h]
  cases (ofOrbits orbits).firstEndless? <;> simp

/-- **A text is refused for a cycle exactly if there is one**, and for a line in another form
whatever the others say. -/
theorem parse_of_lines (text : String) :
    ((∀ line ∈ Text.numberedLines text.toList, ∃ orbit, Orbit.Writes line.1 orbit) →
      ∃ orbits, List.Forall₂ (fun line orbit => Orbit.Writes line.1 orbit)
          (Text.numberedLines text.toList) orbits ∧
        ((∃ name, parse text = .error (.orbitCycle name)) ↔ ∃ body, Orbit.OnCycle orbits body) ∧
        ((¬ ∃ body, Orbit.OnCycle orbits body) →
          ∃ c, parse text = .ok c ∧ ∀ place < c.size,
            Lineage c.centre? place (c.ancestors place) ∧ (c.ancestors place).Nodup ∧
              place ∉ c.ancestors place ∧ (c.ancestors place).length < c.size)) ∧
    ((∃ line ∈ Text.numberedLines text.toList, ¬ ∃ orbit, Orbit.Writes line.1 orbit) →
      ∃ line ∈ Text.numberedLines text.toList, (¬ ∃ orbit, Orbit.Writes line.1 orbit) ∧
        parse text = .error (.misread line.2 (.orbit (String.ofList (Text.trim line.1))))) := by
  cases hread : Orbit.parseAll text with
  | error fault =>
    obtain ⟨line, hline, hform, rfl⟩ := Orbit.exists_line_of_parseAll_eq_error hread
    refine ⟨fun hlines => (hform (hlines line hline)).elim, fun _ => ⟨line, hline, hform, ?_⟩⟩
    rw [parse, hread]
    rfl
  | ok orbits =>
    constructor
    · refine fun _ => ⟨orbits, Orbit.parseAll_eq_ok_iff.1 hread,
        exists_parse_eq_orbitCycle_iff hread, fun hnone => ?_⟩
      rw [not_exists] at hnone
      have hshows := ofOrbits_shows orbits
      refine ⟨_, parse_eq_ok_iff.2 ⟨orbits, hread, hnone, rfl⟩, fun place hplace => ?_⟩
      have hlineage := hshows.lineage_ancestors hnone hplace
      obtain ⟨hself, hnodup⟩ := List.nodup_cons.1 hlineage.nodup
      exact ⟨hlineage, hnodup, hself,
        length_lt_of_nodup hshows hplace hlineage.isChain hlineage.nodup⟩
    · rintro ⟨line, hline, hform⟩
      obtain ⟨orbit, -, horbit⟩ := exists_ok_of_mapM hread hline
      exact (hform ⟨orbit, Orbit.parseLine_eq_ok_iff.1 horbit⟩).elim

/-- A body is listed again as going round one that goes round it: the first listing stands, and
there is no cycle.  Of a body that goes round itself and a line in no form, the line is reported. -/
theorem parse_of_lines_relisted :
    (∃ c, parse "A)B\n\n B)C \nC)B" = .ok c ∧ ∀ place < c.size,
      Lineage c.centre? place (c.ancestors place) ∧ (c.ancestors place).Nodup ∧
        place ∉ c.ancestors place ∧ (c.ancestors place).length < c.size) ∧
    parse "A)A\nB-C" = .error (.misread 2 (.orbit "B-C")) := by
  have hlines : Text.numberedLines "A)B\n\n B)C \nC)B".toList =
      [("A)B".toList, 1), (" B)C ".toList, 3), ("C)B".toList, 4)] := by decide +kernel
  have hothers : Text.numberedLines "A)A\nB-C".toList = [("A)A".toList, 1), ("B-C".toList, 2)] := by
    decide +kernel
  have hfirst : Orbit.Writes "A)A".toList ⟨"A", "A"⟩ :=
    (@Orbit.parseLine_eq_ok_iff _ 1 _).1 (by decide +kernel)
  have hreport : Orbit.parseLine "B-C".toList 2 = .error (.misread 2 (.orbit "B-C")) := by
    decide +kernel
  have hform := (Orbit.parseLine_eq_error_iff.1 hreport).1
  constructor
  · have hwritten : ∀ line ∈ Text.numberedLines "A)B\n\n B)C \nC)B".toList,
        ∃ orbit, Orbit.Writes line.1 orbit := by
      rw [hlines]
      simp only [List.mem_cons, List.not_mem_nil, or_false, forall_eq_or_imp, forall_eq]
      exact ⟨⟨⟨"A", "B"⟩, (@Orbit.parseLine_eq_ok_iff _ 1 _).1 (by decide +kernel)⟩,
        ⟨⟨"B", "C"⟩, (@Orbit.parseLine_eq_ok_iff _ 3 _).1 (by decide +kernel)⟩,
        ⟨⟨"C", "B"⟩, (@Orbit.parseLine_eq_ok_iff _ 4 _).1 (by decide +kernel)⟩⟩
    obtain ⟨orbits, -, hcycle, hok⟩ := (parse_of_lines _).1 hwritten
    refine hok fun hsome => ?_
    obtain ⟨name, hname⟩ := hcycle.2 hsome
    have hread : parse "A)B\n\n B)C \nC)B" =
        .ok ⟨#[⟨"A", none⟩, ⟨"B", some 0⟩, ⟨"C", some 1⟩]⟩ := by decide +kernel
    rw [hread] at hname
    cases hname
  · have hmem : ("B-C".toList, 2) ∈ Text.numberedLines "A)A\nB-C".toList := by
      rw [hothers]
      exact List.mem_cons_of_mem _ (List.mem_singleton_self _)
    obtain ⟨line, hline, hnot, hfault⟩ := (parse_of_lines _).2 ⟨_, hmem, hform⟩
    rw [hothers, List.mem_pair] at hline
    rcases hline with rfl | rfl
    · exact (hnot ⟨_, hfirst⟩).elim
    · rw [hfault]
      decide +kernel

end Chart

end Shipboard
