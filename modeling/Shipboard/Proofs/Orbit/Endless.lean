import Mathlib.Tactic
import Shipboard.Proofs.Orbit.Names

/-!
# The body that is reported

Where there is a cycle, a body is reported from which the links inwards never end.  It is enough for
this that they lead to a cycle, so the body need not be on it.

* `Orbit.LeadsToCycle orbits body`: the links from the body lead to one that orbits itself;
  `Chart.Shows.isEndless_iff` says that these are the bodies with endless ways inwards;
* `Orbit.FirstToCycle orbits body`: no body that is mentioned before this one leads to a cycle;
* `Chart.orbitCycle_of_parse`: this is the body that is reported;
* `Chart.orbitCycle_of_tail`: it is not on the cycle if its first mention is before that of the
  cycle.
-/

namespace Shipboard

namespace Orbit

variable {orbits : List Orbit} {name body : String}

/-- The links from a body lead to a body on a cycle, perhaps to the body itself. -/
def LeadsToCycle (orbits : List Orbit) (body : String) : Prop :=
  ∃ other, Relation.ReflTransGen (Links (centreOf orbits)) body other ∧ OnCycle orbits other

theorem OnCycle.leadsToCycle (h : OnCycle orbits body) : LeadsToCycle orbits body :=
  ⟨body, .refl, h⟩

/-- The first body that is mentioned of those that lead to a cycle. -/
def FirstToCycle (orbits : List Orbit) (name : String) : Prop :=
  ∃ front behind, orbits.flatMap mentions = front ++ name :: behind ∧ LeadsToCycle orbits name ∧
    ∀ other ∈ front, ¬ LeadsToCycle orbits other

end Orbit

namespace Chart

variable {c : Chart} {orbits : List Orbit} {name : String} {place : ℕ}

/-! ### Endless ways -/

/-- The way inwards from a body never ends exactly if it leads to a cycle. -/
theorem Shows.isEndless_iff (h : c.Shows orbits) (hname : c.name? place = some name) :
    c.isEndless place = true ↔ Orbit.LeadsToCycle orbits name := by
  have hat : c.nameAt place = name := by rw [nameAt, hname, Option.getD_some]
  rw [name?_eq] at hname
  have hplace : place < c.size := by
    rw [size_eq]
    exact (List.getElem?_eq_some_iff.1 hname).1
  constructor
  · intro hendless
    rw [isEndless, beq_iff_eq] at hendless
    -- more places are met than there are
    have hdup : ¬ (place :: c.inwards (c.size + 1) place).Nodup := by
      intro hnodup
      have hlt := length_lt_of_nodup h hplace isChain_inwards hnodup
      omega
    obtain ⟨p, hlinks, hcircle⟩ := exists_transGen_of_not_nodup isChain_inwards hdup
    have hlift : Links c.centre? ≤ Function.onFun (Links (Orbit.centreOf orbits)) c.nameAt :=
      fun _ _ hlink => (h.centreOf_nameAt hlink).1
    refine ⟨c.nameAt p, ?_, Relation.TransGen.lift c.nameAt hlift _ _ hcircle⟩
    rw [← hat]
    exact Relation.ReflTransGen.lift c.nameAt hlift _ _ hlinks
  · rintro ⟨body, hlinks, hcycle⟩
    by_contra hends
    obtain ⟨places, hplaces⟩ := exists_lineage_of_isEndless (by simpa using hends)
    have hlift : Links (Orbit.centreOf orbits) ≤
        Function.onFun (Links c.centre?) c.names.idxOf := fun _ _ => h.centre?_idxOf
    have hback := Relation.ReflTransGen.lift c.names.idxOf hlift _ _ hlinks
    rw [Function.onFun, idxOf_eq_of_nodup h.nodup hname] at hback
    exact hplaces.not_transGen_of_links hback
      (Relation.TransGen.lift c.names.idxOf hlift _ _ hcycle)

/-! ### The first of them -/

theorem names_eq_map (c : Chart) : c.names = (List.range c.size).map c.nameAt := by
  refine List.ext_getElem (by simp [size_eq]) fun i hi _ => ?_
  rw [List.getElem_map, List.getElem_range, nameAt, name?_eq, List.getElem?_eq_getElem hi,
    Option.getD_some]

/-- A search by name finds the name that it finds among all mentions of names. -/
theorem find?_eraseDups {α : Type} [DecidableEq α] (p : α → Bool) (xs : List α) :
    xs.eraseDups.find? p = xs.find? p := by
  induction xs using List.reverseRecOn with
  | nil => rfl
  | append_singleton xs x ih =>
    rw [eraseDups_concat, List.find?_append]
    split_ifs with hx
    · rw [ih]
      cases hfind : xs.find? p with
      | some y => rfl
      | none =>
        have hnot : p x = false := by simpa using List.find?_eq_none.1 hfind x hx
        simp [hnot]
    · rw [List.find?_append, ih]

open Classical in
/-- The name of the first endless body is the first name on the chart that leads to a cycle. -/
theorem Shows.name_firstEndless? (h : c.Shows orbits) :
    c.firstEndless?.map Body.name = c.names.find? fun name => Orbit.LeadsToCycle orbits name := by
  have hendless : ∀ p ∈ List.range c.size,
      c.isEndless p = decide (Orbit.LeadsToCycle orbits (c.nameAt p)) := by
    intro p hp
    obtain ⟨name, hname⟩ := exists_name?_of_lt (List.mem_range.1 hp)
    have hat : c.nameAt p = name := by rw [nameAt, hname, Option.getD_some]
    rw [hat, Bool.eq_iff_iff, decide_eq_true_iff]
    exact h.isEndless_iff hname
  rw [firstEndless?, names_eq_map, List.find?_map, List.find?_congr hendless]
  show _ = ((List.range c.size).find? fun p =>
    decide (Orbit.LeadsToCycle orbits (c.nameAt p))).map c.nameAt
  cases hfind : (List.range c.size).find? fun p =>
      decide (Orbit.LeadsToCycle orbits (c.nameAt p)) with
  | none => rfl
  | some p =>
    have hp : p < c.bodies.size := List.mem_range.1 (List.mem_of_find?_eq_some hfind)
    rw [Option.bind_some, Option.map_some, nameAt, name?, Array.getElem?_eq_getElem hp]
    rfl

/-- The first endless body of the chart of some orbits is the first that they mention of those that
lead to a cycle. -/
theorem name_firstEndless?_ofOrbits :
    (ofOrbits orbits).firstEndless?.map Body.name = some name ↔ Orbit.FirstToCycle orbits name := by
  classical
  rw [(ofOrbits_shows orbits).name_firstEndless?, names_ofOrbits, find?_eraseDups,
    List.find?_eq_some_iff_append]
  simp only [decide_eq_true_eq, Bool.not_eq_eq_eq_not, Bool.not_true, decide_eq_false_iff_not]
  constructor
  · rintro ⟨hleads, front, behind, hmentions, hfront⟩
    exact ⟨front, behind, hmentions, hleads, hfront⟩
  · rintro ⟨front, behind, hmentions, hleads, hfront⟩
    exact ⟨hleads, front, behind, hmentions, hfront⟩

/-! ### Reading -/

theorem parse_eq_orbitCycle_iff {text : String} :
    parse text = .error (.orbitCycle name) ↔
      ∃ orbits, Orbit.parseAll text = .ok orbits ∧ Orbit.FirstToCycle orbits name := by
  cases hread : Orbit.parseAll text with
  | error fault =>
    obtain ⟨i, line, -, rfl⟩ := Orbit.firstMalformed_of_parseAll hread
    simp [parse, hread, bind, Except.bind]
  | ok orbits =>
    simp only [parse_eq_of_parseAll hread, Except.ok.injEq, exists_eq_left',
      ← name_firstEndless?_ofOrbits]
    cases (ofOrbits orbits).firstEndless? <;> simp

/-- **The body that is reported is the first that leads to a cycle.**  It is on a cycle itself if no
body outside the cycles leads to one. -/
theorem orbitCycle_of_parse (text name : String) :
    (parse text = .error (.orbitCycle name) ↔
      ∃ orbits, List.Forall₂ Orbit.Writes (Text.entries text.toList) orbits ∧
        Orbit.FirstToCycle orbits name) ∧
    ∀ orbits, List.Forall₂ Orbit.Writes (Text.entries text.toList) orbits →
      (∀ body, Orbit.LeadsToCycle orbits body → Orbit.OnCycle orbits body) →
      parse text = .error (.orbitCycle name) → Orbit.OnCycle orbits name := by
  simp only [← Orbit.parseAll_eq_ok_iff_entries]
  refine ⟨parse_eq_orbitCycle_iff, fun orbits hread hall hparse => ?_⟩
  obtain ⟨orbits', hread', -, -, -, hleads, -⟩ := parse_eq_orbitCycle_iff.1 hparse
  obtain rfl := Except.ok.inj (hread.symm.trans hread')
  exact hall name hleads

/-- Two bodies go round each other, and the one that is mentioned first is reported. -/
theorem orbitCycle_of_parse_pair :
    parse "B)A\nA)B" = .error (.orbitCycle "B") ∧ Orbit.OnCycle [⟨"B", "A"⟩, ⟨"A", "B"⟩] "B" := by
  have hread : Orbit.parseAll "B)A\nA)B" = .ok [⟨"B", "A"⟩, ⟨"A", "B"⟩] := by decide +kernel
  have hA : Links (Orbit.centreOf [⟨"B", "A"⟩, ⟨"A", "B"⟩]) "A" "B" := by unfold Links; decide
  have hB : Links (Orbit.centreOf [⟨"B", "A"⟩, ⟨"A", "B"⟩]) "B" "A" := by unfold Links; decide
  have hlines := Orbit.parseAll_eq_ok_iff_entries.1 hread
  have hcycle : Orbit.OnCycle [⟨"B", "A"⟩, ⟨"A", "B"⟩] "B" := .head hB (.single hA)
  have hfirst : Orbit.FirstToCycle [⟨"B", "A"⟩, ⟨"A", "B"⟩] "B" :=
    ⟨[], ["A", "A", "B"], rfl, hcycle.leadsToCycle, by simp⟩
  obtain ⟨hreport, hcondition⟩ := orbitCycle_of_parse "B)A\nA)B" "B"
  have hparse := hreport.2 ⟨_, hlines, hfirst⟩
  refine ⟨hparse, hcondition _ hlines ?_ hparse⟩
  rintro body ⟨other, hlinks, hother⟩
  rcases Relation.ReflTransGen.cases_head hlinks with rfl | ⟨centre, hlink, -⟩
  · exact hother
  · obtain ⟨orbit, hmem, hbody⟩ := (Orbit.named_of_centreOf hlink).1
    have hnames : body = "A" ∨ body = "B" := by
      simp only [List.mem_cons, List.not_mem_nil, or_false] at hmem
      rcases hmem with rfl | rfl <;> rcases hbody with rfl | rfl <;> simp
    rcases hnames with rfl | rfl
    · exact .head hA (.single hB)
    · exact hcycle

/-- A body outside the cycle is reported: it is mentioned before the body that orbits itself, to
which its link leads. -/
theorem orbitCycle_of_tail :
    parse "TAIL)MOON\nSUN)TAIL\nSUN)SUN" = .error (.orbitCycle "TAIL") ∧
      ∀ orbits, List.Forall₂ Orbit.Writes
        (Text.entries "TAIL)MOON\nSUN)TAIL\nSUN)SUN".toList) orbits →
        Orbit.OnCycle orbits "SUN" ∧ ¬ Orbit.OnCycle orbits "TAIL" := by
  have hread : Orbit.parseAll "TAIL)MOON\nSUN)TAIL\nSUN)SUN" =
      .ok [⟨"TAIL", "MOON"⟩, ⟨"SUN", "TAIL"⟩, ⟨"SUN", "SUN"⟩] := by decide +kernel
  refine ⟨by decide +kernel, fun orbits hlines => ?_⟩
  obtain rfl := Except.ok.inj (hread.symm.trans (Orbit.parseAll_eq_ok_iff_entries.2 hlines))
  refine ⟨.single (by unfold Links; decide), fun hcycle => ?_⟩
  -- all links from the tail lead to the sun
  have hsun : ∀ body, Relation.TransGen
      (Links (Orbit.centreOf [⟨"TAIL", "MOON"⟩, ⟨"SUN", "TAIL"⟩, ⟨"SUN", "SUN"⟩])) "TAIL" body →
        body = "SUN" := by
    intro body hlinks
    induction hlinks with
    | single hlink => exact (Option.some.inj hlink).symm
    | tail _ hlink ih =>
      subst ih
      exact (Option.some.inj hlink).symm
  exact absurd (hsun "TAIL" hcycle) (by decide)

end Chart

end Shipboard
