import Mathlib.Tactic
import Shipboard.Proofs.Orbit.Names
import Shipboard.Proofs.Orbit.Transfer

/-!
# The order of orbits

Where no body is listed twice as going round another, the order in which the orbits are listed
changes the places on the chart and nothing else.

* `Orbit.Listed lines orbits`: the lines that are not blank write the orbits;
* `Orbit.Agrees orbits others`: the orbits name the same bodies and give them the same centres, as
  those do that are listed in another order (`Orbit.agrees_of_perm`);
* `Chart.ancestorNames`, `Chart.totalOrbits`, `Chart.transfers` and `Chart.summary` do not tell
  charts apart that show such orbits (`Chart.Shows.ancestorNames_congr` and what follows it);
* `Chart.parse_of_perm`: what is read from lines in another order.
-/

namespace Shipboard

namespace Orbit

variable {orbits others : List Orbit} {name centre : String} {lines lines' : List (List Char)}

/-! ### Lines in another order -/

/-- The lines list some orbits: those that are not blank write them, in this order. -/
def Listed (lines : List (List Char)) (orbits : List Orbit) : Prop :=
  List.Forall₂ Writes (lines.filter fun line => Text.trim line ≠ []) orbits

theorem parseAll_eq_ok_iff_listed {text : String} (h : Text.ConsistsOf text.toList lines) :
    parseAll text = .ok orbits ↔ Listed lines orbits := by
  rw [parseAll_eq_ok_iff_entries, h.entries_eq, List.filter_map, List.forall₂_map_left_iff]
  simp only [Writes, Text.trim_trim]
  rfl

/-- Lines in another order list the orbits in another order. -/
theorem Listed.perm (h : Listed lines orbits) (hperm : lines.Perm lines') :
    ∃ others, Listed lines' others ∧ others.Perm orbits :=
  List.perm_comp_forall₂ (hperm.symm.filter _) h

/-- Where no body is listed twice, every listed orbit is the first of its body. -/
theorem centreOf_eq_some_iff_mem (h : (orbits.map Orbit.body).Nodup) :
    centreOf orbits name = some centre ↔ ⟨centre, name⟩ ∈ orbits := by
  constructor
  · intro hcentre
    obtain ⟨orbit, hfind, rfl⟩ := Option.map_eq_some_iff.1 hcentre
    have hbody := List.find?_some hfind
    simp only [beq_iff_eq] at hbody
    exact hbody ▸ List.mem_of_find?_eq_some hfind
  · intro hmem
    cases hcentre : centreOf orbits name with
    | none => exact (centreOf_eq_none_iff.1 hcentre _ hmem rfl).elim
    | some other =>
      obtain ⟨orbit, hfind, rfl⟩ := Option.map_eq_some_iff.1 hcentre
      have hbody := List.find?_some hfind
      simp only [beq_iff_eq] at hbody
      have hsame := List.inj_on_of_nodup_map h (List.mem_of_find?_eq_some hfind) hmem hbody
      rw [hsame]

/-- Two lists of orbits name the same bodies and give them the same centres. -/
structure Agrees (orbits others : List Orbit) : Prop where
  centreOf_eq : centreOf orbits = centreOf others
  named_iff : ∀ name, Named orbits name ↔ Named others name

theorem agrees_of_perm (hperm : others.Perm orbits) (h : (orbits.map Orbit.body).Nodup) :
    Agrees orbits others := by
  have h' : (others.map Orbit.body).Nodup := (hperm.map Orbit.body).nodup_iff.2 h
  refine ⟨?_, fun name => ?_⟩
  · funext name
    refine Option.ext fun centre => ?_
    rw [centreOf_eq_some_iff_mem h, centreOf_eq_some_iff_mem h', hperm.mem_iff]
  · simp only [Named, hperm.mem_iff]

theorem Agrees.onCycle_iff (h : Agrees orbits others) {body : String} :
    OnCycle orbits body ↔ OnCycle others body := by
  rw [OnCycle, OnCycle, h.centreOf_eq]

theorem Agrees.not_onCycle (h : Agrees orbits others) (hnone : ∀ body, ¬ OnCycle orbits body) :
    ∀ body, ¬ OnCycle others body := by
  intro body hcycle
  exact hnone body (h.onCycle_iff.2 hcycle)

end Orbit

namespace Chart

variable {c d : Chart} {orbits others : List Orbit} {name start goal : String} {place n : ℕ}

/-! ### Orbits counted by names -/

/-- The names of the bodies that a body orbits, directly or through others, nearest first. -/
def ancestorNames (c : Chart) (name : String) : Except Fault (List (Option String)) :=
  (c.place name).map fun place => (c.ancestors place).map c.name?

/-- The number of bodies that a body orbits, directly or through others. -/
def orbitsOf (c : Chart) (name : String) : ℕ :=
  match c.ancestorNames name with
  | .ok names => names.length
  | .error _ => 0

theorem totalOrbits_eq_sum_range (c : Chart) :
    c.totalOrbits = ((List.range c.size).map fun place => (c.ancestors place).length).sum := by
  rw [totalOrbits, List.sum_eq_foldl, List.foldl_map]

/-- The orbits are counted name by name. -/
theorem totalOrbits_eq_sum (hnodup : c.names.Nodup) :
    c.totalOrbits = (c.names.map c.orbitsOf).sum := by
  have hplaces : (List.range c.size).map (fun place => (c.ancestors place).length) =
      c.names.map c.orbitsOf := by
    refine List.ext_getElem (by simp [size_eq]) fun i hi hi' => ?_
    rw [List.length_map] at hi'
    have hname : c.name? i = some c.names[i] := by rw [name?_eq, List.getElem?_eq_getElem hi']
    simp [orbitsOf, ancestorNames, place_eq_ok_of_name? hnodup hname, Except.map]
  rw [totalOrbits_eq_sum_range, hplaces]

/-- Both answers, by whether the two names are on the chart. -/
theorem summary_eq (c : Chart) :
    c.summary = if traveller ∈ c.names ∧ santa ∈ c.names
      then (c.transfers traveller santa).map fun steps => (c.totalOrbits, some steps)
      else .ok (c.totalOrbits, none) := by
  have hmem : ∀ name, name ∈ c.names ↔ (c.place? name).isSome = true := by
    intro name
    rw [place?_eq, ← not_iff_not, Option.not_isSome_iff_eq_none, List.idxOf?_eq_none_iff]
  simp only [summary, hmem]
  cases c.place? traveller with
  | none => rfl
  | some _ =>
    cases c.place? santa with
    | none => rfl
    | some _ => cases c.transfers traveller santa <;> rfl

namespace Shows

/-! ### Charts of orbits that agree -/

theorem names_perm (h : c.Shows orbits) (h' : d.Shows others)
    (hagrees : Orbit.Agrees orbits others) : c.names.Perm d.names := by
  rw [List.perm_ext_iff_of_nodup h.nodup h'.nodup]
  intro name
  rw [h.mem_names, h'.mem_names, hagrees.named_iff]

theorem size_congr (h : c.Shows orbits) (h' : d.Shows others)
    (hagrees : Orbit.Agrees orbits others) : c.size = d.size := by
  rw [size_eq, size_eq, (h.names_perm h' hagrees).length_eq]

/-- The names of the ancestors of a body are its lineage. -/
theorem exists_ancestorNames (h : c.Shows orbits) (hnone : ∀ body, ¬ Orbit.OnCycle orbits body)
    (hname : Orbit.Named orbits name) :
    ∃ names, Lineage (Orbit.centreOf orbits) name names ∧
      c.ancestorNames name = .ok (names.map some) := by
  obtain ⟨place, hlt, hplace, hlineage⟩ := h.exists_place hnone hname
  refine ⟨_, hlineage, ?_⟩
  rw [ancestorNames, hplace, List.map_map]
  refine congrArg Except.ok (List.map_congr_left fun q hq => ?_)
  have hq' := lt_size_of_mem h hlt (h.lineage_ancestors hnone hlt).isChain q
    (List.mem_cons_of_mem _ hq)
  obtain ⟨other, hother⟩ := exists_name?_of_lt hq'
  simp [nameAt, hother]

theorem ancestorNames_of_not_named (h : c.Shows orbits) (hname : ¬ Orbit.Named orbits name) :
    c.ancestorNames name = .error (.unknownBody name) := by
  rw [← h.mem_names] at hname
  rw [ancestorNames, place_eq_error_iff.2 ⟨hname, rfl⟩]
  rfl

variable (h : c.Shows orbits) (h' : d.Shows others) (hagrees : Orbit.Agrees orbits others)
  (hnone : ∀ body, ¬ Orbit.OnCycle orbits body)

include h h' hagrees hnone

theorem ancestorNames_congr (name : String) : c.ancestorNames name = d.ancestorNames name := by
  have hnone' := hagrees.not_onCycle hnone
  by_cases hname : Orbit.Named orbits name
  · obtain ⟨names, hlineage, hok⟩ := h.exists_ancestorNames hnone hname
    obtain ⟨names', hlineage', hok'⟩ :=
      h'.exists_ancestorNames hnone' ((hagrees.named_iff name).1 hname)
    rw [← hagrees.centreOf_eq] at hlineage'
    rw [hok, hok', hlineage.unique hlineage']
  · rw [h.ancestorNames_of_not_named hname,
      h'.ancestorNames_of_not_named fun hname' => hname ((hagrees.named_iff name).2 hname')]

theorem totalOrbits_congr : c.totalOrbits = d.totalOrbits := by
  have horbits : c.orbitsOf = d.orbitsOf := by
    funext name
    rw [orbitsOf, orbitsOf, h.ancestorNames_congr h' hagrees hnone]
  rw [totalOrbits_eq_sum h.nodup, totalOrbits_eq_sum h'.nodup, horbits]
  exact ((h.names_perm h' hagrees).map _).sum_eq

theorem transfers_congr (start goal : String) :
    c.transfers start goal = d.transfers start goal := by
  have hnone' := hagrees.not_onCycle hnone
  have hok : ∀ n, c.transfers start goal = .ok n ↔ d.transfers start goal = .ok n := by
    intro n
    simp only [h.transfers_eq_ok_iff hnone, h'.transfers_eq_ok_iff hnone', Orbit.graph,
      hagrees.centreOf_eq]
  by_cases hstart : Orbit.Named orbits start
  · have hstart' := (hagrees.named_iff start).1 hstart
    by_cases hgoal : Orbit.Named orbits goal
    · have hgoal' := (hagrees.named_iff goal).1 hgoal
      rcases h.transfers_of_named hnone hstart hgoal with ⟨_, _, -, -, -, hanswer⟩ | ⟨-, hanswer⟩
      · rw [hanswer, (hok _).1 hanswer]
      · rcases h'.transfers_of_named hnone' hstart' hgoal' with
          ⟨_, _, -, -, -, hother⟩ | ⟨-, hother⟩
        · rw [(hok _).2 hother, hother]
        · rw [hanswer, hother]
    · have hgoal' := fun hnamed => hgoal ((hagrees.named_iff goal).2 hnamed)
      rw [h.transfers_of_not_named.2 hstart hgoal, h'.transfers_of_not_named.2 hstart' hgoal']
  · have hstart' := fun hnamed => hstart ((hagrees.named_iff start).2 hnamed)
    rw [h.transfers_of_not_named.1 hstart, h'.transfers_of_not_named.1 hstart']

theorem summary_congr : c.summary = d.summary := by
  have htotal := h.totalOrbits_congr h' hagrees hnone
  have htransfers := h.transfers_congr h' hagrees hnone traveller santa
  rw [summary_eq, summary_eq, htotal, htransfers]
  simp only [(h.names_perm h' hagrees).mem_iff]

end Shows

/-! ### Reading -/

variable {text text' : String} {lines lines' : List (List Char)}

/-- **The order of the lines of a chart does not matter**, if no body is listed twice as going round
another.  Only the places of the bodies change. -/
theorem parse_of_perm (hlines : Orbit.Listed lines orbits) (hbodies : (orbits.map Orbit.body).Nodup)
    (hperm : lines.Perm lines') (htext : Text.ConsistsOf text.toList lines)
    (htext' : Text.ConsistsOf text'.toList lines') :
    (∃ a b, parse text = .error (.orbitCycle a) ∧ parse text' = .error (.orbitCycle b)) ∨
    ∃ c d, parse text = .ok c ∧ parse text' = .ok d ∧ c.size = d.size ∧
      c.totalOrbits = d.totalOrbits ∧ (∀ name, c.ancestorNames name = d.ancestorNames name) ∧
      (∀ start goal, c.transfers start goal = d.transfers start goal) ∧
      solve text = solve text' := by
  obtain ⟨others, hlines', hothers⟩ := hlines.perm hperm
  have hread := (Orbit.parseAll_eq_ok_iff_listed htext).2 hlines
  have hread' := (Orbit.parseAll_eq_ok_iff_listed htext').2 hlines'
  have hagrees := Orbit.agrees_of_perm hothers hbodies
  have hshows := ofOrbits_shows orbits
  have hshows' := ofOrbits_shows others
  by_cases hcycle : ∃ body, Orbit.OnCycle orbits body
  · have hcycle' : ∃ body, Orbit.OnCycle others body := hcycle.imp fun _ => hagrees.onCycle_iff.1
    obtain ⟨a, ha⟩ := (exists_parse_eq_orbitCycle_iff hread).2 hcycle
    obtain ⟨b, hb⟩ := (exists_parse_eq_orbitCycle_iff hread').2 hcycle'
    exact .inl ⟨a, b, ha, hb⟩
  · rw [not_exists] at hcycle
    have hparse := parse_eq_ok_iff.2 ⟨orbits, hread, hcycle, rfl⟩
    have hparse' := parse_eq_ok_iff.2 ⟨others, hread', hagrees.not_onCycle hcycle, rfl⟩
    refine .inr ⟨_, _, hparse, hparse', hshows.size_congr hshows' hagrees,
      hshows.totalOrbits_congr hshows' hagrees hcycle,
      hshows.ancestorNames_congr hshows' hagrees hcycle,
      hshows.transfers_congr hshows' hagrees hcycle, ?_⟩
    rw [solve, solve, hparse, hparse']
    exact hshows.summary_congr hshows' hagrees hcycle

/-- Three orbits in two orders: the bodies have other places, and the answers are the same. -/
theorem parse_of_perm_shifted :
    ∃ c d, parse "COM)B\n\nB)YOU\n B)SAN" = .ok c ∧ parse " B)SAN\nCOM)B\nB)YOU\n\n" = .ok d ∧
      c.names ≠ d.names ∧ c.ancestorNames "YOU" = d.ancestorNames "YOU" ∧
      solve "COM)B\n\nB)YOU\n B)SAN" = solve " B)SAN\nCOM)B\nB)YOU\n\n" := by
  have htext : Text.ConsistsOf "COM)B\n\nB)YOU\n B)SAN".toList
      ["COM)B".toList, [], "B)YOU".toList, " B)SAN".toList] :=
    ⟨by decide +kernel, .inl (by decide +kernel)⟩
  have htext' : Text.ConsistsOf " B)SAN\nCOM)B\nB)YOU\n\n".toList
      [" B)SAN".toList, "COM)B".toList, "B)YOU".toList, []] :=
    ⟨by decide +kernel, .inr (by decide +kernel)⟩
  have hread : Orbit.parseAll "COM)B\n\nB)YOU\n B)SAN" =
      .ok [⟨"COM", "B"⟩, ⟨"B", "YOU"⟩, ⟨"B", "SAN"⟩] := by decide +kernel
  have hparse : parse "COM)B\n\nB)YOU\n B)SAN" =
      .ok ⟨#[⟨"COM", none⟩, ⟨"B", some 0⟩, ⟨"YOU", some 1⟩, ⟨"SAN", some 1⟩]⟩ := by decide +kernel
  have hparse' : parse " B)SAN\nCOM)B\nB)YOU\n\n" =
      .ok ⟨#[⟨"B", some 2⟩, ⟨"SAN", some 0⟩, ⟨"COM", none⟩, ⟨"YOU", some 0⟩]⟩ := by decide +kernel
  rcases parse_of_perm ((Orbit.parseAll_eq_ok_iff_listed htext).1 hread) (by decide +kernel)
    (by decide +kernel) htext htext' with ⟨a, _, ha, -⟩ | ⟨c, d, hc, hd, -, -, hnames, -, hsolve⟩
  · rw [hparse] at ha
    cases ha
  · refine ⟨c, d, hc, hd, ?_, hnames "YOU", hsolve⟩
    obtain rfl := Except.ok.inj (hparse.symm.trans hc)
    obtain rfl := Except.ok.inj (hparse'.symm.trans hd)
    decide +kernel

end Chart

end Shipboard
