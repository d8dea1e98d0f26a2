import Mathlib.Data.Set.Card
import Mathlib.Tactic
import Shipboard.Proofs.Orbit.Order

/-!
# The number of orbits

The orbits of a chart are added up body by body. They are the pairs of bodies of which one orbits
the other, so that they can be counted from both ends; and a chart to which one more body is added
has as many more as this body has ancestors.

* `Chart.orbitPairs c`, `Chart.satellites c place`: which bodies orbit which;
  `Chart.Shows.totalOrbits_eq_ncard` and `Chart.ncard_orbitPairs` count the orbits by pairs, and by
  the bodies that are orbited;
* `Chart.push c body`: a chart with one more body, which leaves the ancestors of the others as they
  are (`Chart.Shows.ancestors_push`);
* `Orbit.Legible orbit`: an orbit that is read from the line on which its names are written;
* `Chart.parse_of_appended`: what is read if the line is an orbit of a new body;
* `Chart.totalOrbits_of_parse`: all of this for a text.
-/

namespace Shipboard

/-! ### Counting from both ends -/

section Counting

open Finset

/-- The numbers below a bound that have a property. -/
theorem ncard_below (n : ℕ) (P : ℕ → Prop) [DecidablePred P] :
    {i | i < n ∧ P i}.ncard = #{i ∈ range n | P i} := by
  rw [← Set.ncard_coe_finset]
  congr 1
  ext i
  simp

/-- Pairs of numbers below a bound, counted by the first of them. -/
theorem ncard_pairs_eq_sum_fst (n : ℕ) (R : ℕ → ℕ → Prop) :
    {p : ℕ × ℕ | p.1 < n ∧ p.2 < n ∧ R p.1 p.2}.ncard =
      ∑ i ∈ range n, {j | j < n ∧ R i j}.ncard := by
  classical
  have hpairs : {p : ℕ × ℕ | p.1 < n ∧ p.2 < n ∧ R p.1 p.2} =
      ({p ∈ range n ×ˢ range n | R p.1 p.2} : Finset (ℕ × ℕ)) := by
    ext p
    simp [and_assoc]
  rw [hpairs, Set.ncard_coe_finset, card_filter, sum_product]
  refine sum_congr rfl fun i _ => ?_
  rw [ncard_below, card_filter]

/-- Pairs of numbers below a bound, counted by the second of them. -/
theorem ncard_pairs_eq_sum_snd (n : ℕ) (R : ℕ → ℕ → Prop) :
    {p : ℕ × ℕ | p.1 < n ∧ p.2 < n ∧ R p.1 p.2}.ncard =
      ∑ j ∈ range n, {i | i < n ∧ R i j}.ncard := by
  classical
  rw [ncard_pairs_eq_sum_fst]
  simp only [ncard_below, card_filter]
  exact sum_comm

end Counting

/-! ### Lines of orbits -/

namespace Orbit

variable {orbit : Orbit} {orbits : List Orbit} {name : String} {text : String}

/-- The line on which an orbit is written. -/
def line (orbit : Orbit) : List Char :=
  orbit.centre.toList ++ ')' :: orbit.body.toList

/-- The names of an orbit can be told from the line on which it is written: the first parenthesis
is the one between them, no blank stands at the ends, and the line is one. -/
structure Legible (orbit : Orbit) : Prop where
  notMem_centre : ')' ∉ orbit.centre.toList
  trimStart_centre : Text.trimStart orbit.centre.toList = orbit.centre.toList
  body_ne : orbit.body ≠ ""
  notMem_body : '\n' ∉ orbit.body.toList
  trimEnd_body : Text.trimEnd orbit.body.toList = orbit.body.toList

theorem Legible.trim_line (h : orbit.Legible) (hne : orbit.centre ≠ "") :
    Text.trim orbit.line = orbit.line :=
  Text.trim_append_cons_eq_self h.trimStart_centre (by simpa using hne) h.trimEnd_body
    (by simpa using h.body_ne)

theorem Legible.writes (h : orbit.Legible) (hne : orbit.centre ≠ "") : Writes orbit.line orbit := by
  refine ⟨orbit.centre.toList, orbit.body.toList, h.trim_line hne, h.notMem_centre,
    by simpa using hne, by simpa using h.body_ne, ?_⟩
  rw [String.ofList_toList, String.ofList_toList]

/-- What is named on the lines of a text is something and has no line feed in it. -/
theorem name_of_parseAll (h : parseAll text = .ok orbits) (hname : Named orbits name) :
    name ≠ "" ∧ '\n' ∉ name.toList := by
  obtain ⟨orbit, horbit, hname⟩ := hname
  have hall := parseAll_eq_ok_iff_entries.1 h
  obtain ⟨i, hi, rfl⟩ := List.mem_iff_getElem.1 horbit
  have hi' : i < (Text.entries text.toList).length := hall.length_eq ▸ hi
  have hfeed := Text.notMem_of_mem_entries (List.getElem_mem hi')
  obtain ⟨centre, body, htrim, -, hcentre, hbody, heq⟩ := hall.get hi' hi
  have hparts : '\n' ∉ centre ++ ')' :: body := by
    rw [← htrim]
    exact fun hmem => hfeed (Text.mem_of_mem_trim hmem)
  simp only [List.mem_append, List.mem_cons, not_or] at hparts
  rw [List.get_eq_getElem] at heq
  rw [heq] at hname
  rcases hname with rfl | rfl
  · exact ⟨by simpa using hcentre, by simpa using hparts.1⟩
  · exact ⟨by simpa using hbody, by simpa using hparts.2.2⟩

end Orbit

namespace Chart

variable {c : Chart} {orbits : List Orbit} {body : Body} {place : ℕ}

/-- The places of a body and of another that it orbits, directly or through others. -/
def orbitPairs (c : Chart) : Set (ℕ × ℕ) :=
  {p | p.1 < c.size ∧ p.2 < c.size ∧ Relation.TransGen (Links c.centre?) p.1 p.2}

/-- The places of the bodies that orbit the one at a place, directly or through others. -/
def satellites (c : Chart) (place : ℕ) : Set ℕ :=
  {p | p < c.size ∧ Relation.TransGen (Links c.centre?) p place}

theorem totalOrbits_eq_sum_length (c : Chart) :
    c.totalOrbits = ∑ place ∈ Finset.range c.size, (c.ancestors place).length := by
  rw [totalOrbits_eq_sum_range, Finset.sum_eq_multiset_sum]
  rfl

theorem Shows.length_ancestors_lt (h : c.Shows orbits)
    (hnone : ∀ body, ¬ Orbit.OnCycle orbits body) (hplace : place < c.size) :
    (c.ancestors place).length < c.size := by
  have hlineage := h.lineage_ancestors hnone hplace
  exact length_lt_of_nodup h hplace hlineage.isChain hlineage.nodup

/-- The ancestors of a body are as many as the bodies that the links from it lead to. -/
theorem Shows.length_ancestors (h : c.Shows orbits) (hnone : ∀ body, ¬ Orbit.OnCycle orbits body)
    (hplace : place < c.size) :
    (c.ancestors place).length =
      {q | q < c.size ∧ Relation.TransGen (Links c.centre?) place q}.ncard := by
  have hlineage := h.lineage_ancestors hnone hplace
  have hmem : {q | q < c.size ∧ Relation.TransGen (Links c.centre?) place q} =
      (c.ancestors place).toFinset := by
    ext q
    rw [Finset.mem_coe, List.mem_toFinset, hlineage.mem_iff, Set.mem_ofPred_eq,
      and_iff_right_iff_imp]
    intro hq
    exact lt_size_of_mem h hplace hlineage.isChain q (.tail _ (hlineage.mem_iff.2 hq))
  rw [hmem, Set.ncard_coe_finset, List.toFinset_card_of_nodup (List.nodup_cons.1 hlineage.nodup).2]

/-- **Every pair of a body and another that it orbits is counted once.** -/
theorem Shows.totalOrbits_eq_ncard (h : c.Shows orbits)
    (hnone : ∀ body, ¬ Orbit.OnCycle orbits body) : c.totalOrbits = c.orbitPairs.ncard := by
  rw [totalOrbits_eq_sum_length, orbitPairs, ncard_pairs_eq_sum_fst]
  exact Finset.sum_congr rfl fun place hplace =>
    h.length_ancestors hnone (Finset.mem_range.1 hplace)

theorem ncard_orbitPairs (c : Chart) :
    c.orbitPairs.ncard = ∑ place ∈ Finset.range c.size, (c.satellites place).ncard :=
  ncard_pairs_eq_sum_snd c.size _

/-! ### One more body -/

/-- A chart with one more body behind the others. -/
def push (c : Chart) (body : Body) : Chart :=
  ⟨c.bodies.push body⟩

@[simp] theorem names_push : (c.push body).names = c.names ++ [body.name] := by
  simp [names, push]

@[simp] theorem size_push : (c.push body).size = c.size + 1 := by
  simp [size, push]

theorem place?_push_of_ne {name : String} (hname : name ≠ body.name) :
    (c.push body).place? name = c.place? name := by
  have hne : (body.name == name) = false := beq_false_of_ne hname.symm
  rw [place?_eq, place?_eq, names_push]
  simp [List.idxOf?, List.findIdx?_append, hne]

theorem centre?_push {p : ℕ} :
    (c.push body).centre? p = if p = c.size then body.centre else c.centre? p := by
  rw [centre?, push, Array.getElem?_push]
  exact apply_ite (fun found : Option Body => found.bind Body.centre) _ _ _

/-- Recording an orbit of a body that is not on the chart puts it behind the others. -/
theorem record_of_new {orbit : Orbit} {x : ℕ} (hx : c.place? orbit.centre = some x)
    (hnew : orbit.body ∉ c.names) : c.record orbit = c.push ⟨orbit.body, some x⟩ := by
  have hnone : c.place? orbit.body = none := by rwa [place?_eq, List.idxOf?_eq_none_iff]
  simp only [record, enter, hx, hnone, attach, push, size]
  refine congrArg Chart.mk (Array.ext_getElem? fun i => ?_)
  simp only [Array.getElem?_modify, Array.getElem?_push]
  split_ifs <;> simp_all

theorem lt_size_of_centre? {p q : ℕ} (h : c.centre? p = some q) : p < c.size := by
  obtain ⟨body, hbody, -⟩ := Option.bind_eq_some_iff.1 h
  exact (Array.getElem?_eq_some_iff.1 hbody).1

namespace Shows

variable (h : c.Shows orbits)

include h

/-- The links from a body lead where they led before. -/
theorem lineage_push {places : List ℕ} (hplace : place < c.size)
    (hlineage : Lineage c.centre? place places) : Lineage (c.push body).centre? place places := by
  have hold : ∀ p < c.size, (c.push body).centre? p = c.centre? p := by
    intro p hp
    rw [centre?_push, if_neg hp.ne]
  have hmap : Lineage (c.push body).centre? (id place) (places.map id) :=
    hlineage.map hplace
      (fun p q hlink =>
        ⟨(hold p (lt_size_of_centre? hlink)).trans hlink, (h.centreOf_nameAt hlink).2⟩)
      fun p hp hroot => (hold p hp).trans hroot
  rwa [List.map_id] at hmap

variable (hnone : ∀ body, ¬ Orbit.OnCycle orbits body)

include hnone

theorem ancestors_push (hplace : place < c.size) :
    (c.push body).ancestors place = c.ancestors place := by
  have hlt := h.length_ancestors_lt hnone hplace
  exact inwards_of_lineage (h.lineage_push hplace (h.lineage_ancestors hnone hplace))
    (by rw [size_push]; omega)

/-- The links from the new body lead to what it orbits and from there as before. -/
theorem lineage_new {x : ℕ} (hx : x < c.size) (hcentre : body.centre = some x) :
    Lineage (c.push body).centre? c.size (x :: c.ancestors x) := by
  refine .link ?_ (h.lineage_push hx (h.lineage_ancestors hnone hx))
  rw [centre?_push, if_pos rfl, hcentre]

theorem ancestors_new {x : ℕ} (hx : x < c.size) (hcentre : body.centre = some x) :
    (c.push body).ancestors c.size = x :: c.ancestors x := by
  have hlt := h.length_ancestors_lt hnone hx
  exact inwards_of_lineage (h.lineage_new hnone hx hcentre)
    (by rw [size_push, List.length_cons]; omega)

/-- **A new body adds as many orbits as what it orbits has ancestors, and one more.** -/
theorem totalOrbits_push {x : ℕ} (hx : x < c.size) (hcentre : body.centre = some x) :
    (c.push body).totalOrbits = c.totalOrbits + ((c.ancestors x).length + 1) := by
  have hold : ∀ p ∈ Finset.range c.size,
      ((c.push body).ancestors p).length = (c.ancestors p).length := by
    intro p hp
    rw [h.ancestors_push hnone (Finset.mem_range.1 hp)]
  rw [totalOrbits_eq_sum_length, totalOrbits_eq_sum_length, size_push, Finset.sum_range_succ,
    Finset.sum_congr rfl hold, h.ancestors_new hnone hx hcentre, List.length_cons]

theorem firstEndless?_push {x : ℕ} (hx : x < c.size) (hcentre : body.centre = some x) :
    (c.push body).firstEndless? = none := by
  -- the way from the new body is one link longer than one on the old chart, which is short enough
  have hends : ∀ p < c.size + 1, ∃ places, Lineage (c.push body).centre? p places ∧
      places.length < c.size + 1 := by
    intro p hp
    rcases Nat.lt_succ_iff_lt_or_eq.1 hp with hlt | rfl
    · exact ⟨_, h.lineage_push hlt (h.lineage_ancestors hnone hlt),
        (h.length_ancestors_lt hnone hlt).trans (Nat.lt_succ_self _)⟩
    · exact ⟨_, h.lineage_new hnone hx hcentre,
        Nat.succ_lt_succ (h.length_ancestors_lt hnone hx)⟩
  rw [Chart.firstEndless?_eq_none_iff]
  intro p hp
  rw [size_push] at hp
  obtain ⟨places, hlineage, hlength⟩ := hends p hp
  rw [isEndless, size_push, inwards_of_lineage hlineage (by omega), beq_eq_false_iff_ne]
  omega

/-- The new body changes the ancestors of no other, by name. -/
theorem ancestorNames_push {name : String} (hname : name ≠ body.name) :
    (c.push body).ancestorNames name = c.ancestorNames name := by
  have hplace : (c.push body).place name = c.place name := by
    rw [place, place, place?_push_of_ne hname]
  rw [ancestorNames, ancestorNames, hplace]
  cases hfound : c.place name with
  | error fault => rfl
  | ok p =>
    obtain ⟨hp, -, -⟩ := List.idxOf?_eq_some_iff.1 (place_eq_ok_iff.1 hfound)
    rw [← size_eq] at hp
    have hchain := (h.lineage_ancestors hnone hp).isChain
    show Except.ok (((c.push body).ancestors p).map (c.push body).name?) =
      .ok ((c.ancestors p).map c.name?)
    rw [h.ancestors_push hnone hp]
    refine congrArg Except.ok (List.map_congr_left fun q hq => ?_)
    have hq' := lt_size_of_mem h hp hchain q (List.mem_cons_of_mem _ hq)
    rw [size_eq] at hq'
    rw [name?_eq, name?_eq, names_push, List.getElem?_append_left hq']

end Shows

/-! ### Reading -/

variable {text text' : String}

/-- **A line with an orbit of a new body adds it to the chart.** -/
theorem parse_of_appended {orbit : Orbit} {x : ℕ} (h : parse text = .ok c)
    (hx : c.name? x = some orbit.centre) (hnew : orbit.body ∉ c.names) (horbit : orbit.Legible)
    (htext : Text.Appended orbit.line text.toList text'.toList) :
    parse text' = .ok (c.push ⟨orbit.body, some x⟩) := by
  obtain ⟨orbits, hread, hnone, rfl⟩ := parse_eq_ok_iff.1 h
  have hshows := ofOrbits_shows orbits
  have hplace := place_eq_ok_of_name? hshows.nodup hx
  have hlt := lt_size_of_name? hx
  rw [name?_eq] at hx
  -- the centre is a name on some line, so that the new line is a single one and not blank
  obtain ⟨hne, hfeed⟩ := Orbit.name_of_parseAll hread
    ((hshows.mem_names _).1 (List.mem_of_getElem? hx))
  have hline := horbit.trim_line hne
  have hread' : Orbit.parseAll text' = .ok (orbits ++ [orbit]) := by
    rw [Orbit.parseAll_eq_ok_iff_entries, htext.entries_eq ?_ ?_, hline]
    · exact List.rel_append (Orbit.parseAll_eq_ok_iff_entries.1 hread)
        (.cons (horbit.writes hne) .nil)
    · simp [Orbit.line, hfeed, horbit.notMem_body]
    · rw [hline]
      simp [Orbit.line]
  have hrecord : ofOrbits (orbits ++ [orbit]) = (ofOrbits orbits).push ⟨orbit.body, some x⟩ := by
    rw [ofOrbits, List.foldl_append]
    exact record_of_new ((place_eq_ok_iff.1 hplace) ▸ place?_eq _ _) hnew
  rw [parse_eq_of_parseAll hread', hrecord, hshows.firstEndless?_push hnone hlt rfl]

/-- **Every direct and indirect orbit is counted once**, and one more line with an orbit of a new
body adds those of that body. -/
theorem totalOrbits_of_parse (h : parse text = .ok c) :
    c.totalOrbits = c.orbitPairs.ncard ∧
    c.totalOrbits = ∑ place ∈ Finset.range c.size, (c.satellites place).ncard ∧
    ∀ (text' : String) (orbit : Orbit) (x : ℕ), c.name? x = some orbit.centre →
      orbit.body ∉ c.names → orbit.Legible →
      Text.Appended orbit.line text.toList text'.toList →
      ∃ d, parse text' = .ok d ∧ d.names = c.names ++ [orbit.body] ∧
        (∀ place < c.size, d.ancestors place = c.ancestors place) ∧
        (∀ name ≠ orbit.body, d.ancestorNames name = c.ancestorNames name) ∧
        d.ancestors c.size = x :: c.ancestors x ∧
        d.totalOrbits = c.totalOrbits + ((c.ancestors x).length + 1) := by
  obtain ⟨orbits, -, hnone, hchart⟩ := parse_eq_ok_iff.1 h
  have hshows : c.Shows orbits := hchart ▸ ofOrbits_shows orbits
  have hpairs := hshows.totalOrbits_eq_ncard hnone
  refine ⟨hpairs, hpairs.trans (ncard_orbitPairs c), fun text' orbit x hx hnew horbit htext => ?_⟩
  have hlt := lt_size_of_name? hx
  exact ⟨_, parse_of_appended h hx hnew horbit htext, names_push,
    fun _ => hshows.ancestors_push hnone, fun _ hname => hshows.ancestorNames_push hnone hname,
    hshows.ancestors_new hnone hlt rfl, hshows.totalOrbits_push hnone hlt rfl⟩

/-- A body goes round the middle one of three, and its name ends with a parenthesis. -/
theorem totalOrbits_of_parse_three :
    ∃ c d, parse "COM)A\nA)B\n" = .ok c ∧ parse "COM)A\nA)B\nA)N)" = .ok d ∧
      c.totalOrbits = c.orbitPairs.ncard ∧ d.names = ["COM", "A", "B", "N)"] ∧
      d.ancestors 3 = [1, 0] ∧ d.totalOrbits = c.totalOrbits + 2 := by
  have hparse : parse "COM)A\nA)B\n" =
      .ok ⟨#[⟨"COM", none⟩, ⟨"A", some 0⟩, ⟨"B", some 1⟩]⟩ := by decide +kernel
  have hlegible : Orbit.Legible ⟨"A", "N)"⟩ :=
    ⟨by decide +kernel, by decide +kernel, by decide +kernel, by decide +kernel, by decide +kernel⟩
  have htext : Text.Appended (Orbit.line ⟨"A", "N)"⟩) "COM)A\nA)B\n".toList
      "COM)A\nA)B\nA)N)".toList :=
    ⟨"COM)A\nA)B".toList, .inr (by decide +kernel), .inl (by decide +kernel)⟩
  obtain ⟨hpairs, -, hnew⟩ := totalOrbits_of_parse hparse
  obtain ⟨d, hd, hnames, -, -, hancestors, htotal⟩ :=
    hnew "COM)A\nA)B\nA)N)" ⟨"A", "N)"⟩ 1 rfl (by decide +kernel) hlegible htext
  exact ⟨_, d, hparse, hd, hpairs, hnames, hancestors, htotal⟩

/-- No centre's name can have a parenthesis in it or start with a blank; and a name that ends with a
blank is read without it, which may be on the chart already. -/
theorem totalOrbits_of_parenthesis :
    (∃ c d, parse "A)B)C" = .ok c ∧ parse "A)B)C\nB)C)N" = .ok d ∧ c.name? 1 = some "B)C" ∧
      "N" ∉ c.names ∧
      Text.Appended (Orbit.line ⟨"B)C", "N"⟩) "A)B)C".toList "A)B)C\nB)C)N".toList ∧
      d.names = ["A", "B)C", "B", "C)N"] ∧
      d.totalOrbits ≠ c.totalOrbits + ((c.ancestors 1).length + 1)) ∧
    (∃ c d, parse "A) B" = .ok c ∧ parse "A) B\n B)N" = .ok d ∧ c.name? 1 = some " B" ∧
      "N" ∉ c.names ∧
      Text.Appended (Orbit.line ⟨" B", "N"⟩) "A) B".toList "A) B\n B)N".toList ∧
      d.names = ["A", " B", "B", "N"] ∧
      d.totalOrbits ≠ c.totalOrbits + ((c.ancestors 1).length + 1)) ∧
    ∃ c d, parse "A)B" = .ok c ∧ parse "A)B\nA)B " = .ok d ∧ c.name? 0 = some "A" ∧
      "B " ∉ c.names ∧
      Text.Appended (Orbit.line ⟨"A", "B "⟩) "A)B".toList "A)B\nA)B ".toList ∧
      d.names = ["A", "B"] ∧
      d.totalOrbits ≠ c.totalOrbits + ((c.ancestors 0).length + 1) := by
  have hparse : parse "A)B)C" = .ok ⟨#[⟨"A", none⟩, ⟨"B)C", some 0⟩]⟩ := by decide +kernel
  have hparse' : parse "A)B)C\nB)C)N" =
      .ok ⟨#[⟨"A", none⟩, ⟨"B)C", some 0⟩, ⟨"B", none⟩, ⟨"C)N", some 2⟩]⟩ := by decide +kernel
  have hstart : parse "A) B" = .ok ⟨#[⟨"A", none⟩, ⟨" B", some 0⟩]⟩ := by decide +kernel
  have hstart' : parse "A) B\n B)N" =
      .ok ⟨#[⟨"A", none⟩, ⟨" B", some 0⟩, ⟨"B", none⟩, ⟨"N", some 2⟩]⟩ := by decide +kernel
  have hend : parse "A)B" = .ok ⟨#[⟨"A", none⟩, ⟨"B", some 0⟩]⟩ := by decide +kernel
  have hend' : parse "A)B\nA)B " = .ok ⟨#[⟨"A", none⟩, ⟨"B", some 0⟩]⟩ := by decide +kernel
  refine ⟨⟨_, _, hparse, hparse', rfl, by decide +kernel, ?_, by decide +kernel,
    by decide +kernel⟩, ⟨_, _, hstart, hstart', rfl, by decide +kernel, ?_, by decide +kernel,
    by decide +kernel⟩, _, _, hend, hend', rfl, by decide +kernel, ?_, by decide +kernel,
    by decide +kernel⟩
  · exact ⟨"A)B)C".toList, .inl rfl, .inl (by decide +kernel)⟩
  · exact ⟨"A) B".toList, .inl rfl, .inl (by decide +kernel)⟩
  · exact ⟨"A)B".toList, .inl rfl, .inl (by decide +kernel)⟩

end Chart

end Shipboard
