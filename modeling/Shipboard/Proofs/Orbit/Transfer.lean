import Mathlib.Tactic
import Shipboard.Orbit.Transfer
import Shipboard.Proofs.Orbit.Cycle
import Shipboard.Proofs.Orbit.Forest

/-!
# Transfers as distances

The search for transfers looks along the ancestors of one body for the first that the other body has
too.  The orbits of a chart are a forest, and what is found is the distance in it between the two
bodies that are orbited.

* `Meets xs ys n`: there are `n` steps in all to the first member of `xs` that is in `ys`;
  `Chart.stepsAcross` finds them (`Chart.meets_of_stepsAcross`);
* `Orbit.graph orbits`: every body is joined to the centre of its first orbit;
* `Chart.Shows.transfers_eq_ok_iff`: the transfers between two bodies are the distance of their
  centres;
* `Chart.transfers_of_parse`: all answers for a chart that has been read.
-/

namespace Shipboard

/-! ### Where two lists meet -/

/-- A member of one list is also in another, and none before it is; as many others in all stand
before it in the two lists. -/
def Meets {α : Type} (xs ys : List α) (n : ℕ) : Prop :=
  ∃ front z behind front' behind', xs = front ++ z :: behind ∧ ys = front' ++ z :: behind' ∧
    (∀ w ∈ front, w ∉ ys) ∧ n = front.length + front'.length

theorem Meets.exists_mem {α : Type} {xs ys : List α} {n : ℕ} (h : Meets xs ys n) :
    ∃ z ∈ xs, z ∈ ys := by
  obtain ⟨front, z, behind, front', behind', rfl, rfl, -, -⟩ := h
  exact ⟨z, by simp, by simp⟩

theorem mem_of_map_mem {α β : Type} {f : α → β} {x : α} {ys : List α}
    (hf : ∀ y ∈ ys, f x = f y → x = y) (h : f x ∈ ys.map f) : x ∈ ys := by
  obtain ⟨y, hy, heq⟩ := List.mem_map.1 h
  exact hf y hy heq.symm ▸ hy

theorem Meets.map {α β : Type} {f : α → β} {xs ys : List α} {n : ℕ} (h : Meets xs ys n)
    (hf : ∀ x ∈ xs, ∀ y ∈ ys, f x = f y → x = y) : Meets (xs.map f) (ys.map f) n := by
  obtain ⟨front, z, behind, front', behind', rfl, rfl, hfirst, rfl⟩ := h
  refine ⟨front.map f, f z, behind.map f, front'.map f, behind'.map f, by simp, by simp, ?_,
    by simp⟩
  simp only [List.forall_mem_map]
  intro w hw hmem
  exact hfirst w hw (mem_of_map_mem (hf w (by simp [hw])) hmem)

namespace Chart

theorem stepsAcross_eq_none_iff {start goal : List ℕ} :
    stepsAcross start goal = none ↔ ∀ body ∈ start, body ∉ goal := by
  simp only [stepsAcross, List.findSome?_eq_none_iff, Option.map_eq_none_iff,
    List.idxOf?_eq_none_iff]
  constructor
  · intro h body hbody
    obtain ⟨i, hi, rfl⟩ := List.getElem_of_mem hbody
    exact h (start[i], i) (List.mem_zipIdx_iff_getElem?.2 (List.getElem?_eq_getElem hi))
  · rintro h ⟨body, steps⟩ hmem
    exact h body (List.mem_of_getElem? (List.mem_zipIdx_iff_getElem?.1 hmem))

theorem meets_of_stepsAcross {start goal : List ℕ} {n : ℕ} (h : stepsAcross start goal = some n) :
    Meets start goal n := by
  obtain ⟨front, ⟨z, steps⟩, behind, hsplit, hfound, hfront⟩ := List.findSome?_eq_some_iff.1 h
  obtain ⟨front, behind, rfl, rfl, hrest⟩ := List.zipIdx_eq_append_iff.1 hsplit
  obtain ⟨_, behind, rfl, heq, -⟩ := List.zipIdx_eq_cons_iff.1 hrest.symm
  obtain ⟨rfl, rfl⟩ := Prod.mk.inj heq
  obtain ⟨i, hi, rfl⟩ := Option.map_eq_some_iff.1 hfound
  obtain ⟨hlt, hz, -⟩ := List.idxOf?_eq_some_iff.1 hi
  refine ⟨front, z, behind, goal.take i, goal.drop (i + 1), rfl, ?_, ?_, ?_⟩
  · rw [← hz, List.getElem_cons_drop, List.take_append_drop]
  · intro w hw
    obtain ⟨j, hj, rfl⟩ := List.getElem_of_mem hw
    have hnone := hfront (front[j], j)
      (List.mem_zipIdx_iff_getElem?.2 (List.getElem?_eq_getElem hj))
    exact List.idxOf?_eq_none_iff.1 (Option.map_eq_none_iff.1 hnone)
  · simp [hlt.le]

end Chart

/-! ### The forest of orbits -/

/-- Every body is joined to the centre of its first orbit. -/
def Orbit.graph (orbits : List Orbit) : SimpleGraph String :=
  linkGraph (Orbit.centreOf orbits)

variable {orbits : List Orbit} {start goal u v : String} {n : ℕ}

/-- The steps to where two lineages meet are the distance of the bodies at their starts. -/
theorem Meets.eq_dist {xs ys : List String} (hnone : ∀ body, ¬ Orbit.OnCycle orbits body)
    (hxs : Lineage (Orbit.centreOf orbits) u xs) (hys : Lineage (Orbit.centreOf orbits) v ys)
    (h : Meets (u :: xs) (v :: ys) n) : n = (Orbit.graph orbits).dist u v := by
  obtain ⟨front, z, behind, front', behind', hup, hdown, hfirst, rfl⟩ := h
  obtain ⟨p, hp, hlength⟩ := exists_path_of_lineages hnone hxs hys hup hdown hfirst
  rw [← hlength]
  exact length_eq_dist hnone hp

/-- The centres of bodies in one tree are in that tree. -/
theorem Orbit.reachable_centres (hu : Orbit.centreOf orbits start = some u)
    (hv : Orbit.centreOf orbits goal = some v) (h : (Orbit.graph orbits).Reachable start goal) :
    (Orbit.graph orbits).Reachable u v :=
  (reachable_of_links (.single hu)).symm.trans (h.trans (reachable_of_links (.single hv)))

namespace Chart

variable {c : Chart}

theorem transfers_eq_of_place {p q : ℕ} (hp : c.place start = .ok p) (hq : c.place goal = .ok q) :
    c.transfers start goal =
      match stepsAcross (c.ancestors p) (c.ancestors q) with
      | some steps => .ok steps
      | none => .error (.unsolvable (.noCommonOrbit start goal)) := by
  rw [transfers, hp, hq]
  rfl

theorem idxOf_nameAt {p : ℕ} (h : c.names.Nodup) (hp : p < c.size) :
    c.names.idxOf (c.nameAt p) = p := by
  rw [size_eq] at hp
  rw [nameAt, name?_eq, List.getElem?_eq_getElem hp]
  exact h.idxOf_getElem p hp

namespace Shows

/-- A body on a chart, and the names of its ancestors. -/
theorem exists_place (h : c.Shows orbits) (hnone : ∀ body, ¬ Orbit.OnCycle orbits body)
    (hstart : Orbit.Named orbits start) :
    ∃ p < c.size, c.place start = .ok p ∧
      Lineage (Orbit.centreOf orbits) start ((c.ancestors p).map c.nameAt) := by
  obtain ⟨p, hplace, hname⟩ := exists_place_eq_ok ((h.mem_names start).2 hstart)
  have hp : p < c.size := by
    rw [size_eq]
    exact (List.getElem?_eq_some_iff.1 hname).1
  have hlineage := h.lineage_names hp (h.lineage_ancestors hnone hp)
  rw [nameAt, name?_eq, hname] at hlineage
  exact ⟨p, hp, hplace, hlineage⟩

/-- Between two bodies there are transfers exactly if their lineages meet. -/
theorem exists_lineages (h : c.Shows orbits) (hnone : ∀ body, ¬ Orbit.OnCycle orbits body)
    (hstart : Orbit.Named orbits start) (hgoal : Orbit.Named orbits goal) :
    ∃ xs ys, Lineage (Orbit.centreOf orbits) start xs ∧ Lineage (Orbit.centreOf orbits) goal ys ∧
      ((∃ n, Meets xs ys n ∧ c.transfers start goal = .ok n) ∨
        (∀ z ∈ xs, z ∉ ys) ∧
          c.transfers start goal = .error (.unsolvable (.noCommonOrbit start goal))) := by
  obtain ⟨p, hp, hplace, hxs⟩ := h.exists_place hnone hstart
  obtain ⟨q, hq, hplace', hys⟩ := h.exists_place hnone hgoal
  have hinj : ∀ x ∈ c.ancestors p, ∀ y ∈ c.ancestors q, c.nameAt x = c.nameAt y → x = y := by
    intro x hx y hy heq
    have hlt := lt_size_of_mem h hp (h.lineage_ancestors hnone hp).isChain x (by simp [hx])
    have hlt' := lt_size_of_mem h hq (h.lineage_ancestors hnone hq).isChain y (by simp [hy])
    rw [← idxOf_nameAt h.nodup hlt, heq, idxOf_nameAt h.nodup hlt']
  refine ⟨_, _, hxs, hys, ?_⟩
  rw [transfers_eq_of_place hplace hplace']
  cases hsteps : stepsAcross (c.ancestors p) (c.ancestors q) with
  | some n => exact .inl ⟨n, (meets_of_stepsAcross hsteps).map hinj, rfl⟩
  | none =>
    refine .inr ⟨?_, rfl⟩
    simp only [List.forall_mem_map]
    intro x hx hmem
    exact stepsAcross_eq_none_iff.1 hsteps x hx (mem_of_map_mem (hinj x hx) hmem)

/-- **The transfers between two bodies are the distance of their centres.**  There are none if one
of the bodies has no centre or the bodies are not in one tree. -/
theorem transfers_of_named (h : c.Shows orbits) (hnone : ∀ body, ¬ Orbit.OnCycle orbits body)
    (hstart : Orbit.Named orbits start) (hgoal : Orbit.Named orbits goal) :
    (∃ u v, Orbit.centreOf orbits start = some u ∧ Orbit.centreOf orbits goal = some v ∧
      (Orbit.graph orbits).Reachable start goal ∧
      c.transfers start goal = .ok ((Orbit.graph orbits).dist u v)) ∨
    ((Orbit.centreOf orbits start = none ∨ Orbit.centreOf orbits goal = none ∨
        ¬ (Orbit.graph orbits).Reachable start goal) ∧
      c.transfers start goal = .error (.unsolvable (.noCommonOrbit start goal))) := by
  obtain ⟨xs, ys, hxs, hys, hanswer⟩ := h.exists_lineages hnone hstart hgoal
  cases hxs with
  | root hu =>
    rcases hanswer with ⟨n, hmeets, -⟩ | ⟨-, hanswer⟩
    · obtain ⟨z, hz, -⟩ := hmeets.exists_mem
      cases hz
    · exact .inr ⟨.inl hu, hanswer⟩
  | @link _ u xs hu hxs =>
    cases hys with
    | root hv =>
      rcases hanswer with ⟨n, hmeets, -⟩ | ⟨-, hanswer⟩
      · obtain ⟨z, -, hz⟩ := hmeets.exists_mem
        cases hz
      · exact .inr ⟨.inr (.inl hv), hanswer⟩
    | @link _ v ys hv hys =>
      have hreach : (Orbit.graph orbits).Reachable start goal ↔ ∃ z ∈ u :: xs, z ∈ v :: ys :=
        reachable_iff (.link hu hxs) (.link hv hys) (List.cons_ne_nil _ _) (List.cons_ne_nil _ _)
      rcases hanswer with ⟨n, hmeets, hanswer⟩ | ⟨hapart, hanswer⟩
      · rw [hmeets.eq_dist hnone hxs hys] at hanswer
        exact .inl ⟨u, v, hu, hv, hreach.2 hmeets.exists_mem, hanswer⟩
      · refine .inr ⟨.inr (.inr fun hsame => ?_), hanswer⟩
        obtain ⟨z, hz, hz'⟩ := hreach.1 hsame
        exact hapart z hz hz'

/-- The first of two names is looked up first. -/
theorem transfers_of_not_named (h : c.Shows orbits) :
    (¬ Orbit.Named orbits start → c.transfers start goal = .error (.unknownBody start)) ∧
    (Orbit.Named orbits start → ¬ Orbit.Named orbits goal →
      c.transfers start goal = .error (.unknownBody goal)) := by
  simp only [← h.mem_names]
  constructor
  · intro hstart
    rw [transfers, place_eq_error_iff.2 ⟨hstart, rfl⟩]
    rfl
  · intro hstart hgoal
    obtain ⟨p, hplace, -⟩ := exists_place_eq_ok hstart
    rw [transfers, hplace, place_eq_error_iff.2 ⟨hgoal, rfl⟩]
    rfl

theorem transfers_eq_ok_iff (h : c.Shows orbits) (hnone : ∀ body, ¬ Orbit.OnCycle orbits body) :
    c.transfers start goal = .ok n ↔
      ∃ u v, Orbit.centreOf orbits start = some u ∧ Orbit.centreOf orbits goal = some v ∧
        (Orbit.graph orbits).Reachable start goal ∧ (Orbit.graph orbits).dist u v = n := by
  constructor
  · intro hanswer
    have hstart : Orbit.Named orbits start := by
      by_contra hunknown
      rw [h.transfers_of_not_named.1 hunknown] at hanswer
      cases hanswer
    have hgoal : Orbit.Named orbits goal := by
      by_contra hunknown
      rw [h.transfers_of_not_named.2 hstart hunknown] at hanswer
      cases hanswer
    rcases h.transfers_of_named hnone hstart hgoal with ⟨u, v, hu, hv, hreach, hok⟩ | ⟨-, herror⟩
    · exact ⟨u, v, hu, hv, hreach, Except.ok.inj (hok.symm.trans hanswer)⟩
    · rw [herror] at hanswer
      cases hanswer
  · rintro ⟨u, v, hu, hv, hreach, rfl⟩
    have hanswer := h.transfers_of_named hnone (Orbit.named_of_centreOf hu).1
      (Orbit.named_of_centreOf hv).1
    rw [hu, hv] at hanswer
    rcases hanswer with ⟨_, _, ⟨⟩, ⟨⟩, -, hok⟩ | ⟨hroot | hroot | hapart, -⟩
    · exact hok
    · cases hroot
    · cases hroot
    · exact (hapart hreach).elim

/-- Transfers are counted alike there and back. -/
theorem transfers_comm (h : c.Shows orbits) (hnone : ∀ body, ¬ Orbit.OnCycle orbits body) :
    c.transfers start goal = .ok n ↔ c.transfers goal start = .ok n := by
  have hback : ∀ {a b}, c.transfers a b = .ok n → c.transfers b a = .ok n := by
    intro a b hanswer
    obtain ⟨u, v, hu, hv, hreach, hdist⟩ := (h.transfers_eq_ok_iff hnone).1 hanswer
    rw [SimpleGraph.dist_comm] at hdist
    exact (h.transfers_eq_ok_iff hnone).2 ⟨v, u, hv, hu, hreach.symm, hdist⟩
  exact ⟨hback, hback⟩

/-- To go by a third body takes no fewer transfers. -/
theorem transfers_le (h : c.Shows orbits) (hnone : ∀ body, ¬ Orbit.OnCycle orbits body)
    {stop : String} {m k : ℕ} (hdirect : c.transfers start goal = .ok n)
    (hfirst : c.transfers start stop = .ok m) (hsecond : c.transfers stop goal = .ok k) :
    n ≤ m + k := by
  obtain ⟨u, v, hu, hv, -, rfl⟩ := (h.transfers_eq_ok_iff hnone).1 hdirect
  obtain ⟨u', w, hu', hw, hto, rfl⟩ := (h.transfers_eq_ok_iff hnone).1 hfirst
  obtain ⟨w', v', hw', hv', hfrom, rfl⟩ := (h.transfers_eq_ok_iff hnone).1 hsecond
  cases hu.symm.trans hu'
  cases hv.symm.trans hv'
  cases hw.symm.trans hw'
  obtain ⟨p, hp⟩ := (Orbit.reachable_centres hu hw hto).exists_walk_length_eq_dist
  obtain ⟨q, hq⟩ := (Orbit.reachable_centres hw hv hfrom).exists_walk_length_eq_dist
  calc (Orbit.graph orbits).dist u v ≤ (p.append q).length := SimpleGraph.dist_le _
    _ = p.length + q.length := SimpleGraph.Walk.length_append p q
    _ = (Orbit.graph orbits).dist u w + (Orbit.graph orbits).dist w v := by rw [hp, hq]

end Shows

/-- **Transfers are counted along the only path between two centres.**  Hence the answers there and
back are alike, and to go by a third body takes no fewer transfers. -/
theorem transfers_of_parse {text : String} (h : parse text = .ok c) :
    ∃ orbits, Orbit.parseAll text = .ok orbits ∧
      (∀ start goal,
        (¬ Orbit.Named orbits start → c.transfers start goal = .error (.unknownBody start)) ∧
        (Orbit.Named orbits start → ¬ Orbit.Named orbits goal →
          c.transfers start goal = .error (.unknownBody goal)) ∧
        (Orbit.Named orbits start → Orbit.Named orbits goal →
          (Orbit.centreOf orbits start = none ∨ Orbit.centreOf orbits goal = none ∨
            ¬ (Orbit.graph orbits).Reachable start goal) →
          c.transfers start goal = .error (.unsolvable (.noCommonOrbit start goal))) ∧
        (∀ u v, Orbit.centreOf orbits start = some u → Orbit.centreOf orbits goal = some v →
          (Orbit.graph orbits).Reachable start goal →
          ∃ p : (Orbit.graph orbits).Walk u v, p.IsPath ∧
            (∀ q : (Orbit.graph orbits).Walk u v, q.IsPath → q = p) ∧
            c.transfers start goal = .ok p.length)) ∧
      (∀ a b, Orbit.Named orbits a → Orbit.Named orbits b →
        (∃ n, c.transfers a b = .ok n ∧ c.transfers b a = .ok n) ∨
        (c.transfers a b = .error (.unsolvable (.noCommonOrbit a b)) ∧
          c.transfers b a = .error (.unsolvable (.noCommonOrbit b a)))) ∧
      (∀ a b d n m k, c.transfers a d = .ok n → c.transfers a b = .ok m →
        c.transfers b d = .ok k → n ≤ m + k) := by
  obtain ⟨orbits, hread, hnone, rfl⟩ := parse_eq_ok_iff.1 h
  have hshows := ofOrbits_shows orbits
  refine ⟨orbits, hread, fun start goal => ⟨hshows.transfers_of_not_named.1,
    hshows.transfers_of_not_named.2, ?_, ?_⟩, ?_, fun _ _ _ _ _ _ => hshows.transfers_le hnone⟩
  · intro hstart hgoal hapart
    rcases hshows.transfers_of_named hnone hstart hgoal with
      ⟨u, v, hu, hv, hreach, -⟩ | ⟨-, hanswer⟩
    · simp [hu, hv, hreach] at hapart
    · exact hanswer
  · intro u v hu hv hreach
    obtain ⟨p, hp, hlength⟩ := (Orbit.reachable_centres hu hv hreach).exists_path_of_dist
    have hunique := (isAcyclic_linkGraph hnone).subsingleton_path u v
    refine ⟨p, hp, fun q hq => Subtype.mk.inj (hunique.elim ⟨q, hq⟩ ⟨p, hp⟩), ?_⟩
    exact (hshows.transfers_eq_ok_iff hnone).2 ⟨u, v, hu, hv, hreach, hlength.symm⟩
  · intro a b ha hb
    rcases hshows.transfers_of_named hnone ha hb with ⟨u, v, -, -, -, hanswer⟩ | ⟨hapart, hanswer⟩
    · exact .inl ⟨_, hanswer, (hshows.transfers_comm hnone).1 hanswer⟩
    · rcases hshows.transfers_of_named hnone hb ha with ⟨u, v, -, -, -, hback⟩ | ⟨-, hback⟩
      · have hforth := (hshows.transfers_comm hnone).1 hback
        rw [hanswer] at hforth
        cases hforth
      · exact .inr ⟨hanswer, hback⟩

/-- From `C` to the body `B` that it orbits itself there is one transfer, to the body `A` that `B`
orbits; `A` orbits nothing, and `Z` is on no chart. -/
theorem transfers_of_parse_ancestor :
    ∃ c orbits, parse "A)B\nB)C\nX)Y" = .ok c ∧ Orbit.parseAll "A)B\nB)C\nX)Y" = .ok orbits ∧
      (∃ p : (Orbit.graph orbits).Walk "B" "A", p.IsPath ∧ c.transfers "C" "B" = .ok p.length) ∧
      c.transfers "A" "C" = .error (.unsolvable (.noCommonOrbit "A" "C")) ∧
      c.transfers "Z" "C" = .error (.unknownBody "Z") := by
  have hread : parse "A)B\nB)C\nX)Y" = .ok
      ⟨#[⟨"A", none⟩, ⟨"B", some 0⟩, ⟨"C", some 1⟩, ⟨"X", none⟩, ⟨"Y", some 3⟩]⟩ := by
    decide +kernel
  have hlines : Orbit.parseAll "A)B\nB)C\nX)Y" = .ok [⟨"A", "B"⟩, ⟨"B", "C"⟩, ⟨"X", "Y"⟩] := by
    decide +kernel
  obtain ⟨orbits, horbits, hanswers, -⟩ := transfers_of_parse hread
  cases hlines.symm.trans horbits
  have hlink : Links (Orbit.centreOf [⟨"A", "B"⟩, ⟨"B", "C"⟩, ⟨"X", "Y"⟩]) "C" "B" := rfl
  obtain ⟨p, hp, -, hanswer⟩ :=
    (hanswers "C" "B").2.2.2 "B" "A" hlink (by decide) (reachable_of_links (.single hlink))
  refine ⟨_, _, hread, hlines, ⟨p, hp, hanswer⟩, (hanswers "A" "C").2.2.1 ?_ ?_ (.inl (by decide)),
    (hanswers "Z" "C").1 ?_⟩
  all_goals simp [Orbit.Named]

end Chart

end Shipboard
