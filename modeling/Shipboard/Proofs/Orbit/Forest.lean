import Mathlib.Combinatorics.SimpleGraph.Acyclic
import Mathlib.Combinatorics.SimpleGraph.Metric
import Mathlib.Tactic
import Shipboard.Proofs.Orbit.Lineage

/-!
# The forest of links

Links that never lead back to where they started are, without their directions, the edges of a
forest.

* `linkGraph next` joins the two ends of every link, and has no cycle (`isAcyclic_linkGraph`), so
  that there is one path at most between two elements;
* `reachable_iff`: elements with lineages are in one tree exactly if their lineages, themselves
  included, have a member in common;
* `exists_path_of_lineages`: the path between two elements leads up to the first member that their
  lineages have in common, and from there down.
-/

namespace Shipboard

variable {α : Type} {next : α → Option α} {x y z : α} {xs ys : List α}

/-- The two ends of every link are joined. -/
def linkGraph (next : α → Option α) : SimpleGraph α :=
  SimpleGraph.fromRel (Links next)

theorem adj_of_links (hacyclic : ∀ x, ¬ Relation.TransGen (Links next) x x) (h : Links next x y) :
    (linkGraph next).Adj x y := by
  refine (SimpleGraph.fromRel_adj _ _ _).2 ⟨?_, .inl h⟩
  rintro rfl
  exact hacyclic x (.single h)

/-! ### No cycles -/

/-- Without the link from it, an element is cut off from where the link leads: what remains joined
to it are the elements from which links lead to it. -/
theorem not_reachable_deleteEdges (hacyclic : ∀ x, ¬ Relation.TransGen (Links next) x x)
    (h : Links next x y) : ¬ ((linkGraph next).deleteEdges {s(x, y)}).Reachable x y := by
  intro hreach
  have hbelow : ∀ z, ((linkGraph next).deleteEdges {s(x, y)}).Reachable x z →
      Relation.ReflTransGen (Links next) z x := by
    intro z hz
    rw [SimpleGraph.reachable_iff_reflTransGen] at hz
    induction hz with
    | refl => exact .refl
    | @tail v w _ hadj ih =>
      obtain ⟨hadj, hedge⟩ := SimpleGraph.deleteEdges_adj.1 hadj
      rcases ((SimpleGraph.fromRel_adj _ _ _).1 hadj).2 with hlink | hlink
      · rcases Relation.ReflTransGen.cases_head ih with rfl | ⟨w', hlink', hlater⟩
        · cases h.symm.trans hlink
          exact (hedge rfl).elim
        · cases hlink.symm.trans hlink'
          exact hlater
      · exact .head hlink ih
  exact hacyclic x (Relation.TransGen.head' h (hbelow y hreach))

/-- **Links that never lead back are the edges of a forest.** -/
theorem isAcyclic_linkGraph (hacyclic : ∀ x, ¬ Relation.TransGen (Links next) x x) :
    (linkGraph next).IsAcyclic := by
  rw [SimpleGraph.isAcyclic_iff_forall_adj_isBridge]
  intro v w hadj
  rw [SimpleGraph.isBridge_iff]
  rcases ((SimpleGraph.fromRel_adj _ _ _).1 hadj).2 with hlink | hlink
  · exact not_reachable_deleteEdges hacyclic hlink
  · rw [Sym2.eq_swap]
    exact fun hreach => not_reachable_deleteEdges hacyclic hlink hreach.symm

/-- A path is as long as the distance between its ends. -/
theorem length_eq_dist (hacyclic : ∀ x, ¬ Relation.TransGen (Links next) x x)
    {p : (linkGraph next).Walk x y} (hp : p.IsPath) : p.length = (linkGraph next).dist x y := by
  obtain ⟨q, hq, hlength⟩ := p.reachable.exists_path_of_dist
  have hunique := (isAcyclic_linkGraph hacyclic).subsingleton_path x y
  rw [← hlength, Subtype.mk.inj (hunique.elim ⟨p, hp⟩ ⟨q, hq⟩)]

/-! ### Trees -/

theorem reachable_of_links (h : Relation.ReflTransGen (Links next) x y) :
    (linkGraph next).Reachable x y := by
  induction h with
  | refl => rfl
  | @tail y z _ hlink ih =>
    by_cases hyz : y = z
    · exact hyz ▸ ih
    · exact ih.trans ((SimpleGraph.fromRel_adj _ _ _).2 ⟨hyz, .inl hlink⟩).reachable

/-- What is joined to an element leads to the same end. -/
theorem links_of_reachable (hz : next z = none) (hx : Relation.ReflTransGen (Links next) x z)
    (h : (linkGraph next).Reachable x y) : Relation.ReflTransGen (Links next) y z := by
  rw [SimpleGraph.reachable_iff_reflTransGen] at h
  induction h with
  | refl => exact hx
  | @tail v w _ hadj ih =>
    rcases ((SimpleGraph.fromRel_adj _ _ _).1 hadj).2 with hlink | hlink
    · rcases Relation.ReflTransGen.cases_head ih with rfl | ⟨w', hlink', hlater⟩
      · rw [Links, hz] at hlink
        cases hlink
      · cases hlink.symm.trans hlink'
        exact hlater
    · exact .head hlink ih

/-- Every lineage has an end. -/
theorem Lineage.exists_end (h : Lineage next x xs) :
    ∃ z, next z = none ∧ Relation.ReflTransGen (Links next) x z := by
  induction h with
  | root h => exact ⟨_, h, .refl⟩
  | link h _ ih =>
    obtain ⟨z, hz, hlinks⟩ := ih
    exact ⟨z, hz, .head h hlinks⟩

/-- Elements that are linked to others are in one tree exactly if their lineages meet. -/
theorem reachable_iff (hx : Lineage next x xs) (hy : Lineage next y ys) (hxs : xs ≠ [])
    (hys : ys ≠ []) : (linkGraph next).Reachable x y ↔ ∃ z ∈ xs, z ∈ ys := by
  constructor
  · intro h
    obtain ⟨z, hz, hlinks⟩ := hx.exists_end
    -- the common end is neither of the elements, since they are linked to others
    have hmem : ∀ {v vs}, Lineage next v vs → vs ≠ [] →
        Relation.ReflTransGen (Links next) v z → z ∈ vs := by
      intro v vs hv hvs hlinks
      rcases Relation.reflTransGen_iff_eq_or_transGen.1 hlinks with rfl | hlinks
      · exact (hvs (hv.eq_nil_iff.2 hz)).elim
      · exact hv.mem_iff.2 hlinks
    exact ⟨z, hmem hx hxs hlinks, hmem hy hys (links_of_reachable hz hlinks h)⟩
  · rintro ⟨z, hzx, hzy⟩
    exact (reachable_of_links (hx.mem_iff.1 hzx).to_reflTransGen).trans
      (reachable_of_links (hy.mem_iff.1 hzy).to_reflTransGen).symm

/-! ### Paths -/

theorem exists_walk_of_isChain {G : SimpleGraph α} {vs : List α} (hchain : vs.IsChain G.Adj)
    (hx : vs.head? = some x) (hy : vs.getLast? = some y) : ∃ p : G.Walk x y, p.support = vs := by
  have hne : vs ≠ [] := by
    rintro rfl
    cases hx
  obtain rfl : vs.head hne = x := Option.some.inj ((List.head?_eq_some_head hne).symm.trans hx)
  obtain rfl : vs.getLast hne = y :=
    Option.some.inj ((List.getLast?_eq_some_getLast hne).symm.trans hy)
  exact ⟨.ofSupport vs hne hchain, SimpleGraph.Walk.support_ofSupport hne hchain⟩

/-- **The path between two elements leads up to where their lineages meet, and down again.** -/
theorem exists_path_of_lineages (hacyclic : ∀ x, ¬ Relation.TransGen (Links next) x x)
    {front behind front' behind' : List α} (hx : Lineage next x xs) (hy : Lineage next y ys)
    (hup : x :: xs = front ++ z :: behind) (hdown : y :: ys = front' ++ z :: behind')
    (hdisjoint : ∀ w ∈ front, w ∉ y :: ys) :
    ∃ p : (linkGraph next).Walk x y, p.IsPath ∧ p.length = front.length + front'.length := by
  have hchain : List.IsChain (linkGraph next).Adj (front ++ z :: front'.reverse) := by
    refine List.isChain_split.2 ⟨?_, ?_⟩
    · have hlinks := hx.isChain
      rw [hup] at hlinks
      exact (List.isChain_split.1 hlinks).1.imp fun _ _ => adj_of_links hacyclic
    · have hlinks := hy.isChain
      rw [hdown] at hlinks
      rw [← List.reverse_concat, List.isChain_reverse]
      exact (List.isChain_split.1 hlinks).1.imp fun _ _ hlink => (adj_of_links hacyclic hlink).symm
  have hhead : (front ++ z :: front'.reverse).head? = some x := by
    have hfirst := congrArg List.head? hup
    cases front <;> simpa using hfirst.symm
  have hlast : (front ++ z :: front'.reverse).getLast? = some y := by
    have hfirst := congrArg List.head? hdown
    rw [List.getLast?_append_cons, ← List.reverse_concat, List.getLast?_reverse]
    cases front' <;> simpa using hfirst.symm
  obtain ⟨p, hp⟩ := exists_walk_of_isChain hchain hhead hlast
  refine ⟨p, SimpleGraph.Walk.isPath_def _ |>.2 ?_, ?_⟩
  · have hnodup := hx.nodup
    have hnodup' := hy.nodup
    rw [hup] at hnodup
    rw [hdown] at hnodup' hdisjoint
    rw [hp]
    simp only [List.nodup_append, List.nodup_cons, List.mem_append, List.mem_cons,
      List.nodup_reverse, List.mem_reverse] at hnodup hnodup' hdisjoint ⊢
    obtain ⟨hfront, -, hapart⟩ := hnodup
    obtain ⟨hfront', -, hapart'⟩ := hnodup'
    refine ⟨hfront, ⟨fun hz => hapart' z hz z (.inl rfl) rfl, hfront'⟩, fun v hv w hw => ?_⟩
    rcases hw with rfl | hw
    · exact hapart v hv w (.inl rfl)
    · rintro rfl
      exact hdisjoint v hv (.inl hw)
  · have hlength := congrArg List.length hp
    rw [SimpleGraph.Walk.length_support] at hlength
    simp at hlength
    omega

end Shipboard
