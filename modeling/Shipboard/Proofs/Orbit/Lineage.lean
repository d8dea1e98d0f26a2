import Mathlib.Tactic

/-!
# Lineages

Links that lead from every element to one other element at most.  The lineage of an element is the
list of those that the links lead to, one after the other, if the links come to an end.

* `Links next x y`: the link from `x` leads to `y`;
* `Lineage next x xs`: the links from `x` lead through `xs`, and from its last member no further;
* an element has one lineage at most (`Lineage.unique`), which holds exactly the elements that links
  lead to (`Lineage.mem_iff`), and never the element itself nor any other twice (`Lineage.nodup`);
* links that meet an element twice lead to a circle (`exists_transGen_of_not_nodup`), and from an
  element with a lineage none does (`Lineage.not_transGen_of_links`).
-/

namespace Shipboard

variable {α β : Type} {next : α → Option α} {x y : α} {xs ys : List α}

/-- The link from one element leads to another. -/
def Links (next : α → Option α) (x y : α) : Prop :=
  next x = some y

/-- The links from an element lead through the members of a list, in order, and end there. -/
inductive Lineage (next : α → Option α) : α → List α → Prop
  | root {x : α} (h : next x = none) : Lineage next x []
  | link {x y : α} {ys : List α} (h : next x = some y) (hy : Lineage next y ys) :
    Lineage next x (y :: ys)

namespace Lineage

theorem unique (hx : Lineage next x xs) (hy : Lineage next x ys) : xs = ys := by
  induction hx generalizing ys with
  | root h =>
    cases hy with
    | root => rfl
    | link h' => rw [h] at h'; cases h'
  | link h _ ih =>
    cases hy with
    | root h' => rw [h] at h'; cases h'
    | link h' hy =>
      cases h.symm.trans h'
      rw [ih hy]

theorem eq_nil_iff (h : Lineage next x xs) : xs = [] ↔ next x = none := by
  cases h with
  | root h => simp [h]
  | link h => simp [h]

/-- A member's lineage is what stands behind it. -/
theorem of_append {front : List α} (h : Lineage next x (front ++ y :: ys)) : Lineage next y ys := by
  induction front generalizing x with
  | nil => cases h with | link _ hy => exact hy
  | cons z front ih => cases h with | link _ hz => exact ih hz

/-- A lineage holds the elements that links lead to. -/
theorem mem_iff (h : Lineage next x xs) : y ∈ xs ↔ Relation.TransGen (Links next) x y := by
  induction h with
  | root h =>
    rw [Relation.TransGen.head'_iff]
    simp [Links, h]
  | @link x z zs h hz ih =>
    rw [List.mem_cons, ih, @Relation.TransGen.head'_iff _ _ x]
    constructor
    · rintro (rfl | hlater)
      · exact ⟨y, h, .refl⟩
      · exact ⟨z, h, hlater.to_reflTransGen⟩
    · rintro ⟨w, hw, hlater⟩
      cases h.symm.trans hw
      exact Relation.reflTransGen_iff_eq_or_transGen.1 hlater

/-- No element is met twice: its lineage would be a part of itself. -/
theorem nodup (h : Lineage next x xs) : (x :: xs).Nodup := by
  induction h with
  | root => simp
  | @link x z zs h hz ih =>
    refine List.nodup_cons.2 ⟨fun hmem => ?_, ih⟩
    obtain ⟨front, behind, hsplit⟩ := List.append_of_mem hmem
    have hx : Lineage next x (front ++ x :: behind) := hsplit ▸ link h hz
    have hlength := congrArg List.length (hx.unique hx.of_append)
    simp at hlength
    omega

/-- The elements that links lead to have lineages themselves. -/
theorem exists_of_links (h : Lineage next x xs) (hy : Relation.ReflTransGen (Links next) x y) :
    ∃ ys, Lineage next y ys := by
  induction hy with
  | refl => exact ⟨xs, h⟩
  | tail _ hlink ih =>
    obtain ⟨ys, hys⟩ := ih
    cases hys with
    | root h' => cases h'.symm.trans hlink
    | link h' hz =>
      cases h'.symm.trans hlink
      exact ⟨_, hz⟩

/-- From an element with a lineage no links lead round in a circle. -/
theorem not_transGen_of_links (h : Lineage next x xs)
    (hy : Relation.ReflTransGen (Links next) x y) : ¬ Relation.TransGen (Links next) y y := by
  obtain ⟨ys, hys⟩ := h.exists_of_links hy
  exact fun hcircle => (List.nodup_cons.1 hys.nodup).1 (hys.mem_iff.2 hcircle)

theorem isChain (h : Lineage next x xs) : List.IsChain (Links next) (x :: xs) := by
  induction h with
  | root => exact .singleton _
  | link h _ ih => exact .cons_cons h ih

/-- A lineage seen through a function that keeps the links, and the ends among some elements that
links do not leave. -/
theorem map {other : β → Option β} {f : α → β} {P : α → Prop} (h : Lineage next x xs) (hx : P x)
    (hlink : ∀ y z, next y = some z → other (f y) = some (f z) ∧ P z)
    (hroot : ∀ y, P y → next y = none → other (f y) = none) : Lineage other (f x) (xs.map f) := by
  induction h with
  | root h => exact root (hroot _ hx h)
  | link h _ ih => exact link (hlink _ _ h).1 (ih (hlink _ _ h).2)

end Lineage

/-- Where links meet an element twice, they lead to a circle. -/
theorem exists_transGen_of_not_nodup (hchain : List.IsChain (Links next) (x :: xs))
    (hdup : ¬ (x :: xs).Nodup) :
    ∃ y, Relation.ReflTransGen (Links next) x y ∧ Relation.TransGen (Links next) y y := by
  have hpairwise : (x :: xs).Pairwise (Relation.TransGen (Links next)) :=
    (hchain.imp fun _ _ hlink => .single hlink).pairwise
  rw [List.nodup_iff_sublist] at hdup
  push Not at hdup
  obtain ⟨y, htwice⟩ := hdup
  have hcircle : Relation.TransGen (Links next) y y := by simpa using hpairwise.sublist htwice
  refine ⟨y, ?_, hcircle⟩
  rcases List.mem_cons.1 (htwice.subset List.mem_cons_self) with rfl | hmem
  · exact .refl
  · exact ((List.pairwise_cons.1 hpairwise).1 y hmem).to_reflTransGen

end Shipboard
