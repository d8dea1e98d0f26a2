/-!
# Arrangements

An arrangement of `k` entries of a list picks one entry after the other, no place twice.
Arrangements come in the order of the places that they pick, the first pick counting most.

* `selections` takes out one entry in every way;
* `arrangements` lists all arrangements;
* `foldArrangements` goes through them and stops at the first error, without making the list;
  `foldArrangements_eq` says that this makes no difference.
-/

namespace Shipboard

variable {α β ε : Type}

/-- Every entry of a list with the others, in order. -/
def selections : List α → List (α × List α)
  | [] => []
  | x :: xs => (x, xs) :: (selections xs).map fun (y, ys) => (y, x :: ys)

/-- Every arrangement of `k` entries of a list, in order. -/
def arrangements : Nat → List α → List (List α)
  | 0, _ => [[]]
  | k + 1, xs => (selections xs).flatMap fun (x, rest) => (arrangements k rest).map (x :: ·)

/-- Go through the arrangements that start with some entries, of which the last is given first, and
pick `k` more. -/
def foldArrangements (f : β → List α → Except ε β) :
    Nat → List α → List α → β → Except ε β
  | 0, picked, _, b => f b picked.reverse
  | k + 1, picked, xs, b =>
    (selections xs).foldlM (fun b (x, rest) => foldArrangements f k (x :: picked) rest b) b

private theorem foldlM_flatMap_map {γ : Type} (f : β → List α → Except ε β)
    (g : γ → List (List α)) (xs : List γ) (b : β) :
    (xs.flatMap g).foldlM f b = xs.foldlM (fun b x => (g x).foldlM f b) b := by
  induction xs generalizing b with
  | nil => rfl
  | cons x xs ih =>
    rw [List.flatMap_cons, List.foldlM_append, List.foldlM_cons]
    exact congrArg (fun k => (g x).foldlM f b >>= k) (funext fun b => ih b)

/-- Going through the arrangements is folding over their list. -/
theorem foldArrangements_eq (f : β → List α → Except ε β) (k : Nat) (picked xs : List α) (b : β) :
    foldArrangements f k picked xs b =
      ((arrangements k xs).map (picked.reverse ++ ·)).foldlM f b := by
  induction k generalizing picked xs b with
  | zero => simp [foldArrangements, arrangements]
  | succ k ih =>
    rw [foldArrangements, arrangements, List.map_flatMap, foldlM_flatMap_map]
    congr 1
    funext b ⟨x, rest⟩
    simp [ih, Function.comp_def]

end Shipboard
