/-
Insertion sort as the stable sort. Two sorted lists merge, with ties to the left, into the sort
of what they were sorted from (`merge_insertionSort`). An element is only ever compared with
later ones, so an order may be refined by position (`map_insertionSort_of_pairwise`).
-/

import Mathlib.Data.List.Sort

namespace Saguaro.StableSort

open List

variable {α β : Type*} {r : α → α → Prop} [DecidableRel r] {s : β → β → Prop} [DecidableRel s]

theorem merge_orderedInsert [Std.Total r] [IsTrans α r] (a : α) (xs ys : List α) :
    merge (orderedInsert r a xs) ys (r · ·) = orderedInsert r a (merge xs ys (r · ·)) := by
  induction xs, ys using merge.induct (fun a b => decide (r a b)) with
  | case1 ys =>
    induction ys with
    | nil => simp
    | cons y ys ih => grind [cons_merge_cons, nil_merge]
  | case2 xs => simp
  | case3 x xs y ys h ih =>
    have := trans_of r (a := a) (b := x) (c := y)
    grind [cons_merge_cons]
  | case4 x xs y ys h ih =>
    have := total_of r a x
    have := trans_of r (a := x) (b := a) (c := y)
    grind [cons_merge_cons]

theorem merge_insertionSort [Std.Total r] [IsTrans α r] (xs ys : List α) :
    merge (xs.insertionSort r) (ys.insertionSort r) (r · ·) = (xs ++ ys).insertionSort r := by
  induction xs with
  | nil => simp
  | cons x xs ih => rw [insertionSort_cons, merge_orderedInsert, ih, cons_append, insertionSort_cons]

theorem map_insertionSort_of_pairwise {f : α → β} {xs : List α}
    (same : xs.Pairwise fun a b => r a b ↔ s (f a) (f b)) :
    (xs.insertionSort r).map f = (xs.map f).insertionSort s := by
  induction same with
  | nil => rfl
  | @cons a xs here _ ih =>
    have inserted {ys : List α} (same : ∀ b ∈ ys, r a b ↔ s (f a) (f b)) :
        (orderedInsert r a ys).map f = orderedInsert s (f a) (ys.map f) := by
      induction ys with
      | nil => rfl
      | cons b ys ih => grind
    rw [insertionSort_cons, inserted fun b mem => here b ((mem_insertionSort r).mp mem), ih]
    rfl

end Saguaro.StableSort
