/-
Cutting a list of weighted items in two.

The cut is made where the running weight first reaches half of the total. The left part
may go beyond half by one item, so both parts fit in a limit when no item is heavier
than a third of it and the whole is at most one item above it (`cut_fits`).
-/

import Mathlib.Algebra.BigOperators.Group.List.Basic
import Mathlib.Tactic.Ring

namespace Saguaro.Balance

open List

variable {α : Type*} (weight : α → Nat)

def total (items : List α) : Nat := (items.map weight).sum

@[simp] theorem total_nil : total weight [] = 0 := rfl

@[simp] theorem total_cons (x : α) (items : List α) :
    total weight (x :: items) = weight x + total weight items := by
  simp [total]

@[simp] theorem total_append (front rest : List α) :
    total weight (front ++ rest) = total weight front + total weight rest := by
  simp [total]

theorem total_take_add_drop (n : Nat) (items : List α) :
    total weight (items.take n) + total weight (items.drop n) = total weight items := by
  rw [← total_append, take_append_drop]

theorem total_le_of_sublist {part items : List α} (h : part.Sublist items) :
    total weight part ≤ total weight items := by
  induction h with
  | slnil => exact Nat.le_refl _
  | cons x _ ih =>
    rw [total_cons]
    omega
  | cons_cons x _ ih =>
    rw [total_cons, total_cons]
    omega

/-- How many items it takes for the running weight, from `acc` on, to reach half of
`goal`; all of them when it does not. -/
def halfway (goal : Nat) : Nat → List α → Nat
  | _, [] => 0
  | acc, x :: items =>
    if goal ≤ (acc + weight x) * 2 then 1 else halfway goal (acc + weight x) items + 1

variable {goal acc bound : Nat} {items : List α}

theorem halfway_pos (ne : items ≠ []) : 0 < halfway weight goal acc items := by
  cases items with
  | nil => exact absurd rfl ne
  | cons x items =>
    unfold halfway
    split <;> omega

/-- Before the cut the running weight is at most half. -/
theorem halfway_before {k : Nat} (start : acc * 2 ≤ goal)
    (prior : k < halfway weight goal acc items) :
    (acc + total weight (items.take k)) * 2 ≤ goal := by
  induction items generalizing acc k with
  | nil => exact absurd prior (Nat.not_lt_zero k)
  | cons x items ih =>
    cases k with
    | zero => simpa using start
    | succ k =>
      unfold halfway at prior
      split at prior
      · omega
      have rest := @ih (acc + weight x) k (by omega) (by omega)
      rw [take_succ_cons, total_cons]
      omega

/-- At the cut it has reached half. -/
theorem halfway_reached (big : goal ≤ (acc + total weight items) * 2) :
    goal ≤ (acc + total weight (items.take (halfway weight goal acc items))) * 2 := by
  induction items generalizing acc with
  | nil => simpa using big
  | cons x items ih =>
    rw [total_cons] at big
    unfold halfway
    split
    · simpa using ‹_›
    have rest := @ih (acc + weight x) (by omega)
    rw [take_succ_cons, total_cons]
    omega

/-! ### Light items -/

variable (light : ∀ x ∈ items, weight x ≤ bound)

include light in
theorem total_le_mul : total weight items ≤ items.length * bound := by
  induction items with
  | nil => simp
  | cons x items ih =>
    have rest := ih fun y mem => light y (mem_cons_of_mem x mem)
    have head := light x (.head _)
    rw [total_cons, length_cons, Nat.succ_mul]
    omega

include light in
theorem total_take_succ_le (n : Nat) :
    total weight (items.take (n + 1)) ≤ total weight (items.take n) + bound := by
  rw [take_add_one, total_append]
  cases h : items[n]? with
  | none => simp
  | some x =>
    have head := light x (mem_of_getElem? h)
    simpa using head

include light in
/-- The parts on both sides of the cut, which is moved by one where it would leave the
right part empty. -/
theorem cut_fits {limit : Nat} (many : 2 ≤ items.length) (third : 3 * bound ≤ limit)
    (size : total weight items ≤ limit + bound) :
    let cut := min (halfway weight (total weight items) 0 items) (items.length - 1)
    total weight (items.take cut) ≤ limit ∧ total weight (items.drop cut) ≤ limit := by
  intro cut
  have ne : items ≠ [] := ne_nil_of_length_pos (by omega)
  have pos : 0 < halfway weight (total weight items) 0 items := halfway_pos weight ne
  have prior : (0 + total weight (items.take (cut - 1))) * 2 ≤ total weight items :=
    halfway_before weight (by omega) (by omega)
  have last := total_take_succ_le weight light (cut - 1)
  rw [show cut - 1 + 1 = cut by omega] at last
  have parts := total_take_add_drop weight cut items
  refine ⟨by omega, ?_⟩
  by_cases inside : halfway weight (total weight items) 0 items ≤ items.length - 1
  · have atCut : halfway weight (total weight items) 0 items = cut := by omega
    have reached : total weight items ≤ (0 + total weight (items.take cut)) * 2 :=
      atCut ▸ halfway_reached weight (by omega)
    omega
  -- Only the last item is on the right.
  have right : total weight (items.drop cut) ≤ (items.drop cut).length * bound :=
    total_le_mul weight fun x mem => light x (mem_of_mem_drop mem)
  rw [show (items.drop cut).length = 1 by rw [length_drop]; omega] at right
  omega

end Saguaro.Balance
