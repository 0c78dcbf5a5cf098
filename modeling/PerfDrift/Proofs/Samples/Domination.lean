import Mathlib.Algebra.Order.BigOperators.Group.List
import Mathlib.Data.List.Forall2
import PerfDrift.Proofs.Samples.Quantile

/-! Samples that are nowhere greater.

Where no sample of a list is above the one at the same place of another list, no statistic of
where the samples lie is: not the sum, not the mean, and no quantile either, although the order
of the samples may differ between the two lists (`ascending_le`, `quantile_le`). -/
namespace PerfDrift.Samples
open Arithmetic
variable {α : Type}

/-! ### Lists in order -/

section Order
variable [LinearOrder α]

/-- The least of a list in order is inserted in front. -/
theorem orderedInsert_eq_cons {x : α} {xs : List α} (h : ∀ y ∈ xs, x ≤ y) :
    xs.orderedInsert (· ≤ ·) x = x :: xs := by
  cases xs with
  | nil => rfl
  | cons y ys => exact List.orderedInsert_cons_of_le _ ys (h y List.mem_cons_self)

/-- A sample that is not above another one may be inserted where that is, or in front. -/
theorem orderedInsert_le {xs ys : List α} (h : List.Forall₂ (· ≤ ·) xs ys)
    (hx : xs.Pairwise (· ≤ ·)) (hy : ys.Pairwise (· ≤ ·)) {a b : α} (hab : a ≤ b) :
    List.Forall₂ (· ≤ ·) (xs.orderedInsert (· ≤ ·) a) (ys.orderedInsert (· ≤ ·) b) := by
  induction h generalizing a b with
  | nil => exact .cons hab .nil
  | @cons x y xs ys hxy h ih =>
    obtain ⟨hfirst, hx⟩ := List.pairwise_cons.mp hx
    obtain ⟨hfirst', hy⟩ := List.pairwise_cons.mp hy
    rw [List.orderedInsert_cons, List.orderedInsert_cons]
    split
    · next hax =>
      split
      · exact .cons hab (.cons hxy h)
      · next hby =>
        -- The sample goes in front, the other one behind: the rest is pushed back by one.
        have hxb : x ≤ b := hxy.trans (not_le.mp hby).le
        have hrest := ih hx hy hxb
        rw [orderedInsert_eq_cons hfirst] at hrest
        exact .cons (hax.trans hxy) hrest
    · next hax =>
      split
      · next hby =>
        have hrest := ih hx hy (hab.trans hby)
        rw [orderedInsert_eq_cons hfirst'] at hrest
        exact .cons ((not_le.mp hax).le.trans hab) hrest
      · exact .cons hxy (ih hx hy hab)

/-- Samples that are nowhere greater are nowhere greater in order. -/
theorem insertionSort_le {xs ys : List α} (h : List.Forall₂ (· ≤ ·) xs ys) :
    List.Forall₂ (· ≤ ·) (xs.insertionSort (· ≤ ·)) (ys.insertionSort (· ≤ ·)) := by
  induction h with
  | nil => exact .nil
  | @cons x y xs ys hxy h ih =>
    exact orderedInsert_le ih (List.pairwise_insertionSort _ xs) (List.pairwise_insertionSort _ ys)
      hxy

theorem getD_le_getD {xs ys : List α} (h : List.Forall₂ (· ≤ ·) xs ys) (i : ℕ) {d d' : α}
    (hd : d ≤ d') : xs.getD i d ≤ ys.getD i d' := by
  induction h generalizing i with
  | nil => exact hd
  | cons hxy h ih =>
    cases i with
    | zero => exact hxy
    | succ i => exact ih i

end Order

/-! ### Statistics -/

variable [Field α] [LinearOrder α] [FloorSemiring α] [Root α]

theorem mean_nonneg [IsStrictOrderedRing α] {xs : List α} (h : ∀ x ∈ xs, 0 ≤ x) :
    0 ≤ mean xs := by
  rw [mean, sum_eq, Exact.zero_eq]
  split
  · exact le_rfl
  · exact div_nonneg (List.sum_nonneg h) (Nat.cast_nonneg _)

variable {xs ys : List α} (h : List.Forall₂ (· ≤ ·) xs ys)
include h

theorem ascending_le : List.Forall₂ (· ≤ ·) (ascending xs) (ascending ys) := by
  rw [ascending_eq, ascending_eq]
  exact insertionSort_le h

variable [IsStrictOrderedRing α]

/-- Between samples that are nowhere greater stands nothing greater. -/
theorem between_le {place : α} (hplace : 0 ≤ place) : between xs place ≤ between ys place := by
  have hlow : low xs place ≤ low ys place := getD_le_getD h _ le_rfl
  have hhigh : high xs place ≤ high ys place := getD_le_getD h _ hlow
  have hshare : 0 ≤ place - ⌊place⌋₊ := sub_nonneg.mpr (Nat.floor_le hplace)
  have hshare' : 0 ≤ 1 - (place - ⌊place⌋₊) := by linarith [Nat.lt_floor_add_one place]
  calc between xs place
      = (1 - (place - ⌊place⌋₊)) * low xs place + (place - ⌊place⌋₊) * high xs place := by
        rw [between_eq]
        ring
    _ ≤ (1 - (place - ⌊place⌋₊)) * low ys place + (place - ⌊place⌋₊) * high ys place := by gcongr
    _ = between ys place := by
        rw [between_eq]
        ring

theorem quantile_le {q : α} (hq : 0 ≤ q) (hq' : q ≤ 1) : quantile xs q ≤ quantile ys q := by
  by_cases hne : xs = []
  · subst hne
    rw [List.forall₂_nil_left_iff.mp h]
  · have hne' : ys ≠ [] := fun he => hne (List.forall₂_nil_right_iff.mp (he ▸ h))
    rw [quantile_eq hne hq hq', quantile_eq hne' hq hq', h.length_eq]
    exact between_le (ascending_le h) (mul_nonneg (Nat.cast_nonneg _) hq)

theorem median_le : median xs ≤ median ys :=
  quantile_le h Exact.ofDecimal_nonneg (Exact.ofDecimal_le_one (by decide))

theorem mean_le : mean xs ≤ mean ys := by
  have hempty : xs.isEmpty = ys.isEmpty := by cases h <;> rfl
  rw [mean, mean, hempty, sum_eq, sum_eq, h.length_eq]
  split
  · exact le_rfl
  · exact div_le_div_of_nonneg_right h.sum_le_sum (Nat.cast_nonneg _)

end PerfDrift.Samples
