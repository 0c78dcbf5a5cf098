import Mathlib.Order.Bounds.Basic
import PerfDrift.Proofs.Samples.Domination

/-! Quantiles as interpolated order statistics.

The quantile at `q` of `n` numbers is `(n - 1) · q` steps from the least of them on: after a
whole number of steps one of the numbers, otherwise on the way between its two neighbours
(`interpolated`). Over exact numbers this is what a quantile is, with the frame that the samples
are placed in and without it (`quantile_eq_interpolated`). So it begins at the least sample, ends
at the greatest and goes up between them, it does not see the order of the samples, and it
follows every sample that grows (`quantile_interpolates`). -/
namespace PerfDrift.Samples
open Arithmetic
variable {α : Type} [Field α] [LinearOrder α] [FloorSemiring α]

/-! ### Order statistics -/

/-- The number that has `i` others before it in ascending order. -/
def orderStatistic (xs : List α) (i : ℕ) : α := (xs.insertionSort (· ≤ ·)).getD i 0

/-- The place `(n - 1) · q` among `n` numbers, divided between the order statistics on either side
as the distances to them are. -/
def interpolated (xs : List α) (q : α) : α :=
  let place := ((xs.length : α) - 1) * q
  let share := place - ⌊place⌋₊
  (1 - share) * orderStatistic xs ⌊place⌋₊ + share * orderStatistic xs ⌈place⌉₊

variable [Root α]

theorem mem_ascending {xs : List α} {x : α} : x ∈ ascending xs ↔ x ∈ xs := List.mem_mergeSort

/-- The order in which samples were taken is lost. -/
theorem ascending_of_perm {xs ys : List α} (h : ys.Perm xs) : ascending ys = ascending xs :=
  ((List.mergeSort_perm ys le).trans (h.trans (List.mergeSort_perm xs le).symm)).eq_of_pairwise
    (fun _ _ _ _ => le_antisymm) (ascending_sorted ys) (ascending_sorted xs)

theorem between_natCast [IsStrictOrderedRing α] (xs : List α) (k : ℕ) :
    between xs (k : α) = xs.getD k 0 := by
  rw [between_eq, low, Nat.floor_natCast, sub_self, zero_mul, add_zero]

/-- The number at a place of the samples in order is that of the order statistics. -/
theorem between_ascending {xs : List α} {place : α} (hplace : 0 ≤ place)
    (hend : ⌈place⌉₊ < xs.length) :
    between (ascending xs) place =
      (1 - (place - ⌊place⌋₊)) * orderStatistic xs ⌊place⌋₊ +
        (place - ⌊place⌋₊) * orderStatistic xs ⌈place⌉₊ := by
  have hlow : low (ascending xs) place = orderStatistic xs ⌊place⌋₊ := by
    rw [low, ascending_eq, orderStatistic]
  by_cases hwhole : place = ⌊place⌋₊
  · have hshare : place - ⌊place⌋₊ = 0 := sub_eq_zero.mpr hwhole
    rw [between_eq, hlow, hshare]
    ring
  · have hceil : ⌈place⌉₊ = ⌊place⌋₊ + 1 := by
      refine le_antisymm (Nat.ceil_le_floor_add_one place) ?_
      exact Nat.lt_ceil.mpr ((Nat.floor_le hplace).lt_of_ne (Ne.symm hwhole))
    have hhigh : high (ascending xs) place = orderStatistic xs ⌈place⌉₊ := by
      have hend' : ⌈place⌉₊ < (ascending xs).length := by rwa [length_ascending]
      rw [high, orderStatistic, ← ascending_eq, ← hceil, List.getD_eq_getElem _ _ hend',
        List.getD_eq_getElem _ _ hend']
    rw [between_eq, hlow, hhigh]
    ring

/-! ### Quantiles -/

variable [IsStrictOrderedRing α] {xs : List α}

section Quantile
variable (hne : xs ≠ []) {q : α}
include hne

theorem placedQuantile_eq_interpolated (hq : 0 ≤ q) (hq' : q ≤ 1) :
    placedQuantile xs q = interpolated xs q := by
  have hcount : (0 : α) ≤ (xs.length - 1 : ℕ) := Nat.cast_nonneg _
  have hend : ⌈((xs.length - 1 : ℕ) * q : α)⌉₊ < xs.length := by
    have hplace := Nat.ceil_le.mpr (mul_le_of_le_one_right hcount hq')
    have hlength := List.length_pos_iff.mpr hne
    omega
  have hlast : ((xs.length - 1 : ℕ) : α) = xs.length - 1 :=
    Nat.cast_pred (List.length_pos_iff.mpr hne)
  rw [placedQuantile_eq hne, between_ascending (mul_nonneg hcount hq) hend, interpolated, hlast]

/-- Placing the samples in a frame and restoring the result changes nothing. -/
theorem quantile_eq_placedQuantile (hq : 0 ≤ q) (hq' : q ≤ 1) :
    quantile xs q = placedQuantile xs q := by
  rw [quantile_eq hne hq hq', placedQuantile_eq hne]

theorem quantile_of_perm {ys : List α} (h : ys.Perm xs) (hq : 0 ≤ q) (hq' : q ≤ 1) :
    quantile ys q = quantile xs q := by
  have hne' : ys ≠ [] := fun he => hne (he ▸ h).nil_eq.symm
  rw [quantile_eq hne' hq hq', quantile_eq hne hq hq', ascending_of_perm h, h.length_eq]

/-- At zero stands the least sample. -/
theorem quantile_zero : IsLeast {x | x ∈ xs} (quantile xs 0) := by
  have hlength : 0 < (ascending xs).length := by
    rw [length_ascending]
    exact List.length_pos_iff.mpr hne
  have hfirst : quantile xs 0 = (ascending xs)[0] := by
    rw [quantile_eq hne le_rfl zero_le_one, mul_zero, ← Nat.cast_zero, between_natCast,
      List.getD_eq_getElem _ _ hlength]
  rw [hfirst]
  refine ⟨mem_ascending.mp (List.getElem_mem hlength), fun x hx => ?_⟩
  obtain ⟨i, hi, rfl⟩ := List.getElem_of_mem (mem_ascending.mpr hx)
  have hmono := getD_mono (ascending_sorted xs) (Nat.zero_le i) hi 0 0
  rwa [List.getD_eq_getElem _ _ hlength, List.getD_eq_getElem _ _ hi] at hmono

/-- At one stands the greatest sample. -/
theorem quantile_one : IsGreatest {x | x ∈ xs} (quantile xs 1) := by
  have hlength : xs.length - 1 < (ascending xs).length := by
    rw [length_ascending]
    exact Nat.sub_one_lt_of_lt (List.length_pos_iff.mpr hne)
  have hlast : quantile xs 1 = (ascending xs)[xs.length - 1] := by
    rw [quantile_eq hne zero_le_one le_rfl, mul_one, between_natCast,
      List.getD_eq_getElem _ _ hlength]
  rw [hlast]
  refine ⟨mem_ascending.mp (List.getElem_mem hlength), fun x hx => ?_⟩
  obtain ⟨i, hi, rfl⟩ := List.getElem_of_mem (mem_ascending.mpr hx)
  have hle : i ≤ xs.length - 1 := Nat.le_sub_one_of_lt (by rwa [length_ascending] at hi)
  have hmono := getD_mono (ascending_sorted xs) hle hlength 0 0
  rwa [List.getD_eq_getElem _ _ hlength, List.getD_eq_getElem _ _ hi] at hmono

end Quantile

/-- What the quantile at a `q` of some samples is, and how it moves. -/
structure Interpolates (xs : List α) (q : α) : Prop where
  interpolated : quantile xs q = interpolated xs q
  unplaced : quantile xs q = placedQuantile xs q
  least : ∃ x, IsLeast {x | x ∈ xs} x ∧ x ≤ quantile xs q
  greatest : ∃ x, IsGreatest {x | x ∈ xs} x ∧ quantile xs q ≤ x
  permuted : ∀ ys, ys.Perm xs → quantile ys q = quantile xs q
  grown : ∀ ys, List.Forall₂ (· ≤ ·) xs ys → quantile xs q ≤ quantile ys q
  further : ∀ q', q ≤ q' → q' ≤ 1 → quantile xs q ≤ quantile xs q'

/-- **A quantile is one of the samples or on the line between two of them.** For samples that are
not empty and a `q` in `[0, 1]` the quantile is the interpolated order statistic of the samples
themselves; the frame that they are placed in cannot be told from the result. It lies between the
least sample and the greatest, is the same in whatever order the samples come, and is not lower
for a greater `q` or for samples of which some are greater. The distance between the quartiles is
never negative. -/
theorem quantile_interpolates (hne : xs ≠ []) :
    (∀ q, 0 ≤ q → q ≤ 1 → Interpolates xs q) ∧ 0 ≤ interquartile xs := by
  refine ⟨fun q hq hq' => ?_, interquartile_nonneg xs⟩
  exact
    { interpolated := by
        rw [quantile_eq_placedQuantile hne hq hq', placedQuantile_eq_interpolated hne hq hq']
      unplaced := quantile_eq_placedQuantile hne hq hq'
      least := ⟨_, quantile_zero hne, quantile_mono xs le_rfl hq hq'⟩
      greatest := ⟨_, quantile_one hne, quantile_mono xs hq hq' le_rfl⟩
      permuted := fun ys h => quantile_of_perm hne h hq hq'
      grown := fun ys h => quantile_le h hq hq'
      further := fun q' hle hle' => quantile_mono xs hq hle hle' }

/-- Samples out of order, two of them alike, and a place between two others. -/
theorem quantile_interpolates_trial :
    let xs : List ℚ := [9, 1, 5, 1]
    (xs ≠ [] ∧ (0 : ℚ) ≤ 5 / 6 ∧ (5 / 6 : ℚ) ≤ 1) ∧
      (quantile xs (5 / 6) = interpolated xs (5 / 6) ∧ interpolated xs (5 / 6) = 7) ∧
      quantile [1, 1, 5, 9] (5 / 6 : ℚ) = quantile xs (5 / 6) ∧
      quantile xs (5 / 6) ≤ quantile [9, 2, 6, 1] (5 / 6) ∧
      quantile xs (5 / 6) ≤ quantile xs (11 / 12) ∧ 0 ≤ interquartile xs := by
  intro xs
  have hne : xs ≠ [] := by decide
  have hq : (0 : ℚ) ≤ 5 / 6 := by norm_num
  have hq' : (5 / 6 : ℚ) ≤ 1 := by norm_num
  obtain ⟨h, hquartiles⟩ := quantile_interpolates hne
  have h := h (5 / 6) hq hq'
  refine ⟨⟨hne, hq, hq'⟩, ⟨h.interpolated, by decide +kernel⟩, h.permuted _ (by decide), ?_,
    h.further _ (by norm_num) (by norm_num), hquartiles⟩
  refine h.grown _ (.cons ?_ (.cons ?_ (.cons ?_ (.cons ?_ .nil)))) <;> norm_num

end PerfDrift.Samples
