import PerfDrift.Proofs.Number.Root
import PerfDrift.Proofs.Samples.Domination

/-! Statistics in a frame.

A frame puts samples on another scale, from another zero on. Over exact numbers means and
quantiles move with the samples and the variance goes with the square of the scale, so that the
samples could as well stay where they are: the variation is the exact standard deviation of the
samples relative to their mean (`variation_eq`). The one thing that does depend on the scale is
which means are too close to zero to be related to (`Vanishing`); in the same state in two units,
samples have the same variation in both (`variation_map_mul`). -/
namespace PerfDrift.Samples
open Arithmetic Root
variable {α : Type} [Field α] [LinearOrder α] [FloorSemiring α] [Root α]

/-! ### Means and medians -/

theorem mean_eq (xs : List α) : mean xs = xs.sum / xs.length := by
  cases xs with
  | nil => simp [mean]
  | cons x rest => simp [mean, sum_eq]

/-- A change of the unit is a frame with the same zero. -/
theorem Frame.place_unit (c : α) : Frame.place ⟨0, c⁻¹⟩ = fun x => c * x := by
  funext x
  rw [place_eq, sub_zero, div_inv_eq_mul, mul_comm]

theorem mean_map_mul (xs : List α) (c : α) : mean (xs.map (c * ·)) = c * mean xs := by
  rw [mean_eq, mean_eq, List.sum_map_mul_left, List.map_id', List.length_map, mul_div_assoc]

section Place
variable {xs : List α} (hne : xs ≠ [])
include hne

theorem mean_map_place (f : Frame α) : mean (xs.map f.place) = f.place (mean xs) := by
  have hsum : ∀ ys : List α, (ys.map f.place).sum = (ys.sum - ys.length * f.offset) / f.span := by
    intro ys
    induction ys with
    | nil => simp
    | cons y rest ih =>
      simp only [List.map_cons, List.sum_cons, List.length_cons, Nat.cast_succ, ih, Frame.place_eq]
      ring
  have hlength : (xs.length : α) ≠ 0 := by simpa using hne
  rw [mean_eq, mean_eq, hsum, List.length_map, Frame.place_eq]
  field_simp

variable [IsStrictOrderedRing α] {f : Frame α} (hspan : 0 < f.span)
include hspan

theorem quantile_map_place {q : α} (hq : 0 ≤ q) (hq' : q ≤ 1) :
    quantile (xs.map f.place) q = f.place (quantile xs q) := by
  have hend : ⌊((xs.length - 1 : ℕ) * q : α)⌋₊ < (ascending xs).length := by
    rw [length_ascending]
    exact floor_place_lt hne hq'
  have hrestore := restore_between_map_place hspan.ne' hend
  rw [quantile_eq (by simpa using hne) hq hq', quantile_eq hne hq hq', List.length_map,
    ascending_map_place hspan, ← hrestore, f.place_restore hspan.ne']

theorem median_map_place : median (xs.map f.place) = f.place (median xs) :=
  quantile_map_place hne hspan Exact.ofDecimal_nonneg (Exact.ofDecimal_le_one (by decide))

/-- Distances know the scale only. -/
theorem interquartile_map_place :
    interquartile (xs.map f.place) = interquartile xs / f.span := by
  have hlow : (ofDecimal 25 2 : α) ≤ 1 := Exact.ofDecimal_le_one (by decide)
  have hhigh : (ofDecimal 75 2 : α) ≤ 1 := Exact.ofDecimal_le_one (by decide)
  rw [interquartile, quantile_map_place hne hspan Exact.ofDecimal_nonneg hhigh,
    quantile_map_place hne hspan Exact.ofDecimal_nonneg hlow, interquartile, Frame.place_eq,
    Frame.place_eq]
  ring

end Place

section Unit
variable [IsStrictOrderedRing α] (xs : List α) {c : α} (hc : 0 < c)
include hc

theorem median_map_mul : median (xs.map (c * ·)) = c * median xs := by
  by_cases hne : xs = []
  · simp [hne, median, quantile]
  · rw [← Frame.place_unit, median_map_place hne (inv_pos.mpr hc), Frame.place_unit]

theorem interquartile_map_mul : interquartile (xs.map (c * ·)) = c * interquartile xs := by
  by_cases hne : xs = []
  · simp [hne, interquartile, quantile]
  · rw [← Frame.place_unit, interquartile_map_place hne (inv_pos.mpr hc), div_inv_eq_mul, mul_comm]

end Unit

/-! ### Spread -/

/-- The mean of the squared distances from the mean. -/
def variance (xs : List α) : α := mean (xs.map fun x => (x - mean xs) ^ 2)

/-- The mean is too close to zero for anything to be taken relative to it. -/
def Vanishing (xs : List α) : Prop := 2 ≤ xs.length ∧ |mean xs| < 1 / 10 ^ 6

instance (xs : List α) : Decidable (Vanishing xs) := inferInstanceAs (Decidable (_ ∧ _))

/-- The squared distances from any number, from the sums of the squares and of the samples. -/
theorem sum_sq_sub (xs : List α) (m : α) :
    (xs.map fun x => (x - m) ^ 2).sum =
      (xs.map fun x => x * x).sum - 2 * m * xs.sum + xs.length * m ^ 2 := by
  induction xs with
  | nil => simp
  | cons x rest ih =>
    simp only [List.map_cons, List.sum_cons, List.length_cons, Nat.cast_succ, ih]
    ring

theorem narrowSum_eq (xs : List α) : narrowSum xs = xs.sum := by
  rw [List.sum_eq_foldl, narrowSum, Exact.zero_eq]
  rfl

/-- The mean square less the squared mean is the variance. -/
theorem deviation_eq {xs : List α} (hne : xs ≠ []) : deviation xs = root (variance xs) := by
  have hlength : (xs.length : α) ≠ 0 := by simpa using hne
  have hvariance : (xs.map fun x => x * x).sum / xs.length -
      xs.sum / xs.length * (xs.sum / xs.length) = variance xs := by
    rw [variance, mean_eq, mean_eq, sum_sq_sub, List.length_map]
    field_simp
    ring
  rw [← hvariance, deviation]
  simp only [narrowSum_eq, Exact.narrow_eq, Exact.ofNat_eq]
  rfl

theorem variance_map_place {xs : List α} (hne : xs ≠ []) (f : Frame α) :
    variance (xs.map f.place) = variance xs / f.span ^ 2 := by
  have hmap : ((xs.map f.place).map fun x => (x - f.place (mean xs)) ^ 2) =
      (xs.map fun x => (x - mean xs) ^ 2).map (Frame.place ⟨0, f.span ^ 2⟩) := by
    rw [List.map_map, List.map_map]
    refine List.map_congr_left fun x _ => ?_
    simp only [Function.comp_apply, Frame.place_eq]
    ring
  rw [variance, mean_map_place hne, hmap, mean_map_place (by simpa using hne), Frame.place_eq,
    sub_zero, variance]

variable [IsStrictOrderedRing α]

theorem variance_nonneg (xs : List α) : 0 ≤ variance xs := by
  refine mean_nonneg fun y hy => ?_
  obtain ⟨x, -, rfl⟩ := List.mem_map.mp hy
  exact sq_nonneg _

variable [ExactRoot α]

/-- The variation is the standard deviation of the samples, wherever they are placed, relative to
their mean. -/
theorem variation_eq (xs : List α) :
    variation xs = if Vanishing xs then 0 else root (variance xs) / |mean xs| := by
  match xs with
  | [] => simp [variation, Vanishing, mean_eq]
  | [x] => simp [variation, Vanishing, variance, mean_eq, ExactRoot.root_zero]
  | x :: y :: rest =>
    generalize hxs : x :: y :: rest = xs
    have hne : xs ≠ [] := hxs ▸ List.cons_ne_nil _ _
    have hlength : 2 ≤ xs.length := by simp [← hxs]
    have hspan := Frame.span_pos xs
    -- The offset of the frame is lost in the variance, and its span is taken out of the root.
    have hroot : deviation (xs.map (Frame.of xs).place) * (Frame.of xs).span =
        root (variance xs) := by
      rw [deviation_eq (by simpa using hne), variance_map_place hne,
        ExactRoot.root_div_sq (variance_nonneg xs) hspan, div_mul_cancel₀ _ hspan.ne']
    have hsmall : (Arithmetic.ofDecimal 1 6 : α) = 1 / 10 ^ 6 := by norm_num
    rw [variation, if_neg hlength.not_gt]
    simp only [hroot, hsmall, Vanishing, hlength, true_and, Exact.lt_eq, Exact.abs_eq,
      Exact.isFinite_eq, Exact.zero_eq, decide_eq_true_eq, if_true]

/-- The variation has no unit, as long as the mean is too close to zero in both or in neither. -/
theorem variation_map_mul (xs : List α) {c : α} (hc : 0 < c)
    (h : Vanishing (xs.map (c * ·)) ↔ Vanishing xs) :
    variation (xs.map (c * ·)) = variation xs := by
  by_cases hne : xs = []
  · simp [hne]
  · have hroot : root (variance (xs.map (c * ·))) = c * root (variance xs) := by
      rw [← Frame.place_unit, variance_map_place hne,
        ExactRoot.root_div_sq (variance_nonneg xs) (inv_pos.mpr hc), div_inv_eq_mul, mul_comm]
    have hmean : |mean (xs.map (c * ·))| = c * |mean xs| := by
      rw [mean_map_mul, abs_mul, abs_of_pos hc]
    rw [variation_eq, variation_eq, hroot, hmean, mul_div_mul_left _ _ hc.ne']
    exact if_congr h rfl rfl

end PerfDrift.Samples
