import Mathlib.Data.List.GetD
import Mathlib.Data.List.Sort
import Mathlib.Tactic.Linarith
import Mathlib.Tactic.Positivity
import Mathlib.Tactic.Ring
import PerfDrift.Proofs.Number.Exact
import PerfDrift.Samples

/-! Statistics over exact numbers.

Sums and means are the plain ones there. A quantile goes from one of the samples in order to
the next along a straight line (`between_eq`); the frame that the samples are placed in for that
changes nothing, whatever they are (`quantile_eq`). Along the whole list the line never turns
back (`between_mono`), so the upper quartile is nowhere below the lower one
(`interquartile_nonneg`). -/
namespace PerfDrift.Samples
open Arithmetic
variable {α : Type} [Field α] [LinearOrder α] [FloorSemiring α]

/-! ### Places in a list in order -/

/-- In a list in order what stands later is not below. -/
theorem getD_mono {β : Type} [Preorder β] {xs : List β} (hx : xs.Pairwise (· ≤ ·)) {i j : ℕ}
    (hij : i ≤ j) (hj : j < xs.length) (d d' : β) : xs.getD i d ≤ xs.getD j d' := by
  have hi : i < xs.length := hij.trans_lt hj
  rw [List.getD_eq_getElem _ _ hi, List.getD_eq_getElem _ _ hj]
  rcases hij.eq_or_lt with rfl | hlt
  · exact le_rfl
  · exact List.pairwise_iff_getElem.mp hx i j hi hj hlt

/-- The sample at a place, or the last one before the place. -/
def low (xs : List α) (h : α) : α := xs.getD ⌊h⌋₊ 0

/-- The sample after a place; at the end there is none, and the last one stays. -/
def high (xs : List α) (h : α) : α := xs.getD (⌊h⌋₊ + 1) (low xs h)

theorem low_le_high {xs : List α} (hx : xs.Pairwise (· ≤ ·)) (h : α) : low xs h ≤ high xs h := by
  by_cases hk : ⌊h⌋₊ + 1 < xs.length
  · exact getD_mono hx (Nat.le_succ _) hk _ _
  · rw [high, List.getD_eq_default _ _ (not_lt.mp hk)]

variable [Root α]

/-! ### Sums and rates -/

theorem sum_eq (xs : List α) : sum xs = xs.sum := by
  rw [List.sum_eq_foldl, sum, Exact.zero_eq]

theorem relativeRate_eq (baseline target : α) :
    relativeRate baseline target =
      if baseline = 0 then none else some ((target - baseline) / baseline) := by
  simp [relativeRate]

theorem relativeRate_eq_some_iff {baseline target rate : α} :
    relativeRate baseline target = some rate ↔
      baseline ≠ 0 ∧ (target - baseline) / baseline = rate := by
  by_cases hb : baseline = 0
  · simp [relativeRate_eq, hb]
  · simp [relativeRate_eq, hb]

theorem relativeRate_self (x : α) : relativeRate x x = if x = 0 then none else some 0 := by
  rw [relativeRate_eq, sub_self, zero_div]

/-! ### Frames -/

theorem Frame.span_pos [IsStrictOrderedRing α] (xs : List α) : 0 < (Frame.of xs).span := by
  cases xs with
  | nil => simp [Frame.of]
  | cons x rest =>
    simp only [Frame.of, Frame.between, Exact.zero_eq, Exact.one_eq, Exact.lt_eq,
      Exact.isFinite_eq, Bool.and_true]
    split
    · next h => simpa using h
    · exact one_pos

theorem Frame.place_eq (f : Frame α) (x : α) : f.place x = (x - f.offset) / f.span := rfl

theorem Frame.place_le_iff [IsStrictOrderedRing α] {f : Frame α} (h : 0 < f.span) (x y : α) :
    f.place x ≤ f.place y ↔ x ≤ y := by
  rw [place_eq, place_eq, div_le_div_iff_of_pos_right h, sub_le_sub_iff_right]

/-- What has a place is restored from it. -/
theorem Frame.restore_place {f : Frame α} (h : f.span ≠ 0) (x : α) : f.restore (f.place x) = x := by
  rw [restore, place_eq, div_mul_cancel₀ _ h, add_sub_cancel]

/-- What is restored from a place has that place. -/
theorem Frame.place_restore {f : Frame α} (h : f.span ≠ 0) (x : α) : f.place (f.restore x) = x := by
  rw [restore, place_eq, add_sub_cancel_left, mul_div_cancel_right₀ _ h]

/-- Lines between places are lines between what is restored from them. -/
theorem Frame.restore_line (f : Frame α) (x y share : α) :
    f.restore (x + share * (y - x)) = f.restore x + share * (f.restore y - f.restore x) := by
  simp only [restore]
  ring

/-! ### Between two samples -/

theorem length_ascending (xs : List α) : (ascending xs).length = xs.length :=
  List.length_mergeSort xs

theorem ascending_eq (xs : List α) : ascending xs = xs.insertionSort (· ≤ ·) :=
  List.mergeSort_eq_insertionSort (· ≤ ·) xs

theorem ascending_sorted (xs : List α) : (ascending xs).Pairwise (· ≤ ·) :=
  List.pairwise_mergeSort' (· ≤ ·) xs

/-- Between two samples their distance is divided. -/
theorem between_eq (xs : List α) (h : α) :
    between xs h = low xs h + (h - ⌊h⌋₊) * (high xs h - low xs h) := by
  by_cases he : h = ⌊h⌋₊
  · have hzero : h - ⌊h⌋₊ = 0 := sub_eq_zero.mpr he
    rw [hzero, zero_mul, add_zero]
    simp [between, low, ← he]
  · simp only [between, Exact.whole_eq, Exact.eq_eq, Exact.ofNat_eq, Exact.zero_eq,
      Exact.narrow_eq, decide_eq_true_eq, if_neg he]
    rfl

/-- Between two places stands what stands between the samples. -/
theorem restore_between_map_place {f : Frame α} (hspan : f.span ≠ 0) {xs : List α} {h : α}
    (hend : ⌊h⌋₊ < xs.length) : f.restore (between (xs.map f.place) h) = between xs h := by
  have hlow : low (xs.map f.place) h = f.place (low xs h) := by
    rw [low, low, List.getD_eq_getElem _ _ (by simpa using hend), List.getD_eq_getElem _ _ hend,
      List.getElem_map]
  have hhigh : high (xs.map f.place) h = f.place (high xs h) := by
    rw [high, high, hlow, List.getD_map]
  rw [between_eq, between_eq, hlow, hhigh, f.restore_line, f.restore_place hspan,
    f.restore_place hspan]

section Ordered
variable [IsStrictOrderedRing α] {xs : List α} {h h' : α}

theorem low_le_between (hx : xs.Pairwise (· ≤ ·)) (hh : 0 ≤ h) : low xs h ≤ between xs h := by
  have hshare : 0 ≤ h - ⌊h⌋₊ := sub_nonneg.mpr (Nat.floor_le hh)
  have hstep : 0 ≤ high xs h - low xs h := sub_nonneg.mpr (low_le_high hx _)
  rw [between_eq]
  exact le_add_of_nonneg_right (mul_nonneg hshare hstep)

theorem between_le_high (hx : xs.Pairwise (· ≤ ·)) : between xs h ≤ high xs h := by
  have hshare : h - ⌊h⌋₊ ≤ 1 := by linarith [Nat.lt_floor_add_one h]
  have hstep : 0 ≤ high xs h - low xs h := sub_nonneg.mpr (low_le_high hx _)
  calc between xs h = low xs h + (h - ⌊h⌋₊) * (high xs h - low xs h) := between_eq xs h
    _ ≤ low xs h + 1 * (high xs h - low xs h) := by gcongr
    _ = high xs h := by ring

/-- Along samples in order the way never turns back. -/
theorem between_mono (hx : xs.Pairwise (· ≤ ·)) (hh : 0 ≤ h) (hle : h ≤ h')
    (hend : ⌊h'⌋₊ < xs.length) : between xs h ≤ between xs h' := by
  have hfloor : ⌊h⌋₊ ≤ ⌊h'⌋₊ := Nat.floor_le_floor hle
  rcases hfloor.eq_or_lt with he | hlt
  · -- both places are between the same two samples
    have hlow : low xs h = low xs h' := by rw [low, low, he]
    have hhigh : high xs h = high xs h' := by rw [high, high, hlow, he]
    have hstep : 0 ≤ high xs h' - low xs h' := sub_nonneg.mpr (low_le_high hx _)
    rw [between_eq, between_eq, hlow, hhigh, he]
    gcongr
  · -- a sample lies between the two places
    calc between xs h ≤ high xs h := between_le_high hx
      _ ≤ low xs h' := getD_mono hx hlt hend _ _
      _ ≤ between xs h' := low_le_between hx (hh.trans hle)

/-! ### Quantiles -/

/-- A single sample is no exception. -/
theorem placedQuantile_eq (hne : xs ≠ []) (q : α) :
    placedQuantile xs q = between (ascending xs) ((xs.length - 1 : ℕ) * q) := by
  match xs, hne with
  | [x], _ => simp [placedQuantile, between, ascending]
  | x :: y :: rest, _ => rfl

/-- The last place of a quantile is that of the last sample. -/
theorem floor_place_lt (hne : xs ≠ []) {q : α} (hq : q ≤ 1) :
    ⌊((xs.length - 1 : ℕ) * q : α)⌋₊ < xs.length := by
  have hlength : 0 < xs.length := List.length_pos_iff.mpr hne
  have hplace : ((xs.length - 1 : ℕ) * q : α) ≤ (xs.length - 1 : ℕ) :=
    mul_le_of_le_one_right (Nat.cast_nonneg _) hq
  have hfloor := Nat.floor_le_floor hplace
  rw [Nat.floor_natCast] at hfloor
  omega

/-- A frame keeps the order of the samples. -/
theorem ascending_map_place {f : Frame α} (h : 0 < f.span) (xs : List α) :
    ascending (xs.map f.place) = (ascending xs).map f.place := by
  refine (List.map_mergeSort fun x _ y _ => ?_).symm
  simp only [Exact.le_eq, Frame.place_le_iff h]

/-- A quantile is a place in the samples themselves. -/
theorem quantile_eq (hne : xs ≠ []) {q : α} (hq : 0 ≤ q) (hq' : q ≤ 1) :
    quantile xs q = between (ascending xs) ((xs.length - 1 : ℕ) * q) := by
  have hspan := Frame.span_pos xs
  have hempty : ¬xs.isEmpty := by simpa using hne
  have hend : ⌊((xs.length - 1 : ℕ) * q : α)⌋₊ < (ascending xs).length := by
    rw [length_ascending]
    exact floor_place_lt hne hq'
  simp only [quantile, Exact.le_eq, Exact.zero_eq, Exact.one_eq, ← Bool.decide_and,
    decide_eq_true_eq, if_neg hempty, if_pos (And.intro hq hq')]
  rw [placedQuantile_eq (by simpa using hne), List.length_map, ascending_map_place hspan,
    restore_between_map_place hspan.ne' hend]

/-- A quantile grows with the part of the samples it stands above. -/
theorem quantile_mono (xs : List α) {q q' : α} (hq : 0 ≤ q) (hle : q ≤ q') (hq' : q' ≤ 1) :
    quantile xs q ≤ quantile xs q' := by
  by_cases hne : xs = []
  · subst hne
    rfl
  · have hcount : (0 : α) ≤ (xs.length - 1 : ℕ) := Nat.cast_nonneg _
    rw [quantile_eq hne hq (hle.trans hq'), quantile_eq hne (hq.trans hle) hq']
    refine between_mono (ascending_sorted xs) (mul_nonneg hcount hq)
      (mul_le_mul_of_nonneg_left hle hcount) ?_
    rw [length_ascending]
    exact floor_place_lt hne hq'

/-- The upper quartile is not below the lower one. -/
theorem interquartile_nonneg (xs : List α) : 0 ≤ interquartile xs := by
  have hle : (ofDecimal 25 2 : α) ≤ ofDecimal 75 2 := by
    simp only [Exact.ofDecimal_eq]
    gcongr
    norm_num
  have hhigh : (ofDecimal 75 2 : α) ≤ 1 := Exact.ofDecimal_le_one (by decide)
  exact sub_nonneg.mpr (quantile_mono xs Exact.ofDecimal_nonneg hle hhigh)

end Ordered

end PerfDrift.Samples
