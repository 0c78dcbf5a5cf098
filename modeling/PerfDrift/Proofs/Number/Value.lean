import Mathlib.Algebra.Order.Field.Power
import Mathlib.Algebra.Order.Ring.Rat
import Mathlib.Tactic.Positivity
import Mathlib.Tactic.Ring
import PerfDrift.Proofs.Number.Binary

/-! The values of binary numbers.

A finite binary64 number has an exact `value` among the rational numbers: its mantissa times a
power of two, with its sign. Its `steps` count the numbers between it and zero. Either is a
`Gauge`, and numbers compare as their gauges do. The total order is that of the steps, except
that it puts the negative zero below the positive one; so it never goes against the values, and
only of the two zeros it says more than they do (`eq_or_zeros_of_value_eq`). -/
namespace PerfDrift
open Arithmetic Float.Model Float.Model.UnpackedFloat

/-! ### Gauges -/

section Gauge
variable {β : Type}

/-- What a gauge says of a finite number, of a negative one the opposite. -/
def gauged [Zero β] [Neg β] (f : ℕ → ℤ → β) : UnpackedFloat → β
  | .finite .positive m e _ => f m e
  | .finite .negative m e _ => -f m e
  | _ => 0

/-- The mantissa has 53 bits, and the first of them is missing at the least exponent only. -/
structure Canonical (m : ℕ) (e : ℤ) : Prop where
  mantissa : m < 2 ^ 53
  exponent : -1074 ≤ e
  leading : m < 2 ^ 52 → e = -1074

/-- A finite number in canonical form. -/
def IsCanonical : UnpackedFloat → Prop
  | .zero _ => True
  | .finite _ m e _ => Canonical m e
  | _ => False

/-- A positive measure of mantissa and exponent that goes up with the mantissa, and with the
exponent whatever the mantissas. -/
structure Gauge [Zero β] [LT β] (f : ℕ → ℤ → β) : Prop where
  pos : ∀ {m e}, 0 < m → Canonical m e → 0 < f m e
  mantissa : ∀ {m m'} (e), m < m' → f m e < f m' e
  exponent : ∀ {m m' e e'}, Canonical m e → Canonical m' e' → e < e' → f m e < f m' e'

theorem Gauge.lex_eq [Zero β] [LinearOrder β] {f : ℕ → ℤ → β} (hf : Gauge f) {m m' : ℕ}
    {e e' : ℤ} (h : Canonical m e) (h' : Canonical m' e') :
    (compare e e').then (compare m m') = compare (f m e) (f m' e') := by
  rcases lt_trichotomy e e' with he | rfl | he
  · rw [compare_lt_iff_lt.mpr he, compare_lt_iff_lt.mpr (hf.exponent h h' he)]
    rfl
  · have hmono : StrictMono fun m => f m e := fun _ _ => hf.mantissa e
    rw [compare_eq_iff_eq.mpr rfl, ← cmp_eq_compare, ← cmp_eq_compare]
    exact (hmono.cmp_map_eq m m').symm
  · rw [compare_gt_iff_gt.mpr he, compare_gt_iff_gt.mpr (hf.exponent h' h he)]
    rfl

variable [Ring β] [LinearOrder β] [IsStrictOrderedRing β] {f : ℕ → ℤ → β}

theorem compare_neg_neg (x y : β) : compare (-x) (-y) = (compare x y).swap := by
  have hanti : StrictAnti (Neg.neg : β → β) := fun _ _ => neg_lt_neg
  rw [← cmp_eq_compare, ← cmp_eq_compare, cmp_swap]
  exact hanti.cmp_map_eq x y

/-- Finite numbers compare as a gauge of them does. -/
theorem Gauge.compare_eq (hf : Gauge f) {u v : UnpackedFloat} (hu : IsCanonical u)
    (hv : IsCanonical v) : u.compare v = some (compare (gauged f u) (gauged f v)) := by
  cases u with
  | notANumber => cases hu
  | infinity s => cases hu
  | zero s =>
    cases v with
    | notANumber => cases hv
    | infinity s' => cases hv
    | zero s' => exact congrArg some (compare_eq_iff_eq.mpr rfl).symm
    | finite s' m' e' hm' =>
      have hpos := hf.pos hm' hv
      cases s'
      · exact congrArg some (compare_gt_iff_gt.mpr (neg_neg_of_pos hpos)).symm
      · exact congrArg some (compare_lt_iff_lt.mpr hpos).symm
  | finite s m e hm =>
    have hpos := hf.pos hm hu
    cases v with
    | notANumber => cases hv
    | infinity s' => cases hv
    | zero s' =>
      cases s
      · exact congrArg some (compare_lt_iff_lt.mpr (neg_neg_of_pos hpos)).symm
      · exact congrArg some (compare_gt_iff_gt.mpr hpos).symm
    | finite s' m' e' hm' =>
      have hpos' := hf.pos hm' hv
      cases s <;> cases s'
      · change _ = some (compare (-f m e) (-f m' e'))
        rw [compare_neg_neg, ← hf.lex_eq hu hv]
        rfl
      · exact congrArg some (compare_lt_iff_lt.mpr ((neg_neg_of_pos hpos).trans hpos')).symm
      · exact congrArg some (compare_gt_iff_gt.mpr ((neg_neg_of_pos hpos').trans hpos)).symm
      · exact congrArg some (hf.lex_eq hu hv)

end Gauge

/-! ### Values and steps -/

/-- The exact value of a finite number. -/
def value (x : Float) : ℚ := gauged (fun m e => m * 2 ^ e) x.toModel.unpack

example : value (-2.5) = -5 / 2 := by decide +kernel

/-- How many numbers there are from zero to this one, which is one of them. -/
def steps (m : ℕ) (e : ℤ) : ℤ := (e + 1074) * 2 ^ 52 + m

theorem gauge_value : Gauge fun m e => (m * 2 ^ e : ℚ) where
  pos hm _ := by positivity
  mantissa e h := by gcongr
  exponent {m m' e e'} h h' he := by
    have hleading : 2 ^ 52 ≤ m' := not_lt.mp fun hlt => by
      have := h'.leading hlt
      have := h.exponent
      omega
    calc (m * 2 ^ e : ℚ) < 2 ^ 53 * 2 ^ e := by
          gcongr
          exact_mod_cast h.mantissa
      _ = 2 ^ 52 * 2 ^ (e + 1) := by rw [zpow_add_one₀ two_ne_zero]; ring
      _ ≤ 2 ^ 52 * 2 ^ e' := by gcongr; exacts [one_le_two, he]
      _ ≤ m' * 2 ^ e' := by
          gcongr
          exact_mod_cast hleading

theorem gauge_steps : Gauge steps where
  pos hm h := by
    have := h.exponent
    rw [steps]
    omega
  mantissa e h := by
    rw [steps, steps]
    omega
  exponent h h' he := by
    have := h.mantissa
    have := h.exponent
    have := h'.leading
    rw [steps, steps]
    omega

/-! ### Bits -/

theorem unpackMantissa_toNat (b : BitVec 64) :
    (@unpackMantissa Format.binary64 b).toNat = b.toNat % 2 ^ 52 := by
  show (b.extractLsb 51 0).toNat = _
  simp [BitVec.extractLsb_toNat]

theorem unpackExponent_toNat (b : BitVec 64) :
    (@unpackExponent Format.binary64 b).toNat = b.toNat / 2 ^ 52 % 2 ^ 11 := by
  show (b.extractLsb 62 52).toNat = _
  simp [BitVec.extractLsb_toNat, Nat.shiftRight_eq_div_pow]

/-- The sign that a pattern begins with. -/
theorem unpackSign_eq (b : BitVec 64) :
    Sign.ofBitVec (@unpackSign Format.binary64 b) =
      if b.toNat < 2 ^ 63 then .positive else .negative := by
  have hsign : (@unpackSign Format.binary64 b).toNat = b.toNat / 2 ^ 63 % 2 := by
    show (b.extractLsb 63 63).toNat = _
    simp [BitVec.extractLsb_toNat, Nat.shiftRight_eq_div_pow]
  have hlt : b.toNat < 2 ^ 64 := b.isLt
  have hzero : @unpackSign Format.binary64 b = 0#1 ↔ b.toNat < 2 ^ 63 := by
    rw [← BitVec.toNat_inj, hsign, BitVec.toNat_ofNat]
    omega
  simp only [Sign.ofBitVec, hzero]

theorem gauged_unpackSign {f : ℕ → ℤ → ℤ} {b : BitVec 64} {m : ℕ} {e : ℤ} {hm : 0 < m} :
    gauged f (.finite (Sign.ofBitVec (@unpackSign Format.binary64 b)) m e hm) =
      if b.toNat < 2 ^ 63 then f m e else -f m e := by
  rw [unpackSign_eq]
  by_cases h : b.toNat < 2 ^ 63
  · rw [if_pos h, if_pos h]
    rfl
  · rw [if_neg h, if_neg h]
    rfl

/-- Behind its sign the pattern of a finite number is the number of its steps. -/
theorem canonical_and_steps_eq {b : BitVec 64}
    (h : (UnpackedFloat.unpack Format.binary64 b).isFinite) :
    IsCanonical (UnpackedFloat.unpack Format.binary64 b) ∧
      gauged steps (UnpackedFloat.unpack Format.binary64 b) =
        if b.toNat < 2 ^ 63 then (b.toNat : ℤ) else 2 ^ 63 - b.toNat := by
  have hlt : b.toNat < 2 ^ 64 := b.isLt
  have hmantissa : (@unpackMantissa Format.binary64 b).toNat = b.toNat % 2 ^ 52 :=
    unpackMantissa_toNat b
  have hexponent : (@unpackExponent Format.binary64 b).toNat = b.toNat / 2 ^ 52 % 2 ^ 11 :=
    unpackExponent_toNat b
  have hbias : ((Format.binary64.exponentBias : ℕ) : ℤ) +
      (Format.binary64.mantissaBitsWithoutImplicit : ℕ) = 1075 := rfl
  by_cases hne : @unpackExponent Format.binary64 b = -1#_
  · rw [unpack_special hne] at h
    split at h <;> cases h
  by_cases he : @unpackExponent Format.binary64 b = 0#_
  · have hzero : (@unpackExponent Format.binary64 b).toNat = 0 := congrArg BitVec.toNat he
    by_cases hm : @unpackMantissa Format.binary64 b = 0#_
    · have hm' : (@unpackMantissa Format.binary64 b).toNat = 0 := congrArg BitVec.toNat hm
      rw [unpack_empty hne he hm]
      refine ⟨trivial, ?_⟩
      change (0 : ℤ) = _
      split_ifs <;> omega
    · -- The exponent is one above what its field says, since there is no leading bit.
      obtain ⟨hpos, hunpack⟩ := unpack_subnormal hne he hm
      rw [hunpack, hbias, gauged_unpackSign, steps]
      refine ⟨⟨by omega, by omega, fun _ => by omega⟩, ?_⟩
      split_ifs <;> omega
  · -- The leading bit is not in the pattern, and counts as one more of the exponent.
    have hzero : (@unpackExponent Format.binary64 b).toNat ≠ 0 :=
      fun h => he (BitVec.eq_of_toNat_eq h)
    have hleading : (1#1 ++ @unpackMantissa Format.binary64 b).toNat =
        2 ^ 52 + (@unpackMantissa Format.binary64 b).toNat := by
      rw [BitVec.toNat_append, ← Nat.shiftLeft_add_eq_or_of_lt (BitVec.isLt _)]
      rfl
    obtain ⟨hpos, hunpack⟩ := unpack_normal hne he
    rw [hunpack, hbias, gauged_unpackSign, steps]
    refine ⟨⟨by omega, by omega, fun _ => by omega⟩, ?_⟩
    split_ifs <;> omega

/-! ### Orders -/

theorem totalRank_zero : totalRank 0.0 = 0 := by decide +kernel

theorem totalRank_neg_zero : totalRank (-0.0) = -1 := by decide +kernel

section Order
variable {x y : Float} (hx : x.isFinite) (hy : y.isFinite)

/-- The steps of a number, and one more down for a minus sign, are its place in the total order. -/
theorem totalRank_eq (h : x.isFinite) :
    totalRank x = gauged steps x.toModel.unpack ∧ 0 ≤ gauged steps x.toModel.unpack ∨
      totalRank x = gauged steps x.toModel.unpack - 1 ∧ gauged steps x.toModel.unpack ≤ 0 := by
  have hsteps : gauged steps x.toModel.unpack =
      if x.toBits.toNat < 2 ^ 63 then (x.toBits.toNat : ℤ) else 2 ^ 63 - x.toBits.toNat :=
    (canonical_and_steps_eq h).2
  have hhalf : (0x8000000000000000 : UInt64).toNat = 2 ^ 63 := by decide
  simp only [totalRank, UInt64.lt_iff_toNat_lt, hhalf]
  split_ifs at hsteps ⊢ <;> omega

include hx hy

/-- Finite numbers compare as their values do. -/
theorem compare_value :
    x.toModel.unpack.compare y.toModel.unpack = some (compare (value x) (value y)) :=
  gauge_value.compare_eq (canonical_and_steps_eq hx).1 (canonical_and_steps_eq hy).1

theorem value_lt_iff : value x < value y ↔ x < y := by
  rw [lt_iff, compare_value hx hy, Option.some_inj, compare_lt_iff_lt]

theorem value_le_iff : value x ≤ value y ↔ x ≤ y := by
  rw [le_iff, compare_value hx hy]
  simp [Ordering.isLE_iff_ne_gt, compare_gt_iff_gt]

/-- Values and steps compare alike. -/
theorem compare_value_eq_compare_steps :
    compare (value x) (value y) =
      compare (gauged steps x.toModel.unpack) (gauged steps y.toModel.unpack) :=
  Option.some.inj ((compare_value hx hy).symm.trans
    (gauge_steps.compare_eq (canonical_and_steps_eq hx).1 (canonical_and_steps_eq hy).1))

/-- The total order never goes against the values. -/
theorem totalRank_lt_of_value_lt (h : value x < value y) : totalRank x < totalRank y := by
  rw [← compare_lt_iff_lt, compare_value_eq_compare_steps hx hy, compare_lt_iff_lt] at h
  have := totalRank_eq hx
  have := totalRank_eq hy
  omega

/-- Numbers of one value are the same number, or the two zeros. -/
theorem eq_or_zeros_of_value_eq (h : value x = value y) :
    x = y ∨ x = -0.0 ∧ y = 0.0 ∨ x = 0.0 ∧ y = -0.0 := by
  rw [← compare_eq_iff_eq, compare_value_eq_compare_steps hx hy, compare_eq_iff_eq] at h
  have hcases : totalRank x = totalRank y ∨ totalRank x = -1 ∧ totalRank y = 0 ∨
      totalRank x = 0 ∧ totalRank y = -1 := by
    have := totalRank_eq hx
    have := totalRank_eq hy
    omega
  simpa only [← totalRank_zero, ← totalRank_neg_zero, totalRank_injective.eq_iff] using hcases

/-! ### Choices between numbers -/

theorem value_lesser : value (lesser x y) = min (value x) (value y) := by
  have hself : eq x x = true := by
    change (x.toModel.unpack.compare x.toModel.unpack == some .eq) = true
    rw [compare_value hx hx, compare_eq_iff_eq.mpr rfl]
    rfl
  rw [lesser, if_pos hself]
  split
  · next h => exact (min_eq_right ((value_lt_iff hy hx).mpr h).le).symm
  · next h => exact (min_eq_left (not_lt.mp (mt (value_lt_iff hy hx).mp h))).symm

end Order

theorem value_zero : value 0 = 0 := rfl

theorem value_one : value 1 = 1 := by decide +kernel

theorem value_clampUnit {x : Float} (hx : x.isFinite) :
    value (clampUnit x) = max 0 (min (value x) 1) := by
  have hzero : x < 0 ↔ value x < 0 := (value_lt_iff hx rfl).symm
  have hone : 1 < x ↔ 1 < value x := by rw [← value_lt_iff rfl hx, value_one]
  rw [clampUnit]
  split
  · next h =>
    have hneg := (hzero.mp h).le
    exact (max_eq_left (min_le_of_left_le hneg)).symm
  · next h =>
    have hnonneg := not_lt.mp (mt hzero.mpr h)
    split
    · next h =>
      rw [min_eq_right (hone.mp h).le, max_eq_right zero_le_one]
      exact value_one
    · next h =>
      rw [min_eq_left (not_lt.mp (mt hone.mpr h)), max_eq_right hnonneg]

end PerfDrift
