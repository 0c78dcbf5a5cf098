import Mathlib.Logic.Function.Basic
import Mathlib.Tactic.SplitIfs
import PerfDrift.Number.Arithmetic

/-! Binary numbers.

A binary64 number is its bit pattern, and the total order gives every pattern a place of its
own: those of the negative numbers go down from minus one, the others up from zero. What is not
a number comes of no difference of finite numbers (`isNaN_sub`), and every number is brought
into `[0, 1]` (`clampUnit_mem`). -/
namespace PerfDrift
open Arithmetic Float.Model Float.Model.UnpackedFloat

theorem toBits_injective : Function.Injective Float.toBits := by
  rintro ⟨⟨x, hx⟩⟩ ⟨⟨y, hy⟩⟩ h
  obtain rfl : x = y := h
  rfl

theorem totalRank_injective : Function.Injective totalRank := by
  intro x y h
  have hx : x.toBits.toNat < 2 ^ 64 := x.toBits.toNat_lt
  have hy : y.toBits.toNat < 2 ^ 64 := y.toBits.toNat_lt
  apply toBits_injective
  rw [← UInt64.toNat_inj]
  have hhalf : (0x8000000000000000 : UInt64).toNat = 2 ^ 63 := by decide
  simp only [totalRank, UInt64.lt_iff_toNat_lt, hhalf] at h
  -- Patterns of one sign are ranked by a bijection, and the ranks of the two signs differ in sign.
  split at h <;> split at h <;> omega

/-! ### Numbers and what is not one -/

section Unpack
variable {format : Format} {b : BitVec format.numBits}

/-- An exponent with all its bits set tells of nothing finite. -/
theorem unpack_special (he : unpackExponent b = -1#_) :
    UnpackedFloat.unpack format b =
      if unpackMantissa b = 0#_ then .infinity (.ofBitVec (unpackSign b)) else .notANumber :=
  if_pos he

theorem unpack_empty (hne : unpackExponent b ≠ -1#_) (he : unpackExponent b = 0#_)
    (hm : unpackMantissa b = 0#_) :
    UnpackedFloat.unpack format b = .zero (.ofBitVec (unpackSign b)) :=
  (if_neg hne).trans ((if_pos he).trans (dif_pos hm))

theorem unpack_subnormal (hne : unpackExponent b ≠ -1#_) (he : unpackExponent b = 0#_)
    (hm : unpackMantissa b ≠ 0#_) :
    ∃ hpos, UnpackedFloat.unpack format b =
      .finite (.ofBitVec (unpackSign b)) (unpackMantissa b).toNat
        ((unpackExponent b).toNat -
          (format.exponentBias + format.mantissaBitsWithoutImplicit) + 1) hpos :=
  ⟨_, (if_neg hne).trans ((if_pos he).trans (dif_neg hm))⟩

theorem unpack_normal (hne : unpackExponent b ≠ -1#_) (he : unpackExponent b ≠ 0#_) :
    ∃ hpos, UnpackedFloat.unpack format b =
      .finite (.ofBitVec (unpackSign b)) (1#1 ++ unpackMantissa b).toNat
        ((unpackExponent b).toNat -
          (format.exponentBias + format.mantissaBitsWithoutImplicit)) hpos :=
  ⟨_, (if_neg hne).trans (if_neg he)⟩

/-- A pattern is read as a number unless the exponent has all its bits and the mantissa has
some. -/
theorem isNaN_unpack (h : unpackExponent b ≠ -1#_ ∨ unpackMantissa b = 0#_) :
    (UnpackedFloat.unpack format b).isNaN = false := by
  by_cases hne : unpackExponent b = -1#_
  · rw [unpack_special hne, if_pos (h.resolve_left (absurd hne))]
    rfl
  by_cases he : unpackExponent b = 0#_
  · by_cases hm : unpackMantissa b = 0#_
    · rw [unpack_empty hne he hm]
      rfl
    · obtain ⟨_, hunpack⟩ := unpack_subnormal hne he hm
      rw [hunpack]
      rfl
  · obtain ⟨_, hunpack⟩ := unpack_normal hne he
    rw [hunpack]
    rfl

theorem isNaN_unpack_components {sign : Sign} {exponent : BitVec format.exponentBits}
    {mantissa : BitVec format.mantissaBitsWithoutImplicit}
    (h : exponent ≠ -1#_ ∨ mantissa = 0#_) :
    (UnpackedFloat.unpack format (packComponents format sign exponent mantissa)).isNaN = false :=
  isNaN_unpack (by rwa [unpackExponent_packComponents, unpackMantissa_packComponents])

end Unpack

/-- What is packed as a number is one. -/
theorem isNaN_pack {u : UnpackedFloat} (h : u.isNaN = false) :
    (Float.Model.pack u).isNaN = false := by
  change (UnpackedFloat.unpack Format.binary64 (UnpackedFloat.pack Format.binary64 u)).isNaN = false
  fun_cases UnpackedFloat.pack with
  | case1 => cases h
  | case2 s => exact isNaN_unpack_components (.inr rfl)
  | case3 s => exact isNaN_unpack_components (.inl (by decide))
  | case4 s m e hm biased hlarge => exact isNaN_unpack_components (.inr rfl)
  | case5 s m e hm bits biased hsmall hnormal =>
    refine isNaN_unpack_components (.inl fun he => ?_)
    have hbits : biased % 2 ^ 11 = 2 ^ 11 - 1 := by simpa using congrArg BitVec.toNat he
    have hlt : ¬2 ^ 11 ≤ biased + 1 := hsmall
    omega
  | case6 s m e hm bits biased hsmall hsubnormal => exact isNaN_unpack_components (.inl (by decide))

theorem isNaN_round {sign : Sign} {mantissa : Nat} {exponent : Int} :
    (UnpackedFloat.round Format.binary64 sign mantissa exponent).isNaN = false := by
  dsimp only [UnpackedFloat.round, roundWithAccuracy]
  -- Nothing is left of the mantissa, or something is: a number either way.
  rw [apply_dite UnpackedFloat.isNaN]
  exact ite_self false

theorem isNaN_normalize {mantissa exponent : Int} {sign : Sign} :
    (UnpackedFloat.normalize Format.binary64 mantissa exponent sign).isNaN = false := by
  rw [UnpackedFloat.normalize]
  split
  · exact isNaN_round
  · rfl
  · exact isNaN_round

/-- A difference of finite numbers is rounded, never undefined. -/
theorem isNaN_unpacked_sub {u v : UnpackedFloat} (hu : u.isFinite) (hv : v.isFinite) :
    (UnpackedFloat.sub Format.binary64 u v).isNaN = false := by
  cases u with
  | notANumber => cases hu
  | infinity s => cases hu
  | zero s =>
    cases v with
    | notANumber => cases hv
    | infinity s' => cases hv
    | zero s' => cases s <;> cases s' <;> rfl
    | finite s' m' e' hm' => rfl
  | finite s m e hm =>
    cases v with
    | notANumber => cases hv
    | infinity s' => cases hv
    | zero s' => rfl
    | finite s' m' e' hm' => exact isNaN_normalize

theorem isNaN_of_isFinite {x : Float} (h : x.isFinite) : x.isNaN = false := by
  change x.toModel.unpack.isFinite = true at h
  change x.toModel.unpack.isNaN = false
  generalize x.toModel.unpack = u at h ⊢
  cases u <;> first | rfl | cases h

/-- The difference of finite numbers may be infinite, but it is a number. -/
theorem isNaN_sub {x y : Float} (hx : x.isFinite) (hy : y.isFinite) : (x - y).isNaN = false :=
  isNaN_pack (isNaN_unpacked_sub hx hy)

theorem unpack_zero : (0 : Float).toModel.unpack = .zero .positive := rfl

theorem unpack_one :
    (1 : Float).toModel.unpack = .finite .positive 0x10000000000000 (-52) (by decide) := rfl

theorem lt_iff {x y : Float} :
    x < y ↔ x.toModel.unpack.compare y.toModel.unpack = some .lt := by
  change decide (x.toModel.unpack.lt y.toModel.unpack = true) = true ↔ _
  rw [decide_eq_true_eq, UnpackedFloat.lt, beq_iff_eq]

theorem le_iff {x y : Float} :
    x ≤ y ↔ ∃ o, x.toModel.unpack.compare y.toModel.unpack = some o ∧ o.isLE := by
  change decide (x.toModel.unpack.le y.toModel.unpack = true) = true ↔ _
  rw [decide_eq_true_eq, UnpackedFloat.le, Option.any_eq_true]

/-- Two numbers compare either way round. -/
theorem compare_comm {u v : UnpackedFloat} (hu : u.isNaN = false) (hv : v.isNaN = false) :
    ∃ o, u.compare v = some o ∧ v.compare u = some o.swap := by
  cases u with
  | notANumber => cases hu
  | infinity s =>
    cases v with
    | notANumber => cases hv
    | infinity s' => cases s <;> cases s' <;> exact ⟨_, rfl, rfl⟩
    | zero s' => cases s <;> exact ⟨_, rfl, rfl⟩
    | finite s' m' e' hm' => cases s <;> cases s' <;> exact ⟨_, rfl, rfl⟩
  | zero s =>
    cases v with
    | notANumber => cases hv
    | infinity s' => cases s' <;> exact ⟨_, rfl, rfl⟩
    | zero s' => exact ⟨_, rfl, rfl⟩
    | finite s' m' e' hm' => cases s' <;> exact ⟨_, rfl, rfl⟩
  | finite s m e hm =>
    cases v with
    | notANumber => cases hv
    | infinity s' => cases s <;> cases s' <;> exact ⟨_, rfl, rfl⟩
    | zero s' => cases s <;> exact ⟨_, rfl, rfl⟩
    | finite s' m' e' hm' =>
      have hswap : (compare e' e).then (compare m' m) =
          ((compare e e').then (compare m m')).swap := by
        rw [Ordering.swap_then, Int.compare_swap, Nat.compare_swap]
      cases s <;> cases s'
      · exact ⟨_, rfl, congrArg (some ∘ Ordering.swap) hswap⟩
      · exact ⟨_, rfl, rfl⟩
      · exact ⟨_, rfl, rfl⟩
      · exact ⟨_, rfl, congrArg some hswap⟩

/-- Of two numbers one is below or equal to the other. -/
theorem le_of_not_lt {x y : Float} (hx : x.isNaN = false) (hy : y.isNaN = false) (h : ¬y < x) :
    x ≤ y := by
  obtain ⟨o, hxy, hyx⟩ := compare_comm hx hy
  refine le_iff.mpr ⟨o, hxy, Ordering.isLE_iff_ne_gt.mpr fun ho => h (lt_iff.mpr ?_)⟩
  rw [hyx, ho]
  rfl

theorem isFinite_of_mem_unit {x : Float} (hzero : 0 ≤ x) (hone : x ≤ 1) : x.isFinite := by
  rw [le_iff, unpack_zero] at hzero
  rw [le_iff, unpack_one] at hone
  change x.toModel.unpack.isFinite = true
  generalize x.toModel.unpack = u at *
  cases u with
  | notANumber => obtain ⟨o, ho, -⟩ := hone; cases ho
  | infinity s =>
    cases s with
    | negative => obtain ⟨o, ho, hle⟩ := hzero; cases ho; cases hle
    | positive => obtain ⟨o, ho, hle⟩ := hone; cases ho; cases hle
  | zero s => rfl
  | finite s m e hm => rfl

/-- What is brought into `[0, 1]` lies there if it is a number. -/
theorem clampUnit_mem {x : Float} (h : x.isNaN = false) :
    0 ≤ clampUnit x ∧ clampUnit x ≤ 1 := by
  rw [clampUnit]
  split
  · exact ⟨by decide, by decide⟩
  · next hzero =>
    split
    · exact ⟨by decide, by decide⟩
    · next hone => exact ⟨le_of_not_lt rfl h hzero, le_of_not_lt h rfl hone⟩

end PerfDrift
