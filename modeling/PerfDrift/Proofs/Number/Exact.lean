import Mathlib.Algebra.Order.Floor.Semiring
import Mathlib.Data.Rat.Floor
import Mathlib.Data.Rat.Sqrt
import PerfDrift.Number.Arithmetic

/-! Exact numbers.

The numbers of an ordered field are compared without any rounding: they are all finite, the
working precision leaves them as they are, and the whole part is the floor. Such a field need
not have roots, so what stands for the root of a number is a choice (`Root`); nothing here
asks more of it. The rational numbers are the case in point. -/
namespace PerfDrift

/-- What stands for the root of a number. -/
class Root (α : Type) where
  root : α → α

/-- The root of a square; of another rational number the root of the squares below its
numerator and denominator. -/
instance : Root ℚ := ⟨Rat.sqrt⟩

namespace Exact
variable {α : Type} [Field α] [LinearOrder α] [FloorSemiring α] [Root α]

/-- The arithmetic of an ordered field. -/
instance (priority := low) arithmetic : Arithmetic α where
  ofNat n := n
  ofDecimal m e := m / (10 ^ e : ℕ)
  abs x := |x|
  sqrt := Root.root
  narrow x := x
  whole := Nat.floor
  isFinite _ := true
  lt a b := decide (a < b)
  le a b := decide (a ≤ b)
  eq a b := decide (a = b)
  totalOrder := compare

@[simp] theorem zero_eq : (Arithmetic.zero : α) = 0 := Nat.cast_zero

@[simp] theorem one_eq : (Arithmetic.one : α) = 1 := Nat.cast_one

@[simp] theorem ofNat_eq (n : ℕ) : (Arithmetic.ofNat n : α) = n := rfl

@[simp] theorem ofDecimal_eq (m e : ℕ) :
    (Arithmetic.ofDecimal m e : α) = m / (10 ^ e : ℕ) := rfl

@[simp] theorem abs_eq (x : α) : Arithmetic.abs x = |x| := rfl

@[simp] theorem narrow_eq (x : α) : Arithmetic.narrow x = x := rfl

@[simp] theorem whole_eq (x : α) : Arithmetic.whole x = ⌊x⌋₊ := rfl

@[simp] theorem isFinite_eq (x : α) : Arithmetic.isFinite x = true := rfl

@[simp] theorem lt_eq (a b : α) : Arithmetic.lt a b = decide (a < b) := rfl

@[simp] theorem le_eq (a b : α) : Arithmetic.le a b = decide (a ≤ b) := rfl

@[simp] theorem eq_eq (a b : α) : Arithmetic.eq a b = decide (a = b) := rfl

/-! ### Decimals -/

section Decimal
variable [IsStrictOrderedRing α] {m e : ℕ}

theorem ofDecimal_nonneg : 0 ≤ (Arithmetic.ofDecimal m e : α) :=
  div_nonneg (Nat.cast_nonneg m) (Nat.cast_nonneg _)

theorem ofDecimal_le_one (h : m ≤ 10 ^ e) : (Arithmetic.ofDecimal m e : α) ≤ 1 :=
  div_le_one_of_le₀ (Nat.cast_le.mpr h) (Nat.cast_nonneg _)

end Decimal

end Exact
end PerfDrift
