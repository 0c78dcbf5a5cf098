import Mathlib.Algebra.Order.Archimedean.Real.Basic
import Mathlib.Analysis.Real.Sqrt
import PerfDrift.Proofs.Number.Exact

/-! Exact roots.

The real numbers have a root of every number that is not negative, and it is the only one that is
not negative itself. A field in which what stands for a root is that number has no rounding left
anywhere (`ExactRoot`). -/
namespace PerfDrift

/-- What stands for the root of a number that is not negative is its root, not negative either. -/
class ExactRoot (α : Type) [Field α] [LinearOrder α] [Root α] : Prop where
  root_nonneg (x : α) : 0 ≤ Root.root x
  root_mul_self {x : α} (h : 0 ≤ x) : Root.root x * Root.root x = x

noncomputable instance : Root ℝ := ⟨Real.sqrt⟩

instance : ExactRoot ℝ where
  root_nonneg := Real.sqrt_nonneg
  root_mul_self := Real.mul_self_sqrt

namespace ExactRoot
open Root
variable {α : Type} [Field α] [LinearOrder α] [IsStrictOrderedRing α] [Root α] [ExactRoot α]

/-- There is no other root. -/
theorem root_eq {x r : α} (hr : 0 ≤ r) (h : r * r = x) : root x = r := by
  have hx : 0 ≤ x := h ▸ mul_self_nonneg r
  refine (mul_self_inj (root_nonneg x) hr).mp ?_
  rw [root_mul_self hx, h]

theorem root_zero : root (0 : α) = 0 := root_eq le_rfl (mul_zero 0)

/-- A unit is taken out of the root of what is measured in its square. -/
theorem root_div_sq {x s : α} (hx : 0 ≤ x) (hs : 0 < s) : root (x / s ^ 2) = root x / s := by
  refine root_eq (div_nonneg (root_nonneg x) hs.le) ?_
  rw [div_mul_div_comm, root_mul_self hx, sq]

end ExactRoot
end PerfDrift
