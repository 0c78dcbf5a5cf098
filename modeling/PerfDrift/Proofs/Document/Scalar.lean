import Mathlib.Data.List.Nodup
import PerfDrift.Document.Decode

/-! Values without structure, written and decoded.

What the writers of documents make of a finite number, a count, an option and a variant is
decoded to the same. -/
namespace PerfDrift.Document

theorem asFloat_ofFloat {x : Float} (h : x.isFinite) : asFloat (.ofFloat x) = .ok x := by
  simp [ofFloat, h, asFloat, Number.toFloat]

theorem ofFloat?_of_isFinite {x : Float} (h : x.isFinite) :
    ofFloat? (some x) = .number (.real x) := by
  simp [ofFloat?, ofFloat, h]

/-- Nothing is written only where there is nothing. -/
theorem ofFloat?_eq_null_iff {x : Option Float} (h : ∀ y, x = some y → y.isFinite) :
    ofFloat? x = .null ↔ x = none := by
  cases x with
  | none => simp [ofFloat?]
  | some y => simp [ofFloat?_of_isFinite (h y rfl)]

theorem asOption_ofFloat? {x : Option Float} (h : ∀ y, x = some y → y.isFinite) :
    asOption asFloat (.ofFloat? x) = .ok x := by
  cases x with
  | none => rfl
  | some y =>
    rw [ofFloat?_of_isFinite (h y rfl)]
    rfl

/-- Every count of 64 bits is within the bounds. -/
theorem asCount_toNat (n : UInt64) : asCount (.number (.integer n.toNat)) = .ok n := by
  have hbound : (n.toNat : Int) < 0x10000000000000000 := by
    have := n.toNat_lt
    omega
  simp [asCount, hbound]

/-- A variant is known by its name. -/
theorem asVariant_name {α : Type} {name : α → String} {all : List α}
    (hnames : (all.map name).Nodup) {x : α} (hx : x ∈ all) :
    asVariant (all.map fun y => (name y, y)) (.text (name x)) = .ok x := by
  have hlookup : (all.map fun y => (name y, y)).lookup (name x) = some x := by
    induction all with
    | nil => cases hx
    | cons y all ih =>
      rw [List.map_cons, List.nodup_cons] at hnames
      rcases List.mem_cons.mp hx with rfl | hx
      · simp
      · have hne : name x ≠ name y := fun he => hnames.1 (he ▸ List.mem_map_of_mem hx)
        have hbeq : (name x == name y) = false := beq_eq_false_iff_ne.mpr hne
        rw [List.map_cons, List.lookup_cons, hbeq]
        exact ih hnames.2 hx
  simp only [asVariant, variantOf, hlookup]

end PerfDrift.Document
