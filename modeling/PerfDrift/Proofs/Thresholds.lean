import PerfDrift.Proofs.Number.Binary
import PerfDrift.Proofs.Number.Exact
import PerfDrift.Thresholds

/-! Thresholds that nothing is wrong with, over exact and over binary numbers. -/
namespace PerfDrift.Thresholds

section Exact
variable {α : Type} [Field α] [LinearOrder α] [FloorSemiring α] [Root α]

/-- Factors and tolerances are not negative, and what is a part of one is in `[0, 1]`. -/
structure Valid (t : Thresholds α) : Prop where
  averageChange : 0 ≤ t.averageChange
  fastBand : 0 ≤ t.fastBand
  fenceFactor : 0 ≤ t.fenceFactor
  noiseTolerance : 0 ≤ t.noiseTolerance
  modelFit : 0 ≤ t.modelFit ∧ t.modelFit ≤ 1
  fastConfidence : 0 ≤ t.fastConfidence ∧ t.fastConfidence ≤ 1

theorem checkNonNegative_eq_ok_iff (name : String) (x : α) :
    checkNonNegative name x = .ok () ↔ 0 ≤ x := by
  simp [checkNonNegative]

theorem checkUnit_eq_ok_iff (name : String) (x : α) :
    checkUnit name x = .ok () ↔ 0 ≤ x ∧ x ≤ 1 := by
  simp [checkUnit]

theorem bind_eq_ok_iff {ε : Type} {a b : Except ε Unit} :
    (do a; b) = .ok () ↔ a = .ok () ∧ b = .ok () := by
  cases a with
  | error e => simp [bind, Except.bind]
  | ok u => simp [bind, Except.bind]

/-- The thresholds that pass are the valid ones. -/
theorem validate_eq_ok_iff {t : Thresholds α} : t.validate = .ok () ↔ t.Valid := by
  simp only [validate, bind_eq_ok_iff, checkNonNegative_eq_ok_iff, checkUnit_eq_ok_iff]
  constructor
  · rintro ⟨h₁, h₂, h₃, h₄, h₅, h₆⟩
    exact ⟨h₁, h₂, h₃, h₄, h₅, h₆⟩
  · rintro ⟨h₁, h₂, h₃, h₄, h₅, h₆⟩
    exact ⟨h₁, h₂, h₃, h₄, h₅, h₆⟩

end Exact

/-! ### Binary thresholds -/

/-- All thresholds, in the order of their fields. -/
def values {α : Type} (t : Thresholds α) : List α :=
  [t.averageChange, t.modelFit, t.fastBand, t.fastConfidence, t.fenceFactor, t.noiseTolerance]

/-- Every threshold is a finite number that is not negative, and what is a part of one is at most
one. -/
structure Sound (t : Thresholds Float) : Prop where
  finite : ∀ x ∈ t.values, x.isFinite ∧ 0 ≤ x
  modelFit : t.modelFit ≤ 1
  fastConfidence : t.fastConfidence ≤ 1

section Binary
variable {t : Thresholds Float} {x : Float}

theorem sound_of_checkNonNegative {name : String} (h : checkNonNegative name x = .ok ()) :
    x.isFinite ∧ 0 ≤ x := by
  unfold checkNonNegative at h
  split at h
  · cases h
  · next hok =>
    rw [Bool.or_eq_true, not_or] at hok
    obtain ⟨hfinite, hlt⟩ := hok
    have hx : Arithmetic.isFinite x := by simpa using hfinite
    exact ⟨hx, le_of_not_lt rfl (isNaN_of_isFinite hx) hlt⟩

theorem sound_of_checkUnit {name : String} (h : checkUnit name x = .ok ()) :
    (x.isFinite ∧ 0 ≤ x) ∧ x ≤ 1 := by
  unfold checkUnit at h
  split at h
  · next hok =>
    obtain ⟨hzero, hone⟩ := Bool.and_eq_true_iff.mp hok
    exact ⟨⟨isFinite_of_mem_unit hzero hone, hzero⟩, hone⟩
  · cases h

/-- Thresholds that pass are sound. -/
theorem sound_of_validate (h : t.validate = .ok ()) : t.Sound := by
  simp only [validate, bind_eq_ok_iff] at h
  obtain ⟨hchange, hband, hfactor, hnoise, hfit, hconfidence⟩ := h
  have hfit := sound_of_checkUnit hfit
  have hconfidence := sound_of_checkUnit hconfidence
  refine ⟨?_, hfit.2, hconfidence.2⟩
  simp only [values, List.forall_mem_cons]
  exact ⟨sound_of_checkNonNegative hchange, hfit.1, sound_of_checkNonNegative hband,
    hconfidence.1, sound_of_checkNonNegative hfactor, sound_of_checkNonNegative hnoise, by simp⟩

end Binary
end PerfDrift.Thresholds
