import PerfDrift.Proofs.Detection.Growth
import PerfDrift.Proofs.Detection.Selection
import PerfDrift.Proofs.Number.Binary
import PerfDrift.Proofs.Profile.Document

/-! Findings stay in range.

Every method divides, and every quotient that is no number or beyond all numbers is dropped: a
rate that is there is finite, and a confidence that is there lies in `[0, 1]`
(`Detection.inRange_of_mem_runAll`). -/
namespace PerfDrift
open Arithmetic

/-- The rate of a finding is finite, and its confidence in `[0, 1]`. -/
structure Finding.InRange (f : Finding Float) : Prop where
  rate : ∀ x, f.rate = some x → x.isFinite
  confidence : ∀ x, f.confidence = some x → 0 ≤ x ∧ x ≤ 1

namespace Samples

theorem relativeRate_isFinite {baseline target rate : Float}
    (h : relativeRate baseline target = some rate) : rate.isFinite := by
  unfold relativeRate at h
  split at h
  · cases h
  · obtain ⟨hfinite, he⟩ := Option.ite_none_right_eq_some.mp h
    rw [← Option.some.inj he]
    exact hfinite

/-- A spread beyond all numbers is not reported. -/
theorem variation_isFinite (xs : List Float) : (variation xs).isFinite := by
  unfold variation
  split
  · rfl
  · dsimp only
    split
    · rfl
    · split
      · next hfinite => exact hfinite
      · rfl

end Samples

theorem Finding.inRange_of_rate {f : Finding Float} {before after : Float}
    (hrate : f.rate = Samples.relativeRate before after) (hconfidence : f.confidence = none) :
    f.InRange where
  rate x hx := Samples.relativeRate_isFinite (hrate.symm.trans hx)
  confidence x hx := by
    rw [hconfidence] at hx
    cases hx

namespace Detection
variable {baseline target : Profile Float} {t : Thresholds Float}

/-! ### Rates -/

theorem Average.classify_rate (threshold before after : Float) :
    (Average.classify threshold before after).2 = Samples.relativeRate before after := by
  unfold Average.classify
  cases Samples.relativeRate before after with
  | none => dsimp only; split_ifs <;> rfl
  | some rate => dsimp only; split_ifs <;> rfl

theorem Quick.classify_rate (band least before after confidence : Float) :
    (Quick.classify band least before after confidence).2 = Samples.relativeRate before after := by
  unfold Quick.classify
  cases Samples.relativeRate before after with
  | none => dsimp only; split_ifs <;> rfl
  | some rate => dsimp only; split_ifs <;> rfl

theorem Outlier.classifyTotal_rate (tolerance total change : Float) :
    (Outlier.classifyTotal tolerance total change).2 =
      Samples.relativeRate total (total + change) := by
  unfold Outlier.classifyTotal
  cases Samples.relativeRate total (total + change) <;> rfl

/-! ### Confidences -/

theorem Quick.stability_isFinite (xs : List Float) : (Quick.stability xs).isFinite := by
  have hnumber := isNaN_sub (x := one) rfl (Samples.variation_isFinite xs)
  obtain ⟨hzero, hone⟩ := clampUnit_mem hnumber
  exact isFinite_of_mem_unit hzero hone

/-- The best fit is that of one of the models. -/
theorem Growth.fitOf_isFinite {ms : List (FittedModel Float)} (h : ∀ m ∈ ms, m.fit.isFinite) :
    (fitOf (best? ms)).isFinite := by
  cases hbest : best? ms with
  | none => rfl
  | some m => exact h m (mem_of_best? hbest)

theorem lesser_isFinite {x y : Float} (hx : x.isFinite) (hy : y.isFinite) :
    (lesser x y).isFinite := by
  unfold lesser
  split_ifs
  · exact hy
  · exact hx
  · exact hy

/-! ### Findings -/

/-- Whatever a method finds is in range. -/
theorem inRange_of_mem_run (hb : baseline.IsFinite) (ht : target.IsFinite) {m : Method}
    {f : Finding Float} (hf : f ∈ run t baseline target m) : f.InRange := by
  cases m with
  | averageAmount =>
    obtain ⟨x, -, rfl⟩ := List.mem_map.mp hf
    exact Finding.inRange_of_rate (Average.classify_rate ..) rfl
  | modelOrder =>
    obtain ⟨location, -, rfl⟩ := List.mem_map.mp hf
    have hfit : ∀ p : Profile Float, p.IsFinite →
        (Growth.fitOf (Growth.best? ((p.modelsByLocation.get? location).getD []))).isFinite := by
      intro p hp
      refine Growth.fitOf_isFinite fun m hm => hp.fits m ?_
      rw [Profile.modelsByLocation, KeyMap.getD_get?_group] at hm
      exact List.mem_of_mem_filter hm
    refine ⟨fun rate hrate => ?_, fun confidence hconfidence => ?_⟩
    · cases hrate
    · cases hconfidence
      exact clampUnit_mem (isNaN_of_isFinite (lesser_isFinite (hfit _ hb) (hfit _ ht)))
  | fastCheck =>
    obtain ⟨x, -, rfl⟩ := List.mem_map.mp hf
    refine ⟨fun rate hrate => ?_, fun confidence hconfidence => ?_⟩
    · exact Samples.relativeRate_isFinite ((Quick.classify_rate ..).symm.trans hrate)
    · cases hconfidence
      exact clampUnit_mem (isNaN_of_isFinite (Quick.stability_isFinite _))
  | timeOutliers =>
    rcases List.mem_append.mp hf with hf | hf
    · obtain ⟨x, -, rfl⟩ := List.mem_map.mp hf
      exact Finding.inRange_of_rate rfl rfl
    · rw [List.mem_singleton.mp hf]
      exact Finding.inRange_of_rate (Outlier.classifyTotal_rate ..) rfl

theorem inRange_of_mem_runAll (hb : baseline.IsFinite) (ht : target.IsFinite)
    {methods : List Method} {f : Finding Float} (hf : f ∈ runAll t baseline target methods) :
    f.InRange := by
  obtain ⟨m, -, hm⟩ := List.mem_flatMap.mp ((runAll_perm ..).mem_iff.mp hf)
  exact inRange_of_mem_run hb ht hm

end Detection
end PerfDrift
