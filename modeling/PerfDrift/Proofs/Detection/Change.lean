import Mathlib.Algebra.Order.Floor.Semiring
import Mathlib.Data.List.Forall2
import PerfDrift.Detection.Comparison
import PerfDrift.Proofs.Samples.Quantile

/-! When a change counts.

Over exact numbers a target rises above a baseline by more than a part of it, falls below it
by more than that, or does neither (`Rises`, `Falls`); over a baseline of zero the sign of the
target says which. Averages and totals are judged by nothing else (`Average.classify_eq`,
`Outlier.classifyTotal_eq`), and the quick check sees every rise and every fall, of which it
is certain when they are large enough (`Quick.classify_eq`). A smaller part lets more changes
count and takes none back (`judged_mono`). -/
namespace PerfDrift.Detection
open Arithmetic

/-- What is made of the same items in two ways corresponds item by item. -/
theorem forall₂_map {β γ δ : Type} {R : γ → δ → Prop} {f : β → γ} {g : β → δ}
    (h : ∀ x, R (f x) (g x)) (xs : List β) : List.Forall₂ R (xs.map f) (xs.map g) := by
  rw [List.forall₂_map_left_iff, List.forall₂_map_right_iff, List.forall₂_same]
  exact fun x _ => h x

variable {α : Type} [Field α] [LinearOrder α]

/-- The target is above the baseline by more than a part of it. -/
def Rises (part baseline target : α) : Prop :=
  baseline = 0 ∧ 0 < target ∨ baseline ≠ 0 ∧ part < (target - baseline) / baseline

/-- The target is below the baseline by more than a part of it. -/
def Falls (part baseline target : α) : Prop :=
  baseline = 0 ∧ target < 0 ∨ baseline ≠ 0 ∧ (target - baseline) / baseline < -part

instance (part baseline target : α) : Decidable (Rises part baseline target) :=
  inferInstanceAs (Decidable (_ ∨ _))

instance (part baseline target : α) : Decidable (Falls part baseline target) :=
  inferInstanceAs (Decidable (_ ∨ _))

/-- The verdict on a target that rises or falls by more than a part of the baseline. -/
def judged (up down : Verdict) (part baseline target : α) : Verdict :=
  if Rises part baseline target then up
  else if Falls part baseline target then down
  else .noChange

section Order
variable {part part' baseline target : α}

@[simp] theorem rises_zero : Rises part 0 target ↔ 0 < target := by simp [Rises]

@[simp] theorem falls_zero : Falls part 0 target ↔ target < 0 := by simp [Falls]

theorem rises_iff (h : baseline ≠ 0) :
    Rises part baseline target ↔ part < (target - baseline) / baseline := by
  simp [Rises, h]

theorem falls_iff (h : baseline ≠ 0) :
    Falls part baseline target ↔ (target - baseline) / baseline < -part := by
  simp [Falls, h]

theorem Rises.mono (h : part ≤ part') (hr : Rises part' baseline target) :
    Rises part baseline target :=
  hr.imp_right fun hrate => ⟨hrate.1, h.trans_lt hrate.2⟩

theorem judged_of_rises {up down : Verdict} (h : Rises part baseline target) :
    judged up down part baseline target = up := if_pos h

theorem judged_of_neither {up down : Verdict} (hr : ¬Rises part baseline target)
    (hf : ¬Falls part baseline target) : judged up down part baseline target = .noChange := by
  rw [judged, if_neg hr, if_neg hf]

variable [IsStrictOrderedRing α]

theorem Falls.mono (h : part ≤ part') (hf : Falls part' baseline target) :
    Falls part baseline target :=
  hf.imp_right fun hrate => ⟨hrate.1, hrate.2.trans_le (neg_le_neg h)⟩

/-- Nothing rises and falls at once. -/
theorem Falls.not_rises (h : 0 ≤ part) (h' : 0 ≤ part') (hf : Falls part' baseline target) :
    ¬Rises part baseline target := by
  by_cases hb : baseline = 0
  · subst hb
    rw [falls_zero] at hf
    rw [rises_zero]
    exact hf.not_gt
  · rw [falls_iff hb] at hf
    rw [rises_iff hb]
    linarith

theorem judged_of_falls {up down : Verdict} (h : 0 ≤ part) (hf : Falls part baseline target) :
    judged up down part baseline target = down := by
  rw [judged, if_neg (hf.not_rises h h), if_pos hf]

/-- What counts beyond a larger part counts in the same way beyond a smaller one. -/
theorem judged_mono {up down : Verdict} (h : 0 ≤ part) (hle : part ≤ part')
    (hne : judged up down part' baseline target ≠ .noChange) :
    judged up down part baseline target = judged up down part' baseline target := by
  by_cases hr : Rises part' baseline target
  · rw [judged_of_rises hr, judged_of_rises (hr.mono hle)]
  · by_cases hf : Falls part' baseline target
    · rw [judged_of_falls (h.trans hle) hf, judged_of_falls h (hf.mono hle)]
    · exact absurd (judged_of_neither hr hf) hne

end Order

variable [FloorSemiring α] [Root α]

/-! ### The verdicts of the methods -/

theorem Average.classify_eq (threshold baseline target : α) :
    Average.classify threshold baseline target =
      (judged .degradation .optimization threshold baseline target,
        Samples.relativeRate baseline target) := by
  by_cases hb : baseline = 0
  · subst hb
    rcases lt_trichotomy target 0 with ht | rfl | ht
    · simp [Average.classify, judged, Samples.relativeRate_eq, ht, ht.ne, ht.not_gt]
    · simp [Average.classify, judged, Samples.relativeRate_eq]
    · simp [Average.classify, judged, Samples.relativeRate_eq, ht, ht.ne']
  · simp only [Average.classify, judged, Samples.relativeRate_eq, rises_iff hb, falls_iff hb, hb,
      if_false, Exact.lt_eq, decide_eq_true_eq]
    split_ifs <;> rfl

theorem Average.degradation_iff {threshold baseline target : α} :
    (Average.classify threshold baseline target).1 = .degradation ↔
      Rises threshold baseline target := by
  rw [Average.classify_eq, judged]
  split_ifs <;> simp_all

theorem Average.noChange_iff {threshold baseline target : α} :
    (Average.classify threshold baseline target).1 = .noChange ↔
      ¬Rises threshold baseline target ∧ ¬Falls threshold baseline target := by
  rw [Average.classify_eq, judged]
  split_ifs <;> simp_all

variable [IsStrictOrderedRing α]

theorem Average.optimization_iff {threshold baseline target : α} (h : 0 ≤ threshold) :
    (Average.classify threshold baseline target).1 = .optimization ↔
      Falls threshold baseline target := by
  have hone : Falls threshold baseline target → ¬Rises threshold baseline target :=
    Falls.not_rises h h
  rw [Average.classify_eq, judged]
  split_ifs <;> simp_all

theorem Quick.classify_eq (band least baseline target confidence : α) :
    Quick.classify band least baseline target confidence =
      (if Rises 0 baseline target then
          if baseline ≠ 0 ∧ Rises band baseline target ∧ least ≤ confidence then .degradation
          else .maybeDegradation
        else if Falls 0 baseline target then
          if baseline ≠ 0 ∧ Falls band baseline target ∧ least ≤ confidence then .optimization
          else .maybeOptimization
        else .noChange,
        Samples.relativeRate baseline target) := by
  by_cases hb : baseline = 0
  · subst hb
    rcases lt_trichotomy target 0 with ht | rfl | ht
    · simp [Quick.classify, Quick.perhaps, Samples.relativeRate_eq, ht, ht.ne, ht.not_gt]
    · simp [Quick.classify, Samples.relativeRate_eq]
    · simp [Quick.classify, Quick.perhaps, Samples.relativeRate_eq, ht, ht.ne']
  · simp only [Quick.classify, Quick.perhaps, Samples.relativeRate_eq, rises_iff hb,
      falls_iff hb, hb, if_false, Exact.eq_eq, Exact.lt_eq, Exact.le_eq, Exact.zero_eq,
      Exact.abs_eq]
    generalize (target - baseline) / baseline = rate
    rcases lt_trichotomy rate 0 with hr | rfl | hr
    · have hband : |rate| ≤ band ↔ ¬rate < -band := by rw [abs_of_neg hr, neg_le, not_lt]
      by_cases hcertain : rate < -band ∧ least ≤ confidence
      · simp [hb, hr, hr.ne, hr.not_gt, hband, hcertain, hcertain.2.not_gt]
      · simp [hr, hr.ne, hr.not_gt, hband, hcertain]
    · simp
    · have hband : |rate| ≤ band ↔ ¬band < rate := by rw [abs_of_pos hr, not_lt]
      by_cases hcertain : band < rate ∧ least ≤ confidence
      · simp [hb, hr, hr.ne', hband, hcertain, hcertain.2.not_gt]
      · simp [hr, hr.ne', hband, hcertain]

theorem Outlier.classifyTotal_eq {tolerance : α} (h : 0 ≤ tolerance) (total change : α) :
    Outlier.classifyTotal tolerance total change =
      (judged .totalDegradation .totalOptimization tolerance total (total + change),
        Samples.relativeRate total (total + change)) := by
  by_cases ht : total = 0
  · subst ht
    rcases lt_trichotomy change 0 with hc | rfl | hc
    · simp [Outlier.classifyTotal, Outlier.direction, judged, Samples.relativeRate_eq, hc, hc.ne,
        hc.not_gt]
    · simp [Outlier.classifyTotal, judged, Samples.relativeRate_eq]
    · simp [Outlier.classifyTotal, Outlier.direction, judged, Samples.relativeRate_eq, hc, hc.ne']
  · simp only [Outlier.classifyTotal, Outlier.direction, judged, Samples.relativeRate_eq,
      rises_iff ht, falls_iff ht, ht, if_false, Exact.lt_eq, Exact.le_eq, Exact.zero_eq,
      Exact.abs_eq, decide_eq_true_eq]
    generalize (total + change - total) / total = rate
    by_cases hsmall : |rate| ≤ tolerance
    · obtain ⟨hlow, hhigh⟩ := abs_le.mp hsmall
      rw [if_pos hsmall, if_neg hhigh.not_gt, if_neg hlow.not_gt]
    · rcases lt_or_ge 0 rate with hr | hr
      · have hrises : tolerance < rate := by rwa [abs_of_pos hr, not_le] at hsmall
        rw [if_neg hsmall, if_pos hr, if_pos hrises]
      · have hfalls : rate < -tolerance := by rwa [abs_of_nonpos hr, not_le, lt_neg] at hsmall
        rw [if_neg hsmall, if_neg hr.not_gt, if_neg (hr.trans h).not_gt, if_pos hfalls]

/-! ### What a quick verdict says -/

/-- The target is slower, perhaps. -/
def Slower (v : Verdict) : Prop := v = .degradation ∨ v = .maybeDegradation

/-- The target is faster, perhaps. -/
def Faster (v : Verdict) : Prop := v = .optimization ∨ v = .maybeOptimization

namespace Quick
variable {band least baseline target confidence : α}

theorem degradation_iff : (classify band least baseline target confidence).1 = .degradation ↔
    Rises 0 baseline target ∧ baseline ≠ 0 ∧ Rises band baseline target ∧ least ≤ confidence := by
  rw [classify_eq]
  split_ifs <;> simp_all

theorem optimization_iff : (classify band least baseline target confidence).1 = .optimization ↔
    Falls 0 baseline target ∧ baseline ≠ 0 ∧ Falls band baseline target ∧ least ≤ confidence := by
  have hone : Falls 0 baseline target → ¬Rises 0 baseline target := Falls.not_rises le_rfl le_rfl
  rw [classify_eq]
  split_ifs <;> simp_all

theorem slower_iff : Slower (classify band least baseline target confidence).1 ↔
    Rises 0 baseline target := by
  rw [classify_eq, Slower]
  split_ifs <;> simp_all

theorem faster_iff : Faster (classify band least baseline target confidence).1 ↔
    Falls 0 baseline target := by
  have hone : Falls 0 baseline target → ¬Rises 0 baseline target := Falls.not_rises le_rfl le_rfl
  rw [classify_eq, Faster]
  split_ifs <;> simp_all

theorem noChange_iff : (classify band least baseline target confidence).1 = .noChange ↔
    ¬Rises 0 baseline target ∧ ¬Falls 0 baseline target := by
  rw [classify_eq]
  split_ifs <;> simp_all

end Quick

end PerfDrift.Detection
