import PerfDrift.Proofs.Detection.Balance
import PerfDrift.Proofs.Detection.Change
import PerfDrift.Proofs.Samples.Frame

/-! Measurements in another unit.

Over exact numbers the unit of the amounts does not matter: rates are relative, fences and
balances are in the unit of the medians and sums they are held against, and growth does not look
at amounts. The quick check alone may tell units apart. It does not relate a spread to a mean
that is too close to zero, and what is too close to zero in one unit need not be in another.
Where the mean of the baseline is in both units or in neither, nothing changes; elsewhere a
finding keeps its place, its rate and its direction, and is made with full confidence in the unit
in which the mean is too small (`run_rescaled`). -/
namespace PerfDrift
open Samples (Vanishing)
variable {α : Type} [Field α]

/-- The same measurement in a unit of which `c` make up the one so far. -/
def Resource.rescale (c : α) (r : Resource α) : Resource α := {r with amount := c * r.amount}

namespace Profile

/-- The same measurements in a unit of which `c` make up the one so far. -/
def rescale (c : α) (p : Profile α) : Profile α :=
  {p with resources := p.resources.map (Resource.rescale c)}

theorem samples_rescale (c : α) (p : Profile α) :
    (p.rescale c).samples = p.samples.map (List.map (c * ·)) := by
  have hgroup : KeyMap.group Resource.location (p.rescale c).resources =
      (KeyMap.group Resource.location p.resources).map (List.map (Resource.rescale c)) :=
    KeyMap.group_map (Resource.rescale c) Resource.location p.resources
  rw [samples, hgroup, samples, KeyMap.map_map, KeyMap.map_map]
  simp only [List.map_map]
  rfl

/-- The samples of the locations that both profiles measure. -/
theorem meet_rescale (c : α) (b p : Profile α) :
    (b.rescale c).samples.meet (p.rescale c).samples =
      (b.samples.meet p.samples).map fun x => (x.1, x.2.1.map (c * ·), x.2.2.map (c * ·)) := by
  rw [samples_rescale, samples_rescale, KeyMap.meet_map]

theorem balance_rescale (c : α) (p : Profile α) : (p.rescale c).balance = c * p.balance := by
  have hweight : ∀ r : Resource α, (r.rescale c).weight = c * r.weight := fun r => mul_assoc ..
  rw [balance, rescale, List.map_map, balance, ← List.sum_map_mul_left]
  simp only [Function.comp_def, hweight]

variable [LinearOrder α] [FloorSemiring α] [Root α]

/-- The mean of a location is too close to zero for its spread to be related to. -/
def VanishesAt (p : Profile α) (location : String) : Prop :=
  Vanishing ((p.samples.get? location).getD [])

theorem vanishesAt_iff {p : Profile α} {location : String} {xs : List α}
    (h : p.samples.get? location = some xs) : p.VanishesAt location ↔ Vanishing xs := by
  rw [VanishesAt, h, Option.getD_some]

end Profile

namespace Detection
open Samples Arithmetic
variable [LinearOrder α] [FloorSemiring α] [Root α]

/-- What the findings of the quick check at one place in two units have in common, and what
becomes of the confidence where the baseline is too close to zero in one of them. -/
structure Reassessed (b b' : Profile α) (f f' : Finding α) : Prop where
  rest : f' = {f with verdict := f'.verdict, confidence := f'.confidence}
  slower : Slower f'.verdict ↔ Slower f.verdict
  faster : Faster f'.verdict ↔ Faster f.verdict
  same : (b'.VanishesAt f.location ↔ b.VanishesAt f.location) → f' = f
  before : b.VanishesAt f.location → f.confidence = some 1
  after : b'.VanishesAt f.location → f'.confidence = some 1

/-- Growth looks at the models, and of amounts only at where they were taken. -/
theorem Growth.compare_rescale (c least : α) (b p : Profile α) :
    compare least (b.rescale c) (p.rescale c) = compare least b p := by
  have hlocations : locations (b.rescale c) (p.rescale c) = locations b p := by
    rw [locations, Profile.meet_rescale, List.map_map]
    rfl
  rw [compare, hlocations, compare]
  rfl

variable [IsStrictOrderedRing α] {c : α} (hc : 0 < c)

/-! ### Relative changes -/

section Rates
include hc

theorem relativeRate_mul (baseline target : α) :
    relativeRate (c * baseline) (c * target) = relativeRate baseline target := by
  rw [relativeRate_eq, relativeRate_eq, ← mul_sub, mul_div_mul_left _ _ hc.ne']
  simp only [mul_eq_zero, hc.ne', false_or]

theorem rises_mul {part baseline target : α} :
    Rises part (c * baseline) (c * target) ↔ Rises part baseline target := by
  rw [Rises, Rises, ← mul_sub, mul_div_mul_left _ _ hc.ne']
  simp only [mul_eq_zero, hc.ne', false_or, mul_pos_iff_of_pos_left hc, ne_eq]

theorem falls_mul {part baseline target : α} :
    Falls part (c * baseline) (c * target) ↔ Falls part baseline target := by
  have hneg : c * target < 0 ↔ target < 0 := smul_neg_iff_of_pos_left hc
  rw [Falls, Falls, ← mul_sub, mul_div_mul_left _ _ hc.ne']
  simp only [mul_eq_zero, hc.ne', false_or, hneg, ne_eq]

/-! ### Verdicts -/

theorem Average.classify_mul (threshold baseline target : α) :
    classify threshold (c * baseline) (c * target) = classify threshold baseline target := by
  rw [classify_eq, classify_eq, relativeRate_mul hc, judged, judged]
  simp only [rises_mul hc, falls_mul hc]

theorem Quick.classify_mul (band least baseline target confidence : α) :
    classify band least (c * baseline) (c * target) confidence =
      classify band least baseline target confidence := by
  rw [classify_eq, classify_eq, relativeRate_mul hc]
  simp only [rises_mul hc, falls_mul hc, mul_eq_zero, hc.ne', false_or, ne_eq]

/-- The fence is in the unit of the median. -/
theorem Outlier.classify_mul (factor : α) (baseline target : List α) :
    classify factor (baseline.map (c * ·)) (target.map (c * ·)) =
      classify factor baseline target := by
  have hfence : factor * (c * interquartile baseline) = c * (factor * interquartile baseline) :=
    mul_left_comm ..
  simp only [classify, median_map_mul _ hc, interquartile_map_mul _ hc, relativeRate_mul hc,
    hfence, ← mul_add, ← mul_sub, Exact.lt_eq, mul_lt_mul_iff_right₀ hc]

theorem Outlier.classifyTotal_mul (tolerance total change : α) :
    classifyTotal tolerance (c * total) (c * change) = classifyTotal tolerance total change := by
  rw [classifyTotal, ← mul_add, relativeRate_mul hc, classifyTotal]
  cases relativeRate total (total + change) with
  | some rate => rfl
  | none =>
    simp only [direction, Exact.zero_eq, Exact.eq_eq, Exact.lt_eq, mul_eq_zero, hc.ne', false_or,
      mul_pos_iff_of_pos_left hc]

/-! ### Findings -/

theorem Outlier.totalFinding_rescale (tolerance : α) (b p : Profile α) :
    totalFinding tolerance (b.rescale c) (p.rescale c) = totalFinding tolerance b p := by
  simp only [totalFinding, Profile.sum_totals, sum_changes, Profile.balance_rescale, ← mul_sub,
    classifyTotal_mul hc]

theorem Outlier.compare_rescale (factor tolerance : α) (b p : Profile α) :
    compare factor tolerance (b.rescale c) (p.rescale c) = compare factor tolerance b p := by
  rw [compare, Profile.meet_rescale, List.map_map, totalFinding_rescale hc, compare]
  simp only [Function.comp_def, finding, classify_mul hc]

theorem Average.compare_rescale (threshold : α) (b p : Profile α) :
    compare threshold (b.rescale c) (p.rescale c) = compare threshold b p := by
  rw [compare, Profile.meet_rescale, List.map_map, compare]
  simp only [Function.comp_def, finding, mean_map_mul, classify_mul hc]

end Rates

variable [ExactRoot α]

theorem Quick.stability_of_vanishing {xs : List α} (h : Vanishing xs) : stability xs = 1 := by
  simp [stability, clampUnit, variation_eq, h]

include hc in
/-- The findings at a location with the samples in both units. -/
theorem Quick.finding_mul (band least : α) (location : String) {b b' : Profile α}
    {baseline : List α} (target : List α) (hb : b.samples.get? location = some baseline)
    (hb' : b'.samples.get? location = some (baseline.map (c * ·))) :
    Reassessed b b' (finding band least location baseline target)
      (finding band least location (baseline.map (c * ·)) (target.map (c * ·))) where
  rest := by
    simp only [finding, Finding.withConfidence, mean_map_mul, classify_mul hc, classify_eq]
  slower := by
    simp only [finding, Finding.withConfidence, mean_map_mul, slower_iff, rises_mul hc]
  faster := by
    simp only [finding, Finding.withConfidence, mean_map_mul, faster_iff, falls_mul hc]
  same h := by
    have hv : Vanishing (baseline.map (c * ·)) ↔ Vanishing baseline :=
      (Profile.vanishesAt_iff hb').symm.trans (h.trans (Profile.vanishesAt_iff hb))
    simp only [finding, stability, variation_map_mul baseline hc hv, mean_map_mul, classify_mul hc]
  before h := by
    have hv : Vanishing baseline := (Profile.vanishesAt_iff hb).mp h
    simp [finding, Finding.withConfidence, stability_of_vanishing hv, clampUnit]
  after h := by
    have hv : Vanishing (baseline.map (c * ·)) := (Profile.vanishesAt_iff hb').mp h
    simp [finding, Finding.withConfidence, stability_of_vanishing hv, clampUnit]

include hc in
theorem Quick.compare_rescale (band least : α) (b p : Profile α) :
    List.Forall₂ (Reassessed b (b.rescale c)) (compare band least b p)
      (compare band least (b.rescale c) (p.rescale c)) := by
  rw [compare, compare, Profile.meet_rescale, List.map_map, List.forall₂_map_left_iff,
    List.forall₂_map_right_iff, List.forall₂_same]
  rintro ⟨location, baseline, target⟩ hx
  have hb : b.samples.get? location = some baseline := (KeyMap.mem_meet.mp hx).1
  have hb' : (b.rescale c).samples.get? location = some (baseline.map (c * ·)) := by
    rw [Profile.samples_rescale, KeyMap.get?_map, hb, Option.map_some]
  exact finding_mul hc band least location target hb hb'

/-- **Findings do not depend on the unit of the amounts, but for what is too close to zero to be
certain of.** When all amounts of both profiles are multiplied by a positive number, averages,
growth and outliers find the same as before, whatever the thresholds are. The quick check finds
the same wherever the mean of the baseline is closer to zero than a millionth in both units or in
neither. Where it is in one of them only, the finding has the same rate and the same direction,
but is made with full confidence there. -/
theorem run_rescaled (t : Thresholds α) (hc : 0 < c) (b p : Profile α) :
    (∀ m ≠ .fastCheck, run t (b.rescale c) (p.rescale c) m = run t b p m) ∧
      List.Forall₂ (Reassessed b (b.rescale c)) (run t b p .fastCheck)
        (run t (b.rescale c) (p.rescale c) .fastCheck) := by
  refine ⟨fun m hm => ?_, Quick.compare_rescale hc _ _ b p⟩
  cases m with
  | averageAmount => exact Average.compare_rescale hc _ b p
  | modelOrder => exact Growth.compare_rescale c _ b p
  | fastCheck => exact absurd rfl hm
  | timeOutliers => exact Outlier.compare_rescale hc _ _ b p

/-- Times in microseconds and in nanoseconds, of a location that both profiles measure, of one that
only the target does, and of one whose mean is too close to zero in microseconds alone. -/
theorem run_rescaled_trial :
    let b : Profile ℝ :=
      {origin := "a", collector := "time", command := "ls"
       resources := [{location := "main", amount := 2}, {location := "main", amount := 3},
        {location := "tick", amount := 1 / 10 ^ 8}, {location := "tick", amount := 3 / 10 ^ 8}]}
    let p : Profile ℝ :=
      {origin := "b", collector := "time", command := "ls"
       resources := [{location := "main", amount := 4}, {location := "loop", amount := 1 / 10},
        {location := "tick", amount := 2 / 10 ^ 8}]}
    let c : ℝ := 10 ^ 3
    0 < c ∧ b.VanishesAt "tick" ∧ ¬(b.rescale c).VanishesAt "tick" ∧
      (∀ m ≠ .fastCheck, run .standard (b.rescale c) (p.rescale c) m = run .standard b p m) ∧
      List.Forall₂ (Reassessed b (b.rescale c)) (run .standard b p .fastCheck)
        (run .standard (b.rescale c) (p.rescale c) .fastCheck) := by
  intro b p c
  have hc : 0 < c := by norm_num [c]
  have hsamples : b.samples.get? "tick" = some [1 / 10 ^ 8, 3 / 10 ^ 8] := by
    rw [Profile.samples, KeyMap.get?_map, KeyMap.get?_group]
    simp [b]
  have hrescaled : (b.rescale c).samples.get? "tick" =
      some ([1 / 10 ^ 8, 3 / 10 ^ 8].map (c * ·)) := by
    rw [Profile.samples_rescale, KeyMap.get?_map, hsamples, Option.map_some]
  have hbefore : b.VanishesAt "tick" := by
    rw [Profile.vanishesAt_iff hsamples]
    norm_num [Vanishing, mean_eq]
  have hafter : ¬(b.rescale c).VanishesAt "tick" := by
    rw [Profile.vanishesAt_iff hrescaled, Vanishing, mean_map_mul]
    norm_num [mean_eq, c]
  exact ⟨hc, hbefore, hafter, run_rescaled .standard hc b p⟩

/-- A baseline that varies by half of its mean is no base for certainty, and in a unit in which
the mean is too close to zero it is. -/
theorem quick_tells_units_apart :
    let b : Profile ℝ :=
      {origin := "a", collector := "time", command := "ls"
       resources := [{location := "main", amount := 1}, {location := "main", amount := 3}]}
    let p : Profile ℝ :=
      {origin := "b", collector := "time", command := "ls"
       resources := [{location := "main", amount := 4}]}
    let c : ℝ := 1 / 10 ^ 7
    let f : Finding ℝ :=
      {strategy := "fast", location := "main", verdict := .maybeDegradation, rate := some 1
       confidenceKind := .stability, confidence := some (1 / 2)}
    0 < c ∧ run .standard b p .fastCheck = [f] ∧
      run .standard (b.rescale c) (p.rescale c) .fastCheck =
        [{f with verdict := .degradation, confidence := some 1}] := by
  intro b p c f
  have hc : 0 < c := by norm_num [c]
  have hshared : b.samples.meet p.samples = [("main", [1, 3], [4])] := by
    simp [b, p, Profile.samples, KeyMap.group, KeyMap.alter, KeyMap.insert, placeKey, KeyMap.get?,
      KeyMap.empty, KeyMap.map, KeyMap.meet]
  have hbefore : mean [(1 : ℝ), 3] = 2 := by norm_num [mean_eq]
  have hafter : mean [(4 : ℝ)] = 4 := by norm_num [mean_eq]
  have hstability : Quick.stability [(1 : ℝ), 3] = 1 / 2 := by
    have hv : ¬Vanishing [(1 : ℝ), 3] := by norm_num [Vanishing, hbefore]
    have hvariance : variance [(1 : ℝ), 3] = 1 := by norm_num [variance, mean_eq]
    rw [Quick.stability, variation_eq, if_neg hv, hvariance, hbefore,
      ExactRoot.root_eq zero_le_one (mul_one 1)]
    norm_num [clampUnit]
  have hvanishing : Vanishing ([1, 3].map (c * ·)) := by
    rw [Vanishing, mean_map_mul, hbefore]
    norm_num [c]
  have hverdict (confidence : ℝ) : Quick.classify (1 / 20) (9 / 10) 2 4 confidence =
      (if 9 / 10 ≤ confidence then .degradation else .maybeDegradation, some 1) := by
    norm_num [Quick.classify_eq, Rises, relativeRate_eq]
  have ht : (Thresholds.standard : Thresholds ℝ).fastBand = 1 / 20 ∧
      (Thresholds.standard : Thresholds ℝ).fastConfidence = 9 / 10 := by
    norm_num [Thresholds.standard]
  refine ⟨hc, ?_, ?_⟩
  · have hfinding : run .standard b p .fastCheck =
        [Quick.finding (1 / 20) (9 / 10) "main" [1, 3] [4]] := by
      rw [run, ht.1, ht.2, Quick.compare, hshared]
      rfl
    rw [hfinding]
    simp only [Quick.finding, hbefore, hafter, hstability, hverdict]
    norm_num [Finding.withConfidence, clampUnit, f]
    rfl
  · have hfinding : run .standard (b.rescale c) (p.rescale c) .fastCheck =
        [Quick.finding (1 / 20) (9 / 10) "main" ([1, 3].map (c * ·)) ([4].map (c * ·))] := by
      rw [run, ht.1, ht.2, Quick.compare, Profile.meet_rescale, hshared]
      rfl
    rw [hfinding]
    simp only [Quick.finding, mean_map_mul, hbefore, hafter, Quick.classify_mul hc,
      Quick.stability_of_vanishing hvanishing, hverdict]
    norm_num [Finding.withConfidence, clampUnit, f]
    rfl

end Detection
end PerfDrift
