import PerfDrift.Proofs.Detection.Balance
import PerfDrift.Proofs.Detection.Change
import PerfDrift.Proofs.Samples.Domination
import PerfDrift.Proofs.Thresholds

/-! Slower targets.

A target that is nowhere faster than another one gets no better a verdict than that, at any
location and on the total. Over exact numbers the means, the medians and the balance of the
slower target are nowhere below those of the other one, and every verdict goes up with them as
long as the baseline is not negative (`run_monotone`). The order of the samples of a location
may be another one in each target; verdicts on models do not move at all. -/
namespace PerfDrift

/-! ### Scales of verdicts -/

namespace Verdict

/-- The verdicts on a location, from the best to the worst. -/
def scale : List Verdict :=
  [optimization, maybeOptimization, noChange, maybeDegradation, degradation]

/-- The verdicts on the total, from the best to the worst. -/
def totalScale : List Verdict := [totalOptimization, noChange, totalDegradation]

/-- Both verdicts stand on a scale, and the first no further on than the second. -/
def AtMost (scale : List Verdict) (v v' : Verdict) : Prop :=
  v ∈ scale ∧ v' ∈ scale ∧ scale.idxOf v ≤ scale.idxOf v'

instance (scale : List Verdict) (v v' : Verdict) : Decidable (AtMost scale v v') :=
  inferInstanceAs (Decidable (_ ∧ _ ∧ _))

variable {scale : List Verdict} {v v' v'' : Verdict}

theorem AtMost.refl (h : v ∈ scale) : AtMost scale v v := ⟨h, h, le_rfl⟩

theorem AtMost.trans (h : AtMost scale v v') (h' : AtMost scale v' v'') : AtMost scale v v'' :=
  ⟨h.1, h'.2.1, h.2.2.trans h'.2.2⟩

end Verdict

/-! ### Targets that are nowhere faster -/

section Targets
variable {α : Type} [LinearOrder α]

/-- One measurement is that of the other, with an amount that is not greater. -/
structure Resource.AtMost (r r' : Resource α) : Prop where
  location : r.location = r'.location
  calls : r.calls = r'.calls
  amount : r.amount ≤ r'.amount

/-- One profile holds the measurements and models of the other, with amounts that are nowhere
greater. -/
structure Profile.AtMost (p p' : Profile α) : Prop where
  resources : List.Forall₂ Resource.AtMost p.resources p'.resources
  models : p.models = p'.models

namespace Profile.AtMost
variable {p p' : Profile α}

/-- The samples of each location are nowhere greater. -/
theorem samples (h : p.AtMost p') (location : String) :
    Option.Rel (List.Forall₂ (· ≤ ·)) (p.samples.get? location) (p'.samples.get? location) := by
  rw [Profile.samples, Profile.samples, KeyMap.get?_map, KeyMap.get?_map]
  match (KeyMap.group Resource.location p.resources).get? location,
    (KeyMap.group Resource.location p'.resources).get? location,
    KeyMap.rel_get?_group (fun _ _ hr => hr.location) h.resources location with
  | _, _, .none => exact .none
  | _, _, .some hgroup =>
    refine .some ?_
    rw [List.forall₂_map_left_iff, List.forall₂_map_right_iff]
    exact hgroup.imp fun _ _ hr => hr.amount

theorem samples_keys (h : p.AtMost p') : p.samples.keys = p'.samples.keys :=
  KeyMap.keys_eq_of_rel h.samples

theorem balance [Field α] [IsStrictOrderedRing α] (h : p.AtMost p') : p.balance ≤ p'.balance := by
  refine List.Forall₂.sum_le_sum ?_
  rw [List.forall₂_map_left_iff, List.forall₂_map_right_iff]
  refine h.resources.imp fun r r' hr => ?_
  rw [Resource.weight, Resource.weight, hr.calls]
  exact mul_le_mul_of_nonneg_right hr.amount (Nat.cast_nonneg _)

end Profile.AtMost

/-- Which locations the target measures is all that is looked at apart from its models. -/
theorem Detection.Growth.compare_atMost [Arithmetic α] (least : α) (baseline : Profile α)
    {p p' : Profile α} (h : p.AtMost p') :
    compare least baseline p = compare least baseline p' := by
  simp only [compare, locations, Profile.modelsByLocation, h.models, KeyMap.meet_keys,
    h.samples_keys]

/-! ### Baselines that are not negative -/

variable [Field α]

theorem Profile.samples_nonneg {p : Profile α} (h : ∀ r ∈ p.resources, 0 ≤ r.amount)
    {location : String} {xs : List α} (hxs : p.samples.get? location = some xs) :
    ∀ x ∈ xs, 0 ≤ x := by
  rw [samples, KeyMap.get?_map, KeyMap.get?_group] at hxs
  obtain ⟨rs, hrs, rfl⟩ := Option.map_eq_some_iff.mp hxs
  obtain ⟨-, hgroup⟩ := Option.ite_none_left_eq_some.mp hrs
  rw [← Option.some.inj hgroup]
  exact List.forall_mem_map.mpr fun r hr => h r (List.mem_of_mem_filter hr)

theorem Profile.balance_nonneg [IsStrictOrderedRing α] {p : Profile α}
    (h : ∀ r ∈ p.resources, 0 ≤ r.amount) : 0 ≤ p.balance := by
  refine List.sum_nonneg fun x hx => ?_
  obtain ⟨r, hr, rfl⟩ := List.mem_map.mp hx
  exact mul_nonneg (h r hr) (Nat.cast_nonneg _)

end Targets

namespace Detection
open Arithmetic Verdict
variable {α : Type} [Field α] [LinearOrder α]

/-! ### The findings -/

/-- A finding at the same place for the same strategy, with a verdict that is not worse. -/
structure NoSlower (scale : List Verdict) (f f' : Finding α) : Prop where
  strategy : f.strategy = f'.strategy
  location : f.location = f'.location
  verdict : AtMost scale f.verdict f'.verdict

/-- Findings that are made from the samples of each location correspond if they do at each. -/
theorem noSlower_at_locations {baseline target target' : Profile α}
    (finding : String → List α → List α → Finding α)
    (hb : ∀ r ∈ baseline.resources, 0 ≤ r.amount) (h : target.AtMost target')
    (hfinding : ∀ location before after after', (∀ x ∈ before, 0 ≤ x) →
      List.Forall₂ (· ≤ ·) after after' →
      NoSlower scale (finding location before after) (finding location before after')) :
    List.Forall₂ (NoSlower scale)
      ((baseline.samples.meet target.samples).map fun x => finding x.1 x.2.1 x.2.2)
      ((baseline.samples.meet target'.samples).map fun x => finding x.1 x.2.1 x.2.2) := by
  have hnonneg : ∀ x ∈ baseline.samples.meet target.samples, ∀ y ∈ x.2.1, 0 ≤ y :=
    fun x hx => Profile.samples_nonneg hb (KeyMap.mem_meet.mp hx).1
  have hmeet := (List.forall₂_and_left _ _).mpr
    ⟨hnonneg, KeyMap.forall₂_meet h.samples baseline.samples⟩
  rw [List.forall₂_map_left_iff, List.forall₂_map_right_iff]
  refine hmeet.imp fun x x' hx => ?_
  obtain ⟨hbefore, hlocation, hsame, hafter⟩ := hx
  rw [← hlocation, ← hsame]
  exact hfinding x.1 x.2.1 x.2.2 x'.2.2 hbefore hafter

/-! ### Verdicts that are made from the change -/

variable [IsStrictOrderedRing α]

section Change
variable {part baseline target target' : α}

theorem Rises.of_le (hb : 0 ≤ baseline) (hle : target ≤ target')
    (h : Rises part baseline target) : Rises part baseline target' := by
  rcases h with ⟨hzero, hpos⟩ | ⟨hne, hrate⟩
  · exact .inl ⟨hzero, hpos.trans_le hle⟩
  · refine .inr ⟨hne, hrate.trans_le ?_⟩
    gcongr

theorem Falls.of_le (hb : 0 ≤ baseline) (hle : target ≤ target')
    (h : Falls part baseline target') : Falls part baseline target := by
  rcases h with ⟨hzero, hneg⟩ | ⟨hne, hrate⟩
  · exact .inl ⟨hzero, hle.trans_lt hneg⟩
  · refine .inr ⟨hne, lt_of_le_of_lt ?_ hrate⟩
    gcongr

/-- On a scale where a fall is at most no change, and that at most a rise. -/
theorem judged_monotone {scale : List Verdict} {up down : Verdict}
    (hdown : AtMost scale down .noChange) (hup : AtMost scale .noChange up) (h : 0 ≤ part)
    (hb : 0 ≤ baseline) (hle : target ≤ target') :
    AtMost scale (judged up down part baseline target) (judged up down part baseline target') := by
  by_cases hr' : Rises part baseline target'
  · rw [judged_of_rises hr', judged]
    split_ifs
    · exact .refl hup.2.1
    · exact hdown.trans hup
    · exact hup
  · have hr : ¬Rises part baseline target := mt (Rises.of_le hb hle) hr'
    by_cases hf : Falls part baseline target
    · rw [judged_of_falls h hf, judged, if_neg hr']
      split_ifs
      · exact .refl hdown.1
      · exact hdown
    · have hf' : ¬Falls part baseline target' := mt (Falls.of_le hb hle) hf
      rw [judged_of_neither hr hf, judged_of_neither hr' hf']
      exact .refl hup.1

variable [FloorSemiring α] [Root α]

theorem Average.classify_monotone {threshold : α} (h : 0 ≤ threshold) (hb : 0 ≤ baseline)
    (hle : target ≤ target') :
    AtMost scale (classify threshold baseline target).1
      (classify threshold baseline target').1 := by
  rw [classify_eq, classify_eq]
  exact judged_monotone (by decide) (by decide) h hb hle

/-- The direction goes first, and in it the certainty. -/
theorem Quick.classify_monotone {band least confidence : α} (hb : 0 ≤ baseline)
    (hle : target ≤ target') :
    AtMost scale (classify band least baseline target confidence).1
      (classify band least baseline target' confidence).1 := by
  rw [classify_eq, classify_eq]
  dsimp only
  by_cases hr' : Rises 0 baseline target'
  · by_cases hr : Rises 0 baseline target
    · have hcertain : baseline ≠ 0 ∧ Rises band baseline target ∧ least ≤ confidence →
          baseline ≠ 0 ∧ Rises band baseline target' ∧ least ≤ confidence :=
        fun hc => ⟨hc.1, hc.2.1.of_le hb hle, hc.2.2⟩
      rw [if_pos hr, if_pos hr']
      split_ifs with h h'
      · decide
      · exact absurd (hcertain h) h'
      · decide
      · decide
    · rw [if_neg hr, if_pos hr']
      split_ifs <;> decide
  · have hr : ¬Rises 0 baseline target := mt (Rises.of_le hb hle) hr'
    rw [if_neg hr, if_neg hr']
    by_cases hf : Falls 0 baseline target
    · by_cases hf' : Falls 0 baseline target'
      · have hcertain : baseline ≠ 0 ∧ Falls band baseline target' ∧ least ≤ confidence →
            baseline ≠ 0 ∧ Falls band baseline target ∧ least ≤ confidence :=
          fun hc => ⟨hc.1, hc.2.1.of_le hb hle, hc.2.2⟩
        rw [if_pos hf, if_pos hf']
        split_ifs with h h'
        · decide
        · decide
        · exact absurd (hcertain ‹_›) h
        · decide
      · rw [if_pos hf, if_neg hf']
        split_ifs <;> decide
    · have hf' : ¬Falls 0 baseline target' := mt (Falls.of_le hb hle) hf
      rw [if_neg hf, if_neg hf']
      decide

end Change

variable [FloorSemiring α] [Root α]

/-- Going up, a median leaves the fence above and never below. -/
theorem Outlier.classify_monotone {factor : α} (h : 0 ≤ factor) (baseline : List α)
    {target target' : List α} (hle : List.Forall₂ (· ≤ ·) target target') :
    AtMost scale (classify factor baseline target).1 (classify factor baseline target').1 := by
  have hmedian := Samples.median_le hle
  have hfence : 0 ≤ factor * Samples.interquartile baseline :=
    mul_nonneg h (Samples.interquartile_nonneg baseline)
  simp only [classify, Exact.lt_eq, decide_eq_true_eq]
  split_ifs <;> first | decide | linarith

theorem Growth.classify_mem_scale (before after : Option ModelKind) :
    Growth.classify before after ∈ scale := by
  unfold Growth.classify
  split
  · split_ifs <;> decide
  · decide

/-! ### All findings -/

variable {t : Thresholds α} {baseline target target' : Profile α}

theorem run_noSlower (ht : t.Valid) (hb : ∀ r ∈ baseline.resources, 0 ≤ r.amount)
    (h : target.AtMost target') {m : Method} (hm : m ≠ .timeOutliers) :
    List.Forall₂ (NoSlower scale) (run t baseline target m) (run t baseline target' m) := by
  cases m with
  | averageAmount =>
    refine noSlower_at_locations (Average.finding t.averageChange) hb h
      fun location before after after' hbefore hafter => ?_
    exact ⟨rfl, rfl, Average.classify_monotone ht.averageChange (Samples.mean_nonneg hbefore)
      (Samples.mean_le hafter)⟩
  | modelOrder =>
    rw [run, run, Growth.compare_atMost t.modelFit baseline h]
    refine List.forall₂_same.mpr fun f hf => ?_
    obtain ⟨location, -, rfl⟩ := List.mem_map.mp hf
    exact ⟨rfl, rfl, .refl (Growth.classify_mem_scale _ _)⟩
  | fastCheck =>
    refine noSlower_at_locations (Quick.finding t.fastBand t.fastConfidence) hb h
      fun location before after after' hbefore hafter => ?_
    exact ⟨rfl, rfl, Quick.classify_monotone (Samples.mean_nonneg hbefore)
      (Samples.mean_le hafter)⟩
  | timeOutliers => exact absurd rfl hm

theorem Outlier.totalFinding_noSlower {tolerance : α} (htolerance : 0 ≤ tolerance)
    (hb : ∀ r ∈ baseline.resources, 0 ≤ r.amount) (h : target.AtMost target') :
    NoSlower totalScale (totalFinding tolerance baseline target)
      (totalFinding tolerance baseline target') := by
  refine ⟨rfl, rfl, ?_⟩
  simp only [totalFinding, classifyTotal_eq htolerance, Profile.sum_totals, sum_changes,
    add_sub_cancel]
  exact judged_monotone (by decide) (by decide) htolerance (Profile.balance_nonneg hb) h.balance

/-- **A slower target gets no better verdict.** With valid thresholds and a baseline without
negative amounts, take two targets with the same models, measured at the same locations in the
same order for the same calls, of which one has nowhere the greater amount. Each method makes
as many findings of either, at the same places, and none of its verdicts is better for the
slower target; for the total, with which the outliers close, that is so on the scale of totals. -/
theorem run_monotone (ht : t.validate = .ok ()) (hb : ∀ r ∈ baseline.resources, 0 ≤ r.amount)
    (h : target.AtMost target') :
    (∀ m ≠ .timeOutliers,
      List.Forall₂ (NoSlower scale) (run t baseline target m) (run t baseline target' m)) ∧
    ∃ fs fs' total total', run t baseline target .timeOutliers = fs ++ [total] ∧
      run t baseline target' .timeOutliers = fs' ++ [total'] ∧
      List.Forall₂ (NoSlower scale) fs fs' ∧ NoSlower totalScale total total' := by
  have hvalid := Thresholds.validate_eq_ok_iff.mp ht
  refine ⟨fun m hm => run_noSlower hvalid hb h hm, _, _, _, _, rfl, rfl, ?_,
    Outlier.totalFinding_noSlower hvalid.noiseTolerance hb h⟩
  refine noSlower_at_locations (Outlier.finding t.fenceFactor) hb h
    fun location before after after' _ hafter => ?_
  exact ⟨rfl, rfl, Outlier.classify_monotone hvalid.fenceFactor before hafter⟩

/-- A location over a baseline of zero and one with two samples, whose order changes. -/
theorem run_monotone_trial :
    let t : Thresholds ℚ := .standard
    let b : Profile ℚ :=
      {origin := "a", collector := "time", command := "ls",
        resources := [{location := "main", amount := 0}, {location := "loop", amount := 10}]}
    let p : Profile ℚ :=
      {origin := "b", collector := "time", command := "ls",
        resources := [{location := "main", amount := -1}, {location := "loop", amount := 4},
          {location := "loop", amount := 5}]}
    let p' : Profile ℚ :=
      {origin := "c", collector := "time", command := "ls",
        resources := [{location := "main", amount := 0}, {location := "loop", amount := 18},
          {location := "loop", amount := 6}]}
    (t.validate = .ok () ∧ (∀ r ∈ b.resources, 0 ≤ r.amount) ∧ p.AtMost p') ∧
      List.Forall₂ (NoSlower scale) (run t b p .fastCheck) (run t b p' .fastCheck) ∧
      (run t b p .fastCheck).map (·.verdict) = [.optimization, .maybeOptimization] ∧
      (run t b p' .fastCheck).map (·.verdict) = [.degradation, .noChange] := by
  intro t b p p'
  have ht : t.validate = .ok () := by decide +kernel
  have hb : ∀ r ∈ b.resources, 0 ≤ r.amount := by decide +kernel
  have h : p.AtMost p' := by
    refine ⟨.cons ⟨rfl, rfl, ?_⟩ (.cons ⟨rfl, rfl, ?_⟩ (.cons ⟨rfl, rfl, ?_⟩ .nil)), rfl⟩ <;>
      norm_num
  exact ⟨⟨ht, hb, h⟩, (run_monotone ht hb h).1 _ (by decide), by decide +kernel, by decide +kernel⟩

end Detection
end PerfDrift
