import PerfDrift.Proofs.Detection.Change
import PerfDrift.Proofs.Detection.Selection
import PerfDrift.Proofs.Thresholds

/-! Which way rates and verdicts point.

Over exact numbers a degradation has a positive rate and an optimization a negative one,
wherever the verdict is made from the rate. The outliers make theirs at a location from the
fence around the median of the baseline, and only report the rate beside it. Above zero that
comes to the same; over a negative median more is a negative rate, so there the two point in
opposite directions (`compare?_directed`). -/
namespace PerfDrift.Detection
open Arithmetic
variable {α : Type} [Field α] [LinearOrder α]

/-- A degradation goes up and an optimization goes down. -/
structure Directed (verdict : Verdict) (change : α) : Prop where
  slower : verdict.isDegradation → 0 < change
  faster : verdict.isOptimization → change < 0

theorem directed_noChange (change : α) : Directed .noChange change where
  slower h := Bool.noConfusion h
  faster h := Bool.noConfusion h

section Order
variable [IsStrictOrderedRing α] {verdict : Verdict} {change : α}

theorem Directed.div_of_pos {center : α} (h : Directed verdict change) (hc : 0 < center) :
    Directed verdict (change / center) where
  slower hv := div_pos (h.slower hv) hc
  faster hv := div_neg_of_neg_of_pos (h.faster hv) hc

/-- Relative to a negative number a change points the other way. -/
theorem Directed.neg_div_of_neg {center : α} (h : Directed verdict change) (hc : center < 0) :
    Directed verdict (-(change / center)) where
  slower hv := neg_pos.mpr (div_neg_of_pos_of_neg (h.slower hv) hc)
  faster hv := neg_neg_iff_pos.mpr (div_pos_of_neg_of_neg (h.faster hv) hc)

/-! ### Verdicts that are made from the rate -/

theorem directed_judged {up down : Verdict} (hup : up.isOptimization = false)
    (hdown : down.isDegradation = false) {part baseline target : α} (h : 0 ≤ part)
    (hb : baseline ≠ 0) :
    Directed (judged up down part baseline target) ((target - baseline) / baseline) := by
  by_cases hr : Rises part baseline target
  · have hrate : 0 < (target - baseline) / baseline := h.trans_lt ((rises_iff hb).mp hr)
    rw [judged_of_rises hr]
    exact ⟨fun _ => hrate, fun hv => by simp [hup] at hv⟩
  · by_cases hf : Falls part baseline target
    · have hrate : (target - baseline) / baseline < 0 :=
        ((falls_iff hb).mp hf).trans_le (neg_nonpos.mpr h)
      rw [judged_of_falls h hf]
      exact ⟨fun hv => by simp [hdown] at hv, fun _ => hrate⟩
    · rw [judged_of_neither hr hf]
      exact directed_noChange _

variable [FloorSemiring α] [Root α]

theorem Quick.classify_directed {band least baseline target confidence : α} (hb : baseline ≠ 0) :
    Directed (classify band least baseline target confidence).1
      ((target - baseline) / baseline) := by
  rw [classify_eq]
  by_cases hr : Rises 0 baseline target
  · have hrate : 0 < (target - baseline) / baseline := (rises_iff hb).mp hr
    rw [if_pos hr]
    split <;> exact ⟨fun _ => hrate, fun hv => Bool.noConfusion hv⟩
  · by_cases hf : Falls 0 baseline target
    · have hrate : (target - baseline) / baseline < 0 := by simpa using (falls_iff hb).mp hf
      rw [if_neg hr, if_pos hf]
      split <;> exact ⟨fun hv => Bool.noConfusion hv, fun _ => hrate⟩
    · rw [if_neg hr, if_neg hf]
      exact directed_noChange _

/-! ### Verdicts that are made from the fence -/

/-- What is beyond the fence has changed in that direction. -/
theorem Outlier.classify_directed {factor : α} (h : 0 ≤ factor) (baseline target : List α) :
    Directed (classify factor baseline target).1
      (Samples.median target - Samples.median baseline) := by
  have hfence : 0 ≤ factor * Samples.interquartile baseline :=
    mul_nonneg h (Samples.interquartile_nonneg baseline)
  simp only [classify, Exact.lt_eq, decide_eq_true_eq]
  split
  · next habove => exact ⟨fun _ => by linarith, fun hv => Bool.noConfusion hv⟩
  · split
    · next hbelow => exact ⟨fun hv => Bool.noConfusion hv, fun _ => by linarith⟩
    · exact directed_noChange _

end Order

/-! ### The findings -/

variable [FloorSemiring α] [Root α]

/-- The finding is one of the outliers at a location whose baseline has a negative median. -/
def BelowZero (t : Thresholds α) (baseline target : Profile α) (f : Finding α) : Prop :=
  ∃ x ∈ baseline.samples.meet target.samples,
    f = Outlier.finding t.fenceFactor x.1 x.2.1 x.2.2 ∧ Samples.median x.2.1 < 0

variable [IsStrictOrderedRing α] {t : Thresholds α} {baseline target : Profile α}

theorem directed_of_mem_run (ht : t.Valid) {m : Method} {f : Finding α}
    (hf : f ∈ run t baseline target m) {rate : α} (hrate : f.rate = some rate)
    (habove : ¬BelowZero t baseline target f) : Directed f.verdict rate := by
  cases m with
  | averageAmount =>
    obtain ⟨⟨location, before, after⟩, -, rfl⟩ := List.mem_map.mp hf
    simp only [Average.finding, Average.classify_eq] at hrate ⊢
    obtain ⟨hb, rfl⟩ := Samples.relativeRate_eq_some_iff.mp hrate
    exact directed_judged rfl rfl ht.averageChange hb
  | modelOrder =>
    obtain ⟨location, -, rfl⟩ := List.mem_map.mp hf
    cases hrate
  | fastCheck =>
    obtain ⟨⟨location, before, after⟩, -, rfl⟩ := List.mem_map.mp hf
    have hchange : Samples.relativeRate (Samples.mean before) (Samples.mean after) = some rate := by
      simpa only [Quick.finding, Finding.withConfidence, Quick.classify_eq] using hrate
    obtain ⟨hb, rfl⟩ := Samples.relativeRate_eq_some_iff.mp hchange
    exact Quick.classify_directed hb
  | timeOutliers =>
    rcases List.mem_append.mp hf with hf | hf
    · obtain ⟨x, hx, rfl⟩ := List.mem_map.mp hf
      obtain ⟨hb, rfl⟩ := Samples.relativeRate_eq_some_iff.mp hrate
      have hcenter : ¬Samples.median x.2.1 < 0 := fun hneg => habove ⟨x, hx, rfl, hneg⟩
      have hpos : 0 < Samples.median x.2.1 := lt_of_le_of_ne (not_lt.mp hcenter) hb.symm
      exact (Outlier.classify_directed ht.fenceFactor x.2.1 x.2.2).div_of_pos hpos
    · obtain rfl := List.mem_singleton.mp hf
      simp only [Outlier.totalFinding, Outlier.classifyTotal_eq ht.noiseTolerance] at hrate ⊢
      obtain ⟨hb, rfl⟩ := Samples.relativeRate_eq_some_iff.mp hrate
      exact directed_judged rfl rfl ht.noiseTolerance hb

theorem BelowZero.directed (ht : t.Valid) {f : Finding α} (h : BelowZero t baseline target f)
    {rate : α} (hrate : f.rate = some rate) : Directed f.verdict (-rate) := by
  obtain ⟨x, -, rfl, hneg⟩ := h
  obtain ⟨-, rfl⟩ := Samples.relativeRate_eq_some_iff.mp hrate
  exact (Outlier.classify_directed ht.fenceFactor x.2.1 x.2.2).neg_div_of_neg hneg

/-- **Rates and verdicts point the same way, above zero.** With valid thresholds two profiles
that can be compared give findings of which every degradation with a rate has a positive one,
and every optimization with a rate a negative one, whatever the signs of the amounts are. The
exception are the findings of the outliers at locations whose baseline has a negative median:
there the verdict tells where the median went and the rate what it is relative to, so a
degradation has a negative rate and an optimization a positive one. -/
theorem compare?_directed (ht : t.validate = .ok ()) (hc : baseline.Compatible target)
    (selection : Selection) :
    ∃ fs, compare? t baseline target selection = some fs ∧
      ∀ f ∈ fs, ∀ rate, f.rate = some rate →
        (¬BelowZero t baseline target f → Directed f.verdict rate) ∧
        (BelowZero t baseline target f → Directed f.verdict (-rate)) := by
  have hvalid := Thresholds.validate_eq_ok_iff.mp ht
  refine ⟨runAll t baseline target selection.methods, if_pos hc, fun f hf rate hrate => ?_⟩
  obtain ⟨m, -, hm⟩ := List.mem_flatMap.mp ((runAll_perm _).mem_iff.mp hf)
  exact ⟨directed_of_mem_run hvalid hm hrate, fun hbelow => hbelow.directed hvalid hrate⟩

/-- A location with a negative amount, at which less of it is an optimization with a positive
rate, beside one with positive amounts. -/
theorem compare?_directed_trial :
    let t : Thresholds ℚ := .standard
    let p : Profile ℚ :=
      {origin := "a", collector := "time", command := "ls",
        resources := [{location := "main", amount := -10}, {location := "loop", amount := 10}]}
    let q : Profile ℚ :=
      {origin := "b", collector := "time", command := "ls",
        resources := [{location := "main", amount := -20}, {location := "loop", amount := 15}]}
    (t.validate = .ok () ∧ p.Compatible q) ∧
      (∃ fs, compare? t p q (.only .timeOutliers) = some fs ∧
        ∀ f ∈ fs, ∀ rate, f.rate = some rate →
          (¬BelowZero t p q f → Directed f.verdict rate) ∧
          (BelowZero t p q f → Directed f.verdict (-rate))) ∧
      (run t p q .timeOutliers).map (fun f => (f.location, f.verdict, f.rate)) =
        [("loop", .degradation, some (1 / 2)), ("main", .optimization, some 1),
          ("<total>", .totalOptimization, none)] := by
  intro t p q
  have ht : t.validate = .ok () := by decide +kernel
  have hc : p.Compatible q := by decide
  exact ⟨⟨ht, hc⟩, compare?_directed ht hc _, by decide +kernel⟩

/-- At a location whose only amount goes from -10 to -5 the outliers find a degradation with a
negative rate. -/
theorem degradation_below_zero :
    let p : Profile ℚ :=
      {origin := "a", collector := "time", command := "ls",
        resources := [{location := "main", amount := -10}]}
    let q : Profile ℚ :=
      {origin := "b", collector := "time", command := "ls",
        resources := [{location := "main", amount := -5}]}
    (Thresholds.standard : Thresholds ℚ).validate = .ok () ∧ p.Compatible q ∧
      ∃ fs, compare? .standard p q (.only .timeOutliers) = some fs ∧
        ∃ f ∈ fs, f.verdict = .degradation ∧ f.rate = some (-1 / 2) ∧
          ¬Directed f.verdict (-1 / 2 : ℚ) := by
  intro p q
  refine ⟨by decide +kernel, by decide, run .standard p q .timeOutliers, rfl,
    Outlier.finding Thresholds.standard.fenceFactor "main" [-10] [-5], ?_, by decide +kernel,
    by decide +kernel, ?_⟩
  · decide +kernel
  · intro h
    exact absurd (h.slower (by decide +kernel)) (by norm_num)

end PerfDrift.Detection
