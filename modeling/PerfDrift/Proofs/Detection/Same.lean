import PerfDrift.Proofs.Detection.Selection
import PerfDrift.Proofs.Samples.Quantile
import PerfDrift.Proofs.Thresholds

/-! A profile compared with itself.

Over exact numbers no method sees a change then. Averages and totals have no rate or a rate
of zero, the best models are the same ones, and a median is never beyond a fence around
itself, since quartiles come in order. The finding about the total is there in any case
(`compare?_self`). -/
namespace PerfDrift.Detection
open Arithmetic
variable {α : Type} [Field α] [LinearOrder α] [FloorSemiring α] [Root α]

/-! ### The verdicts of each method -/

theorem Growth.classify_self (kind : Option ModelKind) :
    Growth.classify kind kind = .noChange := by
  cases kind with
  | none => rfl
  | some k => simp [Growth.classify]

theorem Quick.classify_self (band least x confidence : α) :
    (Quick.classify band least x x confidence).1 = .noChange := by
  rw [Quick.classify, Samples.relativeRate_self]
  by_cases hx : x = 0
  · simp [hx]
  · simp [hx]

/-- No location has a change of its total. -/
theorem Outlier.sum_changes_self (totals : KeyMap α) :
    Samples.sum (Outlier.changes totals totals) = 0 := by
  rw [Samples.sum_eq, Outlier.changes]
  simp

variable [IsStrictOrderedRing α]

theorem Average.classify_self {threshold : α} (h : 0 ≤ threshold) (x : α) :
    (Average.classify threshold x x).1 = .noChange := by
  rw [Average.classify, Samples.relativeRate_self]
  by_cases hx : x = 0
  · simp [hx]
  · simp [hx, not_lt.mpr h]

/-- Samples are within the fence that they put up themselves. -/
theorem Outlier.classify_self {factor : α} (h : 0 ≤ factor) (xs : List α) :
    (Outlier.classify factor xs xs).1 = .noChange := by
  have hfence : 0 ≤ factor * Samples.interquartile xs :=
    mul_nonneg h (Samples.interquartile_nonneg xs)
  have habove : ¬Samples.median xs + factor * Samples.interquartile xs < Samples.median xs := by
    linarith
  have hbelow : ¬Samples.median xs < Samples.median xs - factor * Samples.interquartile xs := by
    linarith
  simp only [Outlier.classify, Exact.lt_eq, decide_eq_true_eq]
  rw [if_neg habove, if_neg hbelow]

theorem Outlier.classifyTotal_self {tolerance : α} (h : 0 ≤ tolerance) (total : α) :
    (Outlier.classifyTotal tolerance total 0).1 = .noChange := by
  rw [Outlier.classifyTotal, add_zero, Samples.relativeRate_self]
  by_cases ht : total = 0
  · simp [ht]
  · simp [ht, h]

/-! ### The findings -/

/-- Every method finds that nothing has changed. -/
theorem verdict_of_mem_run_self {t : Thresholds α} (ht : t.Valid) {p : Profile α} {m : Method}
    {f : Finding α} (hf : f ∈ run t p p m) : f.verdict = .noChange := by
  cases m with
  | averageAmount =>
    obtain ⟨⟨location, before, after⟩, hx, rfl⟩ := List.mem_map.mp hf
    obtain rfl := KeyMap.eq_of_mem_meet_self hx
    exact Average.classify_self ht.averageChange _
  | modelOrder =>
    obtain ⟨location, -, rfl⟩ := List.mem_map.mp hf
    exact Growth.classify_self _
  | fastCheck =>
    obtain ⟨⟨location, before, after⟩, hx, rfl⟩ := List.mem_map.mp hf
    obtain rfl := KeyMap.eq_of_mem_meet_self hx
    exact Quick.classify_self _ _ _ _
  | timeOutliers =>
    rcases List.mem_append.mp hf with hf | hf
    · obtain ⟨⟨location, before, after⟩, hx, rfl⟩ := List.mem_map.mp hf
      obtain rfl := KeyMap.eq_of_mem_meet_self hx
      exact Outlier.classify_self ht.fenceFactor _
    · rw [List.mem_singleton.mp hf]
      have htotal := Outlier.classifyTotal_self ht.noiseTolerance (Samples.sum p.totals.values)
      rwa [← Outlier.sum_changes_self p.totals] at htotal

/-- **A profile compared with itself has not changed.** With valid thresholds, and over exact
numbers of any sign, the comparison by all methods comes to an end, the finding about the
total is among its findings, and every finding of every method says that there is no
change. -/
theorem compare?_self {t : Thresholds α} (ht : t.validate = .ok ()) (p : Profile α) :
    ∃ fs, compare? t p p .all = some fs ∧ fs ≠ [] ∧
      Outlier.totalFinding t.noiseTolerance p p ∈ fs ∧ ∀ f ∈ fs, f.verdict = .noChange := by
  have hmem : ∀ f, f ∈ runAll t p p Method.all ↔ ∃ m ∈ Method.all, f ∈ run t p p m := by
    intro f
    rw [(runAll_perm Method.all).mem_iff, List.mem_flatMap]
  have htotal : Outlier.totalFinding t.noiseTolerance p p ∈ runAll t p p Method.all :=
    (hmem _).mpr ⟨.timeOutliers, by decide, List.mem_append_right _ List.mem_cons_self⟩
  refine ⟨runAll t p p Method.all, if_pos ⟨rfl, rfl⟩, List.ne_nil_of_mem htotal, htotal, ?_⟩
  intro f hf
  obtain ⟨m, -, hm⟩ := (hmem f).mp hf
  exact verdict_of_mem_run_self (Thresholds.validate_eq_ok_iff.mp ht) hm

/-- Amounts of both signs that cancel, at a location of one sample and at one of several. -/
theorem compare?_self_trial :
    let t : Thresholds ℚ := .standard
    let p : Profile ℚ :=
      {origin := "a", collector := "time", command := "ls",
        resources := [{location := "main", amount := -3, calls := 2},
          {location := "loop", amount := 5}, {location := "loop", amount := 1}]}
    t.validate = .ok () ∧ ∃ fs, compare? t p p .all = some fs ∧
      Outlier.totalFinding t.noiseTolerance p p ∈ fs ∧ ∀ f ∈ fs, f.verdict = .noChange := by
  intro t p
  have ht : t.validate = .ok () := by decide +kernel
  obtain ⟨fs, hfs, -, htotal, hverdicts⟩ := compare?_self ht p
  exact ⟨ht, fs, hfs, htotal, hverdicts⟩

end PerfDrift.Detection
