import PerfDrift.Proofs.Detection.Change
import PerfDrift.Proofs.Detection.Growth
import PerfDrift.Proofs.Detection.Selection
import PerfDrift.Proofs.Thresholds

/-! Wider thresholds.

Under wider thresholds fewer changes count, and that is all there is to them. Over exact
numbers a comparison finds the same things at the same places, with the same rates and
confidences; a change that still counts is the same change under narrower thresholds, the
quick check is certain of less but sees every change in the same direction, and a model that
is still trusted was trusted before (`compare?_upheld`). -/
namespace PerfDrift
variable {α : Type} [Field α] [LinearOrder α]

/-- No threshold is above that of the other ones. -/
structure Thresholds.AtMost (t t' : Thresholds α) : Prop where
  averageChange : t.averageChange ≤ t'.averageChange
  modelFit : t.modelFit ≤ t'.modelFit
  fastBand : t.fastBand ≤ t'.fastBand
  fastConfidence : t.fastConfidence ≤ t'.fastConfidence
  fenceFactor : t.fenceFactor ≤ t'.fenceFactor
  noiseTolerance : t.noiseTolerance ≤ t'.noiseTolerance

section Presets
variable [FloorSemiring α] [Root α] [IsStrictOrderedRing α]

/-- With the permissive thresholds no less counts than with the standard ones. -/
theorem Thresholds.permissive_atMost_standard : (permissive : Thresholds α).AtMost standard := by
  constructor <;> simp only [permissive, standard, Exact.ofDecimal_eq, Exact.ofNat_eq] <;> norm_num

/-- With the strict thresholds no more counts than with the standard ones. -/
theorem Thresholds.standard_atMost_strict : (standard : Thresholds α).AtMost strict := by
  constructor <;> simp only [standard, strict, Exact.ofDecimal_eq, Exact.ofNat_eq] <;> norm_num

end Presets

namespace Detection
open Arithmetic

section Upheld
variable {β : Type}

/-- What a finding under wider thresholds has in common with the one under narrower ones. -/
structure Upheld (wide narrow : Finding β) : Prop where
  strategy : wide.strategy = narrow.strategy
  location : wide.location = narrow.location
  rate : wide.rate = narrow.rate
  confidenceKind : wide.confidenceKind = narrow.confidenceKind
  confidence : wide.confidence = narrow.confidence
  /-- Of all methods but the quick check: a change that counts is the same change. -/
  change : wide.strategy ≠ Method.fastCheck.id → wide.verdict ≠ .noChange →
    narrow.verdict = wide.verdict
  /-- Of the quick check: changes have the same direction. -/
  direction : wide.strategy = Method.fastCheck.id →
    (Slower wide.verdict ↔ Slower narrow.verdict) ∧ (Faster wide.verdict ↔ Faster narrow.verdict)
  /-- Of the quick check: what is certain is as certain. -/
  certain : wide.strategy = Method.fastCheck.id →
    wide.verdict = .degradation ∨ wide.verdict = .optimization → narrow.verdict = wide.verdict
  fromModel : ∀ name, wide.fromModel = some name → narrow.fromModel = some name
  toModel : ∀ name, wide.toModel = some name → narrow.toModel = some name

theorem id_ne_fastCheck {m : Method} (hm : m ≠ .fastCheck) : m.id ≠ Method.fastCheck.id :=
  fun h => hm (Method.id_injective h)

/-- Findings of a method other than the quick check that differ in their verdicts only. -/
theorem upheld_of_change {m : Method} (hm : m ≠ .fastCheck) {location : String} {rate : Option β}
    {wide narrow : Verdict} (h : wide ≠ .noChange → narrow = wide) :
    Upheld {strategy := m.id, location, verdict := wide, rate}
      {strategy := m.id, location, verdict := narrow, rate} where
  strategy := rfl
  location := rfl
  rate := rfl
  confidenceKind := rfl
  confidence := rfl
  change _ := h
  direction hq := absurd hq (id_ne_fastCheck hm)
  certain hq := absurd hq (id_ne_fastCheck hm)
  fromModel _ := id
  toModel _ := id

end Upheld

/-! ### The findings of each method -/

variable [FloorSemiring α] [Root α]

/-- A model that is trusted under a stricter demand is trusted under a weaker one. -/
theorem Growth.known_mono {least least' : α} (hle : least ≤ least')
    {best : Option (FittedModel α)} {kind : ModelKind}
    (h : Growth.known least' best = some kind) : Growth.known least best = some kind := by
  cases best with
  | none => cases h
  | some m =>
    by_cases hfit : least' ≤ m.fit
    · simpa [Growth.known, Option.filter, hfit, hle.trans hfit] using h
    · simp [Growth.known, Option.filter, hfit] at h

variable (location : String)

theorem Growth.finding_upheld {least least' : α} (hle : least ≤ least')
    (baseline target : List (FittedModel α)) :
    Upheld (Growth.finding least' location baseline target)
      (Growth.finding least location baseline target) where
  strategy := rfl
  location := rfl
  rate := rfl
  confidenceKind := rfl
  confidence := rfl
  change _ hne := by
    obtain ⟨k, k', hk, hk'⟩ := Growth.known_of_classify hne
    have hb := Growth.known_mono hle hk
    have ht := Growth.known_mono hle hk'
    simp only [Growth.finding, Finding.withConfidence, hk, hk', hb, ht]
  direction hq := absurd hq (id_ne_fastCheck (m := .modelOrder) (by decide))
  certain hq := absurd hq (id_ne_fastCheck (m := .modelOrder) (by decide))
  fromModel name h := by
    obtain ⟨kind, hkind, rfl⟩ := Option.map_eq_some_iff.mp h
    exact Option.map_eq_some_iff.mpr ⟨kind, Growth.known_mono hle hkind, rfl⟩
  toModel name h := by
    obtain ⟨kind, hkind, rfl⟩ := Option.map_eq_some_iff.mp h
    exact Option.map_eq_some_iff.mpr ⟨kind, Growth.known_mono hle hkind, rfl⟩

variable [IsStrictOrderedRing α]

theorem Average.finding_upheld {threshold threshold' : α} (h : 0 ≤ threshold)
    (hle : threshold ≤ threshold') (baseline target : List α) :
    Upheld (Average.finding threshold' location baseline target)
      (Average.finding threshold location baseline target) := by
  rw [Average.finding, Average.finding, Average.classify_eq, Average.classify_eq]
  exact upheld_of_change (m := .averageAmount) (by decide) (judged_mono h hle)

/-- What is certain beyond a wider band and under a stronger demand is certain. -/
theorem Quick.classify_mono {band band' least least' : α} (hband : band ≤ band')
    (hleast : least ≤ least') {baseline target confidence : α}
    (h : (Quick.classify band' least' baseline target confidence).1 = .degradation ∨
      (Quick.classify band' least' baseline target confidence).1 = .optimization) :
    (Quick.classify band least baseline target confidence).1 =
      (Quick.classify band' least' baseline target confidence).1 := by
  rcases h with h | h
  · obtain ⟨hr, hb, hlarge, hsure⟩ := Quick.degradation_iff.mp h
    rw [h, Quick.degradation_iff]
    exact ⟨hr, hb, hlarge.mono hband, hleast.trans hsure⟩
  · obtain ⟨hf, hb, hlarge, hsure⟩ := Quick.optimization_iff.mp h
    rw [h, Quick.optimization_iff]
    exact ⟨hf, hb, hlarge.mono hband, hleast.trans hsure⟩

theorem Quick.finding_upheld {band band' least least' : α} (hband : band ≤ band')
    (hleast : least ≤ least') (baseline target : List α) :
    Upheld (Quick.finding band' least' location baseline target)
      (Quick.finding band least location baseline target) where
  strategy := rfl
  location := rfl
  rate := by simp only [Quick.finding, Quick.classify_eq, Finding.withConfidence]
  confidenceKind := rfl
  confidence := rfl
  change hq := absurd rfl hq
  direction _ := ⟨Quick.slower_iff.trans Quick.slower_iff.symm,
    Quick.faster_iff.trans Quick.faster_iff.symm⟩
  certain _ := Quick.classify_mono hband hleast
  fromModel _ := id
  toModel _ := id

/-- What is outside a wider fence is outside a narrower one, on the same side. -/
theorem Outlier.classify_mono {factor factor' : α} (h : 0 ≤ factor) (hle : factor ≤ factor')
    {baseline target : List α} (hne : (Outlier.classify factor' baseline target).1 ≠ .noChange) :
    (Outlier.classify factor baseline target).1 = (Outlier.classify factor' baseline target).1 := by
  have hspread := Samples.interquartile_nonneg baseline
  have hnonneg : 0 ≤ factor * Samples.interquartile baseline := mul_nonneg h hspread
  have hfence : factor * Samples.interquartile baseline ≤
      factor' * Samples.interquartile baseline := mul_le_mul_of_nonneg_right hle hspread
  simp only [Outlier.classify, Exact.lt_eq, decide_eq_true_eq] at hne ⊢
  generalize Samples.median baseline = center at *
  generalize Samples.median target = current at *
  by_cases habove : center + factor' * Samples.interquartile baseline < current
  · rw [if_pos habove, if_pos (by linarith)]
  · by_cases hbelow : current < center - factor' * Samples.interquartile baseline
    · rw [if_neg habove, if_pos hbelow, if_neg (by linarith), if_pos (by linarith)]
    · rw [if_neg habove, if_neg hbelow] at hne
      exact absurd rfl hne

theorem Outlier.finding_upheld {factor factor' : α} (h : 0 ≤ factor) (hle : factor ≤ factor')
    (baseline target : List α) :
    Upheld (Outlier.finding factor' location baseline target)
      (Outlier.finding factor location baseline target) := by
  exact upheld_of_change (m := .timeOutliers) (by decide) (Outlier.classify_mono h hle)

theorem Outlier.totalFinding_upheld {tolerance tolerance' : α} (h : 0 ≤ tolerance)
    (hle : tolerance ≤ tolerance') (baseline target : Profile α) :
    Upheld (Outlier.totalFinding tolerance' baseline target)
      (Outlier.totalFinding tolerance baseline target) := by
  rw [Outlier.totalFinding, Outlier.totalFinding, Outlier.classifyTotal_eq h,
    Outlier.classifyTotal_eq (h.trans hle)]
  exact upheld_of_change (m := .timeOutliers) (by decide) (judged_mono h hle)

/-! ### All findings -/

section All
variable {t t' : Thresholds α} {baseline target : Profile α}

theorem run_upheld (ht : t.Valid) (h : t.AtMost t') (m : Method) :
    List.Forall₂ Upheld (run t' baseline target m) (run t baseline target m) := by
  cases m with
  | averageAmount =>
    refine forall₂_map (fun x => ?_) _
    exact Average.finding_upheld x.1 ht.averageChange h.averageChange x.2.1 x.2.2
  | modelOrder =>
    refine forall₂_map (fun location => ?_) _
    exact Growth.finding_upheld location h.modelFit _ _
  | fastCheck =>
    refine forall₂_map (fun x => ?_) _
    exact Quick.finding_upheld x.1 h.fastBand h.fastConfidence x.2.1 x.2.2
  | timeOutliers =>
    refine List.rel_append ?_ (.cons ?_ .nil)
    · refine forall₂_map (fun x => ?_) _
      exact Outlier.finding_upheld x.1 ht.fenceFactor h.fenceFactor x.2.1 x.2.2
    · exact Outlier.totalFinding_upheld ht.noiseTolerance h.noiseTolerance baseline target

/-- Strategies and locations are the same, so the order is. -/
theorem runAll_upheld (ht : t.Valid) (h : t.AtMost t') (methods : List Method) :
    List.Forall₂ Upheld (runAll t' baseline target methods) (runAll t baseline target methods) := by
  have hfound : List.Forall₂ Upheld (methods.flatMap (run t' baseline target))
      (methods.flatMap (run t baseline target)) :=
    List.rel_flatMap (List.forall₂_same.mpr fun _ _ => rfl) fun m _ hm => hm ▸ run_upheld ht h m
  rw [runAll, runAll]
  split
  · exact hfound
  · refine forall₂_mergeSort (fun hf hg => ?_) hfound
    rw [precedes, precedes, hf.location, hf.strategy, hg.location, hg.strategy]

/-- **Wider thresholds let fewer changes count, and nothing else.** Where no threshold goes
down, two profiles that can be compared give as many findings as before, at the same places
in the list, for the same strategy and location and with the same rate and confidence. What is
still a change is the same change as under the narrower thresholds; the quick check keeps the
direction of every verdict, and one that is still certain was certain before; the model that is
still named was named before. Only the narrower thresholds have to be valid. -/
theorem compare?_upheld (ht : t.validate = .ok ()) (h : t.AtMost t')
    (hc : baseline.Compatible target) :
    ∃ narrow wide, compare? t baseline target .all = some narrow ∧
      compare? t' baseline target .all = some wide ∧ wide.length = narrow.length ∧
      List.Forall₂ Upheld wide narrow := by
  have hupheld : List.Forall₂ Upheld (runAll t' baseline target Method.all)
      (runAll t baseline target Method.all) :=
    runAll_upheld (Thresholds.validate_eq_ok_iff.mp ht) h _
  exact ⟨_, _, if_pos hc, if_pos hc, hupheld.length_eq, hupheld⟩

end All

/-- One slowdown of three percent, which counts by the permissive thresholds alone, one of seven
percent, which the strict ones pass over, and one of a hundred. -/
theorem compare?_upheld_trial :
    let p : Profile ℚ :=
      {origin := "a", collector := "time", command := "ls",
        resources := [{location := "main", amount := 100}, {location := "loop", amount := 10},
          {location := "idle", amount := 100}]}
    let q : Profile ℚ :=
      {origin := "b", collector := "time", command := "ls",
        resources := [{location := "main", amount := 107}, {location := "loop", amount := 20},
          {location := "idle", amount := 103}]}
    let verdicts (t : Thresholds ℚ) := (run t p q .averageAmount).map (·.verdict)
    (Thresholds.permissive.validate (α := ℚ) = .ok () ∧
        Thresholds.permissive.AtMost (α := ℚ) .standard ∧
        Thresholds.standard.validate (α := ℚ) = .ok () ∧
        Thresholds.standard.AtMost (α := ℚ) .strict ∧ p.Compatible q) ∧
      (∃ narrow wide, compare? .permissive p q .all = some narrow ∧
        compare? .standard p q .all = some wide ∧ wide.length = narrow.length ∧
        List.Forall₂ Upheld wide narrow) ∧
      (∃ narrow wide, compare? .standard p q .all = some narrow ∧
        compare? .strict p q .all = some wide ∧ wide.length = narrow.length ∧
        List.Forall₂ Upheld wide narrow) ∧
      verdicts .permissive = [.degradation, .degradation, .degradation] ∧
      verdicts .standard = [.noChange, .degradation, .degradation] ∧
      verdicts .strict = [.noChange, .degradation, .noChange] := by
  intro p q verdicts
  have hpermissive : Thresholds.permissive.validate (α := ℚ) = .ok () := by decide +kernel
  have hstandard : Thresholds.standard.validate (α := ℚ) = .ok () := by decide +kernel
  have hle := Thresholds.permissive_atMost_standard (α := ℚ)
  have hle' := Thresholds.standard_atMost_strict (α := ℚ)
  have hc : p.Compatible q := by decide
  exact ⟨⟨hpermissive, hle, hstandard, hle', hc⟩, compare?_upheld hpermissive hle hc,
    compare?_upheld hstandard hle' hc, by decide +kernel, by decide +kernel, by decide +kernel⟩

end Detection
end PerfDrift
