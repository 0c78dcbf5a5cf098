import PerfDrift.Proofs.Detection.Change
import PerfDrift.Proofs.Thresholds

/-! The quick check before the averages.

The quick check looks at the same averages as the detection by averages, and is meant to be
asked first. Over exact numbers it hides nothing from it: at the same locations it has the same
rates, it reports every change that the averages would report, in the same direction, and
where it reports none there is none. When its band is no narrower than the threshold for the
averages, what it is certain of is their verdict (`run_prefilters`). -/
namespace PerfDrift.Detection
open Arithmetic
variable {α : Type} [Field α] [LinearOrder α]

/-- What a finding of the quick check says about the one by averages. -/
structure Prefilters (t : Thresholds α) (quick average : Finding α) : Prop where
  location : quick.location = average.location
  rate : quick.rate = average.rate
  degradation : average.verdict = .degradation → Slower quick.verdict
  optimization : average.verdict = .optimization → Faster quick.verdict
  noChange : quick.verdict = .noChange → average.verdict = .noChange
  /-- What is certain beyond a band that is wide enough. -/
  certain : t.averageChange ≤ t.fastBand →
    quick.verdict = .degradation ∨ quick.verdict = .optimization → average.verdict = quick.verdict

variable [FloorSemiring α] [Root α] [IsStrictOrderedRing α]

/-- A rise or a fall beyond the threshold is a rise or a fall, and one beyond a band that is as
wide is one beyond the threshold. -/
theorem finding_prefilters {t : Thresholds α} (ht : t.Valid) (location : String)
    (baseline target : List α) :
    Prefilters t (Quick.finding t.fastBand t.fastConfidence location baseline target)
      (Average.finding t.averageChange location baseline target) where
  location := rfl
  rate := by
    simp only [Quick.finding, Finding.withConfidence, Average.finding, Quick.classify_eq,
      Average.classify_eq]
  degradation h := Quick.slower_iff.mpr ((Average.degradation_iff.mp h).mono ht.averageChange)
  optimization h :=
    Quick.faster_iff.mpr (((Average.optimization_iff ht.averageChange).mp h).mono ht.averageChange)
  noChange h := by
    obtain ⟨hr, hf⟩ := Quick.noChange_iff.mp h
    exact Average.noChange_iff.mpr
      ⟨mt (Rises.mono ht.averageChange) hr, mt (Falls.mono ht.averageChange) hf⟩
  certain hband h := by
    rcases h with h | h
    · obtain ⟨-, -, hlarge, -⟩ := Quick.degradation_iff.mp h
      exact (Average.degradation_iff.mpr (hlarge.mono hband)).trans h.symm
    · obtain ⟨-, -, hlarge, -⟩ := Quick.optimization_iff.mp h
      exact ((Average.optimization_iff ht.averageChange).mpr (hlarge.mono hband)).trans h.symm

/-- **The quick check hides nothing from the averages.** With valid thresholds the two methods
list the same locations in the same order, with the same rates. At each of them the quick
check sees what the averages see, in the same direction, and the averages see nothing where it
sees nothing; where its band is at least the threshold for the averages, it is certain of
nothing but their verdict. -/
theorem run_prefilters {t : Thresholds α} (ht : t.validate = .ok ()) (baseline target : Profile α) :
    List.Forall₂ (Prefilters t) (run t baseline target .fastCheck)
      (run t baseline target .averageAmount) := by
  refine forall₂_map (fun x => ?_) _
  exact finding_prefilters (Thresholds.validate_eq_ok_iff.mp ht) x.1 x.2.1 x.2.2

/-- A baseline of zero, over which the quick check is never certain, and a large change. -/
theorem run_prefilters_trial :
    let t : Thresholds ℚ := .standard
    let p : Profile ℚ :=
      {origin := "a", collector := "time", command := "ls",
        resources := [{location := "main", amount := 0}, {location := "loop", amount := 10}]}
    let q : Profile ℚ :=
      {origin := "b", collector := "time", command := "ls",
        resources := [{location := "main", amount := -3}, {location := "loop", amount := 20}]}
    (t.validate = .ok () ∧ t.averageChange ≤ t.fastBand) ∧
      List.Forall₂ (Prefilters t) (run t p q .fastCheck) (run t p q .averageAmount) ∧
      (run t p q .fastCheck).map (·.verdict) = [.degradation, .maybeOptimization] ∧
      (run t p q .averageAmount).map (·.verdict) = [.degradation, .optimization] := by
  intro t p q
  have ht : t.validate = .ok () := by decide +kernel
  exact ⟨⟨ht, le_rfl⟩, run_prefilters ht p q, by decide +kernel, by decide +kernel⟩

end PerfDrift.Detection
