import Mathlib.Algebra.BigOperators.Group.List.Basic
import Mathlib.Algebra.Order.Field.Basic
import PerfDrift.Detection.Comparison
import PerfDrift.Proofs.KeyMap
import PerfDrift.Proofs.Samples.Quantile

/-! The finding about the total as a balance.

The total is made location by location: both profiles are grouped, the groups are added up,
and the changes are taken over the locations of either. Over exact numbers nothing is lost on
the way and nothing counted twice, so the finding compares two plain sums over all
measurements, also over those of locations that only one of the profiles has
(`run_balances`). -/
namespace PerfDrift
variable {α : Type} [Field α]

/-- The amount of a measurement, as often as its calls. -/
def Resource.weight (r : Resource α) : α := r.amount * r.calls.toNat

/-- All measurements of a profile added up, wherever they were taken. -/
def Profile.balance (p : Profile α) : α := (p.resources.map Resource.weight).sum

/-! ### Two balances -/

namespace Detection
variable [LinearOrder α]

/-- The balances differ by no more than noise. -/
def Settled (tolerance before after : α) : Prop :=
  before = 0 ∧ after = 0 ∨ before ≠ 0 ∧ |after - before| ≤ tolerance * |before|

instance (tolerance before after : α) : Decidable (Settled tolerance before after) :=
  inferInstanceAs (Decidable (_ ∨ _))

/-- Where a balance goes: over zero the sign of the other one tells. -/
def trend (before after : α) : α := if before = 0 then after else (after - before) / before

/-- What a finding says about two balances. -/
structure Weighs (tolerance before after : α) (f : Finding α) : Prop where
  location : f.location = Outlier.totalLocation
  rate : f.rate = if before = 0 then none else some ((after - before) / before)
  noChange : f.verdict = .noChange ↔ Settled tolerance before after
  degradation : f.verdict = .totalDegradation ↔
    ¬Settled tolerance before after ∧ 0 < trend before after
  optimization : f.verdict = .totalOptimization ↔
    ¬Settled tolerance before after ∧ trend before after ≤ 0

theorem settled_iff_rate [IsStrictOrderedRing α] {tolerance before after : α} (h : before ≠ 0) :
    Settled tolerance before after ↔ |(after - before) / before| ≤ tolerance := by
  rw [Settled, abs_div, div_le_iff₀ (abs_pos.mpr h)]
  simp [h]

end Detection

/-! ### Totals by location -/

variable [LinearOrder α] [FloorSemiring α] [Root α]

namespace Profile

theorem weigh_eq (resources : List (Resource α)) :
    weigh resources = (resources.map Resource.weight).sum := by
  rw [List.sum_eq_foldl, List.foldl_map, weigh, Exact.zero_eq]
  rfl

/-- A location without measurements has a total of zero. -/
theorem getD_get?_totals (p : Profile α) (location : String) :
    (p.totals.get? location).getD 0 =
      ((p.resources.filter fun r => r.location = location).map Resource.weight).sum := by
  rw [totals, KeyMap.get?_map, KeyMap.get?_group]
  by_cases hnone : (p.resources.filter fun r => r.location = location) = []
  · rw [if_pos hnone, hnone]
    rfl
  · rw [if_neg hnone, Option.map_some, Option.getD_some, weigh_eq]

theorem mem_totals_keys {p : Profile α} {r : Resource α} (hr : r ∈ p.resources) :
    r.location ∈ p.totals.keys := by
  rw [totals, KeyMap.keys_map, KeyMap.mem_keys_group]
  exact ⟨r, hr, rfl⟩

/-- Over any locations among which are all that the profile measures, the totals add up to the
balance. -/
theorem sum_totals_of_locations (p : Profile α) {locations : List String}
    (hnodup : locations.Nodup) (hall : ∀ r ∈ p.resources, r.location ∈ locations) :
    (locations.map fun location => (p.totals.get? location).getD 0).sum = p.balance := by
  simp only [getD_get?_totals]
  exact KeyMap.sum_by_name hnodup Resource.weight hall

theorem sum_totals (p : Profile α) : Samples.sum p.totals.values = p.balance := by
  rw [Samples.sum_eq, KeyMap.values_eq p.totals 0]
  exact p.sum_totals_of_locations p.totals.keys_nodup fun r hr => mem_totals_keys hr

end Profile

namespace Detection

/-- The changes of all locations make up the change of the balance. -/
theorem Outlier.sum_changes (baseline target : Profile α) :
    Samples.sum (changes baseline.totals target.totals) = target.balance - baseline.balance := by
  have hnodup := KeyMap.namesOf_nodup (baseline.totals.keys ++ target.totals.keys)
  have hbaseline := baseline.sum_totals_of_locations hnodup fun r hr =>
    KeyMap.mem_namesOf.mpr (List.mem_append_left _ (Profile.mem_totals_keys hr))
  have htarget := target.sum_totals_of_locations hnodup fun r hr =>
    KeyMap.mem_namesOf.mpr (List.mem_append_right _ (Profile.mem_totals_keys hr))
  rw [Samples.sum_eq, changes, eq_sub_iff_add_eq, ← hbaseline, ← htarget, ← List.sum_map_add]
  simp only [Exact.zero_eq, sub_add_cancel]

/-! ### The finding -/

theorem Outlier.direction_eq (change : α) :
    direction change = if 0 < change then .totalDegradation else .totalOptimization := by
  simp [direction]

variable [IsStrictOrderedRing α]

/-- The tolerance may be negative here; over a balance other than zero nothing is within it
then. -/
theorem Outlier.classifyTotal_balance (tolerance before after : α) :
    classifyTotal tolerance before (after - before) =
      (if Settled tolerance before after then .noChange else direction (trend before after),
        if before = 0 then none else some ((after - before) / before)) := by
  rw [classifyTotal, add_sub_cancel, Samples.relativeRate_eq]
  by_cases hb : before = 0
  · subst hb
    by_cases ha : after = 0
    · simp [Settled, ha]
    · simp [Settled, trend, ha]
  · simp only [settled_iff_rate hb, trend, hb, if_false, Exact.le_eq, Exact.abs_eq,
      decide_eq_true_eq]

theorem Outlier.totalFinding_weighs (tolerance : α) (baseline target : Profile α) :
    Weighs tolerance baseline.balance target.balance (totalFinding tolerance baseline target) := by
  rw [totalFinding, Profile.sum_totals, sum_changes, classifyTotal_balance]
  by_cases hs : Settled tolerance baseline.balance target.balance
  · constructor <;> simp [hs]
  · rw [if_neg hs, direction_eq]
    by_cases ht : 0 < trend baseline.balance target.balance
    · constructor <;> simp [hs, ht]
    · constructor <;> simp [hs, ht, not_lt.mp ht]

/-- **The finding about the total is a balance of all measurements.** Whatever the thresholds
are, the last of the findings of the outliers compares the sum of all amounts, each as often as
its calls, with that of the baseline. Its rate is the relative change of the sum, and missing
only over a sum of zero; it says that nothing has changed when both are zero or the change is
within the tolerance, and otherwise tells which way the sum went. -/
theorem run_balances (t : Thresholds α) (baseline target : Profile α) :
    ∃ fs f, run t baseline target .timeOutliers = fs ++ [f] ∧
      Weighs t.noiseTolerance baseline.balance target.balance f :=
  ⟨_, _, rfl, Outlier.totalFinding_weighs t.noiseTolerance baseline target⟩

/-- A location that both profiles have, and one that only one of them has on either side. -/
theorem run_balances_trial :
    let t : Thresholds ℚ := .standard
    let b : Profile ℚ :=
      {origin := "a", collector := "time", command := "ls",
        resources := [{location := "main", amount := 2, calls := 3},
          {location := "loop", amount := 4}]}
    let p : Profile ℚ :=
      {origin := "b", collector := "time", command := "ls",
        resources := [{location := "main", amount := 2},
          {location := "setup", amount := 5, calls := 2}]}
    (∃ fs f, run t b p .timeOutliers = fs ++ [f] ∧
      Weighs t.noiseTolerance b.balance p.balance f) ∧
      b.balance = 10 ∧ p.balance = 12 ∧
      (run t b p .timeOutliers).map (fun f => (f.location, f.verdict, f.rate)) =
        [("main", .noChange, some 0), ("<total>", .totalDegradation, some (1 / 5))] := by
  intro t b p
  exact ⟨run_balances t b p, by decide +kernel, by decide +kernel, by decide +kernel⟩

end Detection
end PerfDrift
