import Mathlib.Data.List.Sort
import PerfDrift.Proofs.Detection.Uniqueness
import PerfDrift.Proofs.Number.Exact

/-! Which locations are reported.

Every method reports each location that both profiles measure, and the one that compares growth
also each that both have models of: every such location once, in byte order, and no other. Behind
the locations of the outliers stands the total, once (`run_covers`). Neither an amount nor a fit
nor a threshold has a say in it, so what two profiles hold of the same locations is reported at
the same locations, whatever the numbers and even the kind of numbers are. -/
namespace PerfDrift

namespace Profile
variable {α : Type}

/-- The profile has a model of the growth of the location. -/
def Fits (p : Profile α) (location : String) : Prop := ∃ m ∈ p.models, m.location = location

instance (p : Profile α) (location : String) : Decidable (p.Fits location) :=
  inferInstanceAs (Decidable (∃ m ∈ p.models, m.location = location))

theorem mem_modelsByLocation_keys {p : Profile α} {location : String} :
    location ∈ p.modelsByLocation.keys ↔ p.Fits location := by
  rw [modelsByLocation, KeyMap.mem_keys_group, Fits]

/-- The profiles measure the same locations, and have models of the same. -/
structure SamePlaces {β : Type} (p : Profile α) (q : Profile β) : Prop where
  measures : ∀ location, p.Measures location ↔ q.Measures location
  fits : ∀ location, p.Fits location ↔ q.Fits location

end Profile

namespace Detection
open Profile

/-! ### Lists of locations -/

/-- The locations are those that a condition holds of, each listed once, in byte order. -/
structure Lists (locations : List String) (condition : String → Prop) : Prop where
  ascending : locations.Pairwise fun l l' => Text.bytes l < Text.bytes l'
  complete : ∀ l, l ∈ locations ↔ condition l

namespace Lists
variable {locations locations' : List String} {condition condition' : String → Prop}

theorem of_sorted (h : locations.Pairwise (· < ·)) (hmem : ∀ l, l ∈ locations ↔ condition l) :
    Lists locations condition :=
  ⟨h.imp Text.bytes_lt_iff.mpr, hmem⟩

/-- The condition says all there is about the list. -/
theorem unique (h : Lists locations condition) (h' : Lists locations' condition')
    (hc : ∀ l, condition l ↔ condition' l) : locations = locations' := by
  have hsorted : locations.Pairwise (· < ·) := h.ascending.imp Text.bytes_lt_iff.mp
  have hsorted' : locations'.Pairwise (· < ·) := h'.ascending.imp Text.bytes_lt_iff.mp
  refine hsorted.eq_of_mem_iff hsorted' fun {l} => ?_
  rw [h.complete, hc, h'.complete]

end Lists

section Locations
variable {α : Type} {baseline target : Profile α}

theorem shared_lists (baseline target : Profile α) :
    Lists (shared baseline target) fun l => baseline.Measures l ∧ target.Measures l :=
  .of_sorted (List.pairwise_map.mpr (KeyMap.meet_sorted _ _)) fun _ => mem_shared

/-- The locations of growth come from two lists, and one that is in both is listed once. -/
theorem Growth.locations_lists (baseline target : Profile α) :
    Lists (Growth.locations baseline target) fun l =>
      baseline.Fits l ∧ target.Fits l ∨ baseline.Measures l ∧ target.Measures l := by
  refine .of_sorted (KeyMap.namesOf_sorted _) fun l => ?_
  rw [Growth.locations, KeyMap.mem_namesOf, List.mem_append, KeyMap.meet_keys, List.mem_filter,
    mem_modelsByLocation_keys, decide_eq_true_eq, mem_modelsByLocation_keys, ← shared, mem_shared]

end Locations

/-! ### The findings of each method -/

section Methods
variable {α : Type} [Arithmetic α] (t : Thresholds α) (baseline target : Profile α)

theorem Average.compare_locations (threshold : α) :
    (Average.compare threshold baseline target).map (·.location) = shared baseline target := by
  rw [Average.compare, List.map_map, shared]
  rfl

theorem Quick.compare_locations (band least : α) :
    (Quick.compare band least baseline target).map (·.location) = shared baseline target := by
  rw [Quick.compare, List.map_map, shared]
  rfl

theorem Growth.compare_locations (least : α) :
    (Growth.compare least baseline target).map (·.location) = Growth.locations baseline target := by
  rw [Growth.compare, List.map_map]
  exact List.map_id _

/-- What the methods report of two profiles: the locations that both measure, those that both
have models of, and the total. -/
structure Covers : Prop where
  averageAmount : Lists ((run t baseline target .averageAmount).map (·.location))
    fun l => baseline.Measures l ∧ target.Measures l
  fastCheck : Lists ((run t baseline target .fastCheck).map (·.location))
    fun l => baseline.Measures l ∧ target.Measures l
  timeOutliers : ∃ fs, run t baseline target .timeOutliers =
      fs ++ [Outlier.totalFinding t.noiseTolerance baseline target] ∧
    Lists (fs.map (·.location)) fun l => baseline.Measures l ∧ target.Measures l
  modelOrder : Lists ((run t baseline target .modelOrder).map (·.location))
    fun l => baseline.Fits l ∧ target.Fits l ∨ baseline.Measures l ∧ target.Measures l

theorem covers : Covers t baseline target where
  averageAmount := by
    rw [run, Average.compare_locations]
    exact shared_lists baseline target
  fastCheck := by
    rw [run, Quick.compare_locations]
    exact shared_lists baseline target
  timeOutliers := by
    refine ⟨_, rfl, ?_⟩
    rw [List.map_map]
    exact shared_lists baseline target
  modelOrder := by
    rw [run, Growth.compare_locations]
    exact Growth.locations_lists baseline target

end Methods

section Places
variable {α β : Type} {b p : Profile α} {b' p' : Profile β}

theorem shared_eq (hb : b.SamePlaces b') (hp : p.SamePlaces p') : shared b p = shared b' p' :=
  (shared_lists b p).unique (shared_lists b' p') fun l =>
    and_congr (hb.measures l) (hp.measures l)

variable [Arithmetic α] [Arithmetic β]

/-- Where the same locations are measured and have models, the same are reported. -/
theorem run_locations_eq (hb : b.SamePlaces b') (hp : p.SamePlaces p') (t : Thresholds α)
    (t' : Thresholds β) (m : Method) :
    (run t b p m).map (·.location) = (run t' b' p' m).map (·.location) := by
  cases m with
  | averageAmount =>
    rw [run, run, Average.compare_locations, Average.compare_locations, shared_eq hb hp]
  | modelOrder =>
    refine (covers t b p).modelOrder.unique (covers t' b' p').modelOrder fun l => ?_
    rw [hb.fits, hp.fits, hb.measures, hp.measures]
  | fastCheck =>
    rw [run, run, Quick.compare_locations, Quick.compare_locations, shared_eq hb hp]
  | timeOutliers =>
    rw [run, run, Outlier.compare_locations, Outlier.compare_locations, shared_eq hb hp]

/-- **Every method reports the locations that both profiles have, and no other.** Averages, the
quick check and the outliers report each location that both profiles measure once, in byte order;
the outliers put one finding about the total behind. Growth reports each location that both have
models of or both measure. Nothing else counts: pairs of profiles that measure the same locations
and have models of the same are reported at the same, with any numbers and any thresholds. -/
theorem run_covers (t : Thresholds α) (b p : Profile α) :
    Covers t b p ∧ ∀ (t' : Thresholds β) (b' p' : Profile β), b.SamePlaces b' → p.SamePlaces p' →
      ∀ m, (run t b p m).map (·.location) = (run t' b' p' m).map (·.location) :=
  ⟨covers t b p, fun t' _ _ hb hp m => run_locations_eq hb hp t t' m⟩

/-- Locations in turn, one with models on one side only, one without measurements and one that
only the target has; then the same with nothing but zeros. -/
theorem run_covers_trial :
    let t : Thresholds ℚ := .standard
    let b : Profile ℚ :=
      {origin := "a", collector := "time", command := "ls"
       resources := [{location := "main", amount := 3}, {location := "loop", amount := 7},
         {location := "main", amount := -3}]
       models := [{location := "sort", kind := .linear, fit := 1},
         {location := "main", kind := .power, fit := 1 / 3}]}
    let p : Profile ℚ :=
      {origin := "b", collector := "time", command := "ls"
       resources := [{location := "setup", amount := 1}, {location := "loop", amount := 7},
         {location := "main", amount := 2}]
       models := [{location := "sort", kind := .quadratic, fit := 1}]}
    let idle := fun q : Profile ℚ =>
      {q with
        resources := q.resources.map fun r => {r with amount := 0}
        models := q.models.map fun m => {m with fit := 0}}
    (b.SamePlaces (idle b) ∧ p.SamePlaces (idle p)) ∧
      Covers t b p ∧
      (∀ m, (run t b p m).map (·.location) = (run t (idle b) (idle p) m).map (·.location)) ∧
      (run t b p .modelOrder).map (·.location) = ["loop", "main", "sort"] ∧
      (run t b p .timeOutliers).map (·.location) = ["loop", "main", "<total>"] := by
  intro t b p idle
  have hidle : ∀ q : Profile ℚ, q.SamePlaces (idle q) := by
    refine fun q => ⟨fun l => ?_, fun l => ?_⟩
    · simp [Measures, idle]
    · simp [Fits, idle]
  have h := run_covers (β := ℚ) t b p
  exact ⟨⟨hidle b, hidle p⟩, h.1, h.2 t _ _ (hidle b) (hidle p), by decide +kernel,
    by decide +kernel⟩

end Places

end Detection
end PerfDrift
