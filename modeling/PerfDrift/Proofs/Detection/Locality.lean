import Mathlib.Data.List.Perm.Basic
import PerfDrift.Detection.Comparison
import PerfDrift.Proofs.Detection.Growth
import PerfDrift.Proofs.KeyMap
import PerfDrift.Proofs.Number.Binary

/-! What a comparison reads of a profile.

Of the measurements of a location a comparison reads the amounts and the calls, in their
order; of its models it reads the kinds and the fits, in no order. Profiles that are `Alike`
in this, number for number by their bits, have the same samples, the same totals and equally
good best models at every location. So every method finds the same in them, however they
mix the locations and whatever else they say (`run_alike`). -/
namespace PerfDrift

namespace Profile
variable {α β : Type}

/-- The measurements of a location, in the order of the profile. -/
def resourcesAt (p : Profile α) (location : String) : List (Resource α) :=
  p.resources.filter fun r => r.location = location

/-- The models of a location, in the order of the profile. -/
def modelsAt (p : Profile α) (location : String) : List (FittedModel α) :=
  p.models.filter fun m => m.location = location

/-- The profiles hold the same of every location: amounts and calls in one order, kinds and
fits of models in any order. Numbers are told apart by their bits. -/
structure Alike (bits : α → β) (p q : Profile α) : Prop where
  resources : ∀ location,
    (p.resourcesAt location).map (fun r => (bits r.amount, r.calls)) =
      (q.resourcesAt location).map fun r => (bits r.amount, r.calls)
  models : ∀ location,
    ((p.modelsAt location).map fun m => (m.kind, bits m.fit)).Perm
      ((q.modelsAt location).map fun m => (m.kind, bits m.fit))

namespace Alike
variable {bits : α → β} {p q : Profile α}

theorem resources_nil_iff (h : Alike bits p q) (location : String) :
    p.resourcesAt location = [] ↔ q.resourcesAt location = [] := by
  rw [← List.map_eq_nil_iff, h.resources location, List.map_eq_nil_iff]

theorem models_nil_iff (h : Alike bits p q) (location : String) :
    p.modelsAt location = [] ↔ q.modelsAt location = [] := by
  have hlength : (p.modelsAt location).length = (q.modelsAt location).length := by
    simpa using (h.models location).length_eq
  rw [← List.length_eq_zero_iff, hlength, List.length_eq_zero_iff]

theorem models_keys_eq (h : Alike bits p q) :
    p.modelsByLocation.keys = q.modelsByLocation.keys :=
  KeyMap.keys_group_congr h.models_nil_iff

variable (hbits : Function.Injective bits)
include hbits

theorem measured (h : Alike bits p q) (location : String) :
    (p.resourcesAt location).map (fun r => (r.amount, r.calls)) =
      (q.resourcesAt location).map fun r => (r.amount, r.calls) := by
  have hmap : Function.Injective (Prod.map bits (id : UInt64 → UInt64)) :=
    hbits.prodMap Function.injective_id
  apply List.map_injective_iff.mpr hmap
  rw [List.map_map, List.map_map]
  exact h.resources location

theorem seen (h : Alike bits p q) (location : String) :
    ((p.modelsAt location).map Detection.Growth.seen).Perm
      ((q.modelsAt location).map Detection.Growth.seen) := by
  have hmap : Function.Injective (Prod.map (id : ModelKind → ModelKind) bits) :=
    Function.injective_id.prodMap hbits
  apply (List.map_perm_map_iff hmap).mp
  rw [List.map_map, List.map_map]
  exact h.models location

theorem samples_eq (h : Alike bits p q) : p.samples = q.samples := by
  refine KeyMap.map_group_congr h.resources_nil_iff fun location => ?_
  have hfst := congrArg (List.map Prod.fst) (h.measured hbits location)
  rwa [List.map_map, List.map_map] at hfst

theorem totals_eq [Arithmetic α] (h : Alike bits p q) : p.totals = q.totals := by
  refine KeyMap.map_group_congr h.resources_nil_iff fun location => ?_
  have hfold := congrArg (List.foldl (fun t x => t + x.1 * Arithmetic.ofNat x.2.toNat)
    Arithmetic.zero) (h.measured hbits location)
  rwa [List.foldl_map, List.foldl_map] at hfold

end Alike
end Profile

namespace Detection
open Arithmetic Profile

section Congruence
variable {α β ω : Type} {bits : α → β} {b b' t t' : Profile α} (hbits : Function.Injective bits)
  (hb : Alike bits b b') (ht : Alike bits t t')
include hbits hb ht

theorem Growth.locations_eq : locations b t = locations b' t' := by
  simp only [locations, KeyMap.meet_keys, hb.models_keys_eq, ht.models_keys_eq,
    hb.samples_eq hbits, ht.samples_eq hbits]

variable [Arithmetic α] [LinearOrder ω] {place : α → ω}
  (hplace : ∀ x y : α, totalOrder x y = Ord.compare (place x) (place y))
  (hinj : Function.Injective place)
include hplace hinj

/-- The models of a location are looked up by its name, and the best of them are equally
good. -/
theorem Growth.compare_congr (least : α) :
    Growth.compare least b t = Growth.compare least b' t' := by
  rw [Growth.compare, Growth.compare, Growth.locations_eq hbits hb ht]
  refine List.map_congr_left fun location _ => ?_
  simp only [modelsByLocation, KeyMap.getD_get?_group]
  exact Growth.finding_congr (Growth.best?_seen hplace hinj (hb.seen hbits location))
    (Growth.best?_seen hplace hinj (ht.seen hbits location))

theorem run_congr (limits : Thresholds α) (m : Method) :
    run limits b t m = run limits b' t' m := by
  cases m with
  | averageAmount => simp only [run, Average.compare, hb.samples_eq hbits, ht.samples_eq hbits]
  | modelOrder => exact Growth.compare_congr hbits hb ht hplace hinj limits.modelFit
  | fastCheck => simp only [run, Quick.compare, hb.samples_eq hbits, ht.samples_eq hbits]
  | timeOutliers =>
    simp only [run, Outlier.compare, Outlier.totalFinding, hb.samples_eq hbits,
      ht.samples_eq hbits, hb.totals_eq hbits, ht.totals_eq hbits]

end Congruence

/-- **What is found depends on what is held of each location.** Where two baselines hold, for
every location, the same amounts and calls in the same order and the same kinds and fits of
models in any order, and two targets likewise, each method makes the same findings of either
pair, bit by bit. -/
theorem run_alike {b b' t t' : Profile Float} (hb : Alike Float.toBits b b')
    (ht : Alike Float.toBits t t') (limits : Thresholds Float) (m : Method) :
    run limits b t m = run limits b' t' m :=
  run_congr toBits_injective hb ht (fun _ _ => rfl) totalRank_injective limits m

/-- Two locations in turn and one after the other, and models that fit alike the other way
around. -/
theorem run_alike_trial :
    let b : Profile Float :=
      {origin := "a", collector := "time", command := "ls"
       resources := [{location := "main", amount := 3.5}, {location := "loop", amount := -0.0},
         {location := "main", amount := 2, calls := 4}]
       models := [{location := "main", kind := .power, fit := 0.9},
         {location := "loop", kind := .linear, fit := 0.5, coefficients := [1, 2]},
         {location := "main", kind := .linear, fit := 0.9}]}
    let b' : Profile Float :=
      {origin := "b", collector := "memory", postprocessors := ["filter"], command := "ps"
       resources := [{location := "loop", amount := -0.0}, {location := "main", amount := 3.5},
         {location := "main", amount := 2, calls := 4}]
       models := [{location := "main", kind := .linear, fit := 0.9, coefficients := [7]},
         {location := "main", kind := .power, fit := 0.9},
         {location := "loop", kind := .linear, fit := 0.5}]}
    Alike Float.toBits b b' ∧ Alike Float.toBits b' b ∧
      ∀ limits m, run limits b b' m = run limits b' b m := by
  intro b b'
  have hb : Alike Float.toBits b b' := by
    constructor
    · intro location
      by_cases hmain : "main" = location
      · subst hmain
        rfl
      · simp [resourcesAt, List.filter_cons, b, b', hmain]
    · intro location
      by_cases hmain : "main" = location
      · subst hmain
        exact .swap _ _ _
      · by_cases hloop : "loop" = location
        · subst hloop
          exact .refl _
        · simp [modelsAt, b, b', hmain, hloop]
  have hb' : Alike Float.toBits b' b :=
    ⟨fun location => (hb.resources location).symm, fun location => (hb.models location).symm⟩
  exact ⟨hb, hb', fun limits m => run_alike hb hb' limits m⟩

end Detection

end PerfDrift
