import PerfDrift.Proofs.Detection.Selection

/-! Findings by location and strategy.

Every method comes to each location once, and signs its findings with its own name, so location
and strategy say which finding is meant. There is one exception. The finding about the total
stands under a name that a location may have as well: where both profiles measure one of that
name, there are two findings of the same strategy at it, the last of them about the total
(`compare?_nodup_iff`). -/
namespace PerfDrift

namespace Profile
variable {α : Type}

/-- The profile has a measurement of the location. -/
def Measures (p : Profile α) (location : String) : Prop :=
  ∃ r ∈ p.resources, r.location = location

instance (p : Profile α) (location : String) : Decidable (p.Measures location) :=
  inferInstanceAs (Decidable (∃ r ∈ p.resources, r.location = location))

theorem mem_samples_keys {p : Profile α} {location : String} :
    location ∈ p.samples.keys ↔ p.Measures location := by
  rw [samples, KeyMap.keys_map, KeyMap.mem_keys_group, Measures]

end Profile

theorem Selection.methods_nodup (selection : Selection) : selection.methods.Nodup := by
  cases selection with
  | all => decide
  | only m => exact List.nodup_singleton m

namespace Detection
open Profile
variable {α : Type} {baseline target : Profile α}

/-- What a finding is addressed by. -/
def address (f : Finding α) : String × String := (f.location, f.strategy)

/-- The locations that both profiles measure. -/
def shared (baseline target : Profile α) : List String :=
  (baseline.samples.meet target.samples).map (·.1)

theorem shared_nodup (baseline target : Profile α) : (shared baseline target).Nodup :=
  List.pairwise_map.mpr ((KeyMap.meet_sorted _ _).imp fun h => h.ne)

theorem mem_shared {location : String} :
    location ∈ shared baseline target ↔ baseline.Measures location ∧ target.Measures location := by
  rw [shared, KeyMap.meet_keys, List.mem_filter, mem_samples_keys, decide_eq_true_eq,
    mem_samples_keys]

/-! ### One method -/

variable [Arithmetic α] {t : Thresholds α} {m : Method}

theorem Outlier.compare_locations (factor tolerance : α) :
    (Outlier.compare factor tolerance baseline target).map (·.location) =
      shared baseline target ++ [totalLocation] := by
  rw [Outlier.compare, List.map_append, List.map_map, shared]
  rfl

/-- A method comes to no location twice, but for the one that has the name of the total. -/
theorem run_locations_nodup_iff :
    ((run t baseline target m).map (·.location)).Nodup ↔
      (m = .timeOutliers →
        ¬(baseline.Measures Outlier.totalLocation ∧ target.Measures Outlier.totalLocation)) := by
  by_cases hm : m = .timeOutliers
  · subst hm
    rw [run, Outlier.compare_locations, List.nodup_append_comm, List.singleton_append,
      List.nodup_cons, mem_shared, and_iff_left (shared_nodup baseline target),
      forall_prop_of_true rfl]
  · have hascending : ((run t baseline target m).map (·.location)).Nodup :=
      List.pairwise_map.mpr ((run_ascending hm).imp fun h => h.ne)
    exact iff_of_true hascending fun h => absurd h hm

/-- All findings of a method have one strategy, so locations tell them apart or nothing does. -/
theorem run_addresses_nodup_iff :
    ((run t baseline target m).map address).Nodup ↔
      ((run t baseline target m).map (·.location)).Nodup := by
  have haddress : (run t baseline target m).map address =
      ((run t baseline target m).map (·.location)).map fun l => (l, m.id) := by
    rw [List.map_map]
    exact List.map_congr_left fun f hf => Prod.ext rfl (strategy_of_mem_run hf)
  rw [haddress, List.nodup_map_iff fun l l' h => congrArg Prod.fst h]

/-! ### Several methods -/

variable {S : List Method}

/-- Findings of different methods are told apart by their strategies. -/
theorem runAll_addresses_nodup_iff (hS : S.Nodup) :
    ((runAll t baseline target S).map address).Nodup ↔
      ∀ m ∈ S, ((run t baseline target m).map address).Nodup := by
  have hapart : S.Pairwise fun m m' =>
      ((run t baseline target m).map address).Disjoint
        ((run t baseline target m').map address) := by
    refine hS.imp fun {m m'} hne k hk hk' => hne (Method.id_injective ?_)
    obtain ⟨f, hf, rfl⟩ := List.mem_map.mp hk
    obtain ⟨f', hf', he⟩ := List.mem_map.mp hk'
    rw [← strategy_of_mem_run hf, ← strategy_of_mem_run hf']
    exact (congrArg Prod.snd he).symm
  rw [((runAll_perm S).map address).nodup_iff, List.map_flatMap, List.nodup_flatMap,
    and_iff_left hapart]

/-! ### The name of the total -/

/-- The finding about the samples that both profiles have under the name of the total. -/
def Outlier.namesake? (factor : α) (baseline target : Profile α) : Option (Finding α) :=
  (baseline.samples.get? totalLocation).bind fun before =>
    (target.samples.get? totalLocation).map fun after => finding factor totalLocation before after

theorem Outlier.filter_compare (factor tolerance : α) :
    ((Outlier.compare factor tolerance baseline target).filter
        fun f => f.location = totalLocation) =
      (namesake? factor baseline target).toList ++ [totalFinding tolerance baseline target] := by
  have htotal : (totalFinding tolerance baseline target).location = totalLocation := rfl
  have hnamesake : ((baseline.samples.meet target.samples).find? fun x => x.1 = totalLocation).map
      (fun x => finding factor x.1 x.2.1 x.2.2) = namesake? factor baseline target := by
    rw [KeyMap.find?_meet, namesake?, Option.map_bind]
    simp only [Function.comp_def, Option.map_map]
  rw [Outlier.compare, List.filter_append, List.filter_map, List.filter_singleton, htotal,
    ← hnamesake, Option.toList_map, ← KeyMap.filter_key_eq (KeyMap.meet_sorted _ _)]
  rfl

theorem filter_methods_of_mem {selection : Selection} (h : .timeOutliers ∈ selection.methods) :
    (selection.methods.filter fun m => m.id = Method.timeOutliers.id) = [.timeOutliers] := by
  cases selection with
  | all => decide
  | only m =>
    obtain rfl : Method.timeOutliers = m := List.mem_singleton.mp h
    decide

/-- **Location and strategy say which finding is meant, but for a location that has the name of
the total.** The findings of a selection of methods on compatible profiles have one address
each if and only if the method with a finding about the total is left out, or one of the
profiles does not measure a location of that name. At the address of the finding about the
total there is what that method finds at such a location, and then the finding itself. -/
theorem compare?_nodup_iff (t : Thresholds α) (hc : baseline.Compatible target)
    (selection : Selection) :
    ∃ fs, compare? t baseline target selection = some fs ∧
      ((fs.map address).Nodup ↔
        (.timeOutliers ∈ selection.methods →
          ¬(baseline.Measures Outlier.totalLocation ∧ target.Measures Outlier.totalLocation))) ∧
      (.timeOutliers ∈ selection.methods →
        (fs.filter fun f => address f = (Outlier.totalLocation, Method.timeOutliers.id)) =
          (Outlier.namesake? t.fenceFactor baseline target).toList ++
            [Outlier.totalFinding t.noiseTolerance baseline target]) := by
  refine ⟨runAll t baseline target selection.methods, if_pos hc, ?_, fun hm => ?_⟩
  · simp only [runAll_addresses_nodup_iff selection.methods_nodup, run_addresses_nodup_iff,
      run_locations_nodup_iff]
    exact ⟨fun h hm => h _ hm rfl, fun h m hm he => h (he ▸ hm)⟩
  · have hat := filter_runAll t baseline target selection.methods
      (Outlier.totalLocation, Method.timeOutliers.id)
    rw [filter_methods_of_mem hm, List.flatMap_cons, List.flatMap_nil, List.append_nil] at hat
    exact hat.trans (Outlier.filter_compare t.fenceFactor t.noiseTolerance)

/-- One of the profiles has a location of the name of the total, which does no harm. -/
theorem compare?_nodup_iff_trial :
    let p : Profile Float :=
      {origin := "a", collector := "time", command := "ls",
        resources := [{location := "<total>", amount := 5}, {location := "main", amount := 1}]}
    let q : Profile Float :=
      {origin := "b", collector := "time", command := "ls",
        resources := [{location := "main", amount := 2}]}
    p.Compatible q ∧ p.Measures Outlier.totalLocation ∧ ¬q.Measures Outlier.totalLocation ∧
      ∃ fs, compare? .standard p q .all = some fs ∧ (fs.map address).Nodup := by
  intro p q
  have hc : p.Compatible q := ⟨rfl, rfl⟩
  have hp : p.Measures Outlier.totalLocation := by decide +kernel
  have hq : ¬q.Measures Outlier.totalLocation := by decide +kernel
  obtain ⟨fs, hfs, hnodup, -⟩ := compare?_nodup_iff .standard hc .all
  exact ⟨hc, hp, hq, fs, hfs, hnodup.mpr fun _ h => hq h.2⟩

/-- A location of the name of the total, measured on both sides, shares its address with the
finding about the total. -/
theorem total_addressed_twice :
    let p : Profile Float :=
      {origin := "a", collector := "trace", command := "ls",
        resources := [{location := "<total>", amount := 5}]}
    p.Compatible p ∧ ∃ fs, compare? .standard p p (.only .timeOutliers) = some fs ∧
      fs.map address = [("<total>", "eto"), ("<total>", "eto")] :=
  ⟨⟨rfl, rfl⟩, _, rfl, by decide +kernel⟩

end Detection
end PerfDrift
