import Mathlib.Data.List.Nodup
import Mathlib.Data.Prod.Lex
import Mathlib.Data.String.Basic
import PerfDrift.Detection.Comparison
import PerfDrift.Proofs.KeyMap
import PerfDrift.Proofs.StableSort
import PerfDrift.Proofs.Text.ByteOrder

/-! Which methods run, and in which order.

The findings of several methods are a stable sort by location and strategy, and every method
signs its findings with its own name. So the findings of some methods are those of all
methods less what the others found, whatever order they are asked for in, and among the
findings of all a method's own are its output sorted by location (`runAll_selects`). -/
namespace PerfDrift

/-- No name is that of two methods. -/
theorem Method.id_injective : Function.Injective Method.id := by
  have hnodup : (all.map Method.id).Nodup := by decide
  intro m m' h
  exact List.inj_on_of_nodup_map hnodup (mem_all m) (mem_all m') h

namespace Detection
variable {α : Type}

/-! ### The order of findings -/

theorem precedes_iff {f g : Finding α} :
    precedes f g ↔ f.location < g.location ∨ f.location = g.location ∧ f.strategy ≤ g.strategy := by
  simp [precedes]

theorem orders_precedes : OrdersBy (fun f : Finding α => (f.location, f.strategy)) precedes :=
  .of_le toLex.injective fun _ _ => by rw [precedes_iff, Prod.Lex.toLex_le_toLex]

/-- In byte order by location and, at one location, by strategy. -/
def InByteOrder (f g : Finding α) : Prop :=
  Text.bytes f.location < Text.bytes g.location ∨
    f.location = g.location ∧ Text.bytes f.strategy ≤ Text.bytes g.strategy

theorem inByteOrder_iff {f g : Finding α} : InByteOrder f g ↔ precedes f g := by
  rw [InByteOrder, Text.bytes_lt_iff, Text.bytes_le_iff, precedes_iff]

/-- The order by location alone. -/
def inPlace (f g : Finding α) : Bool := f.location ≤ g.location

theorem inPlace_iff {f g : Finding α} : inPlace f g ↔ f.location ≤ g.location := by
  simp [inPlace]

theorem orders_inPlace : OrdersBy (Finding.location (α := α)) inPlace :=
  .of_le Function.injective_id fun _ _ => inPlace_iff

/-! ### The findings of one method -/

variable [Arithmetic α] {t : Thresholds α} {baseline target : Profile α} {m : Method}

/-- Every method signs its findings. -/
theorem strategy_of_mem_run {f : Finding α} (h : f ∈ run t baseline target m) :
    f.strategy = m.id := by
  cases m with
  | averageAmount =>
    obtain ⟨x, -, rfl⟩ := List.mem_map.mp h
    rfl
  | modelOrder =>
    obtain ⟨x, -, rfl⟩ := List.mem_map.mp h
    rfl
  | fastCheck =>
    obtain ⟨x, -, rfl⟩ := List.mem_map.mp h
    rfl
  | timeOutliers =>
    rcases List.mem_append.mp h with h | h
    · obtain ⟨x, -, rfl⟩ := List.mem_map.mp h
      rfl
    · rw [List.mem_singleton.mp h]
      rfl

/-- All methods but the one with a finding about the total go by location, and come to each
location once. -/
theorem run_ascending (hm : m ≠ .timeOutliers) :
    (run t baseline target m).Pairwise fun f g => f.location < g.location := by
  cases m with
  | averageAmount => exact List.pairwise_map.mpr (KeyMap.meet_sorted _ _)
  | modelOrder => exact List.pairwise_map.mpr (KeyMap.namesOf_sorted _)
  | fastCheck => exact List.pairwise_map.mpr (KeyMap.meet_sorted _ _)
  | timeOutliers => exact absurd rfl hm

theorem run_sorted (hm : m ≠ .timeOutliers) :
    (run t baseline target m).Pairwise fun f g => inPlace f g :=
  (run_ascending hm).imp fun h => inPlace_iff.mpr h.le

/-! ### The findings of several methods -/

section Several
variable {S S' : List Method}

/-- The findings of one method among those of several: its own, once. -/
theorem filter_location_strategy (k : String × String) :
    ((S.flatMap (run t baseline target)).filter fun f => (f.location, f.strategy) = k) =
      (S.filter fun m => m.id = k.2).flatMap fun m =>
        (run t baseline target m).filter fun f => f.location = k.1 := by
  induction S with
  | nil => rfl
  | cons m rest ih =>
    rw [List.flatMap_cons, List.filter_append, ih]
    by_cases hm : m.id = k.2
    · rw [List.filter_cons_of_pos (by simpa using hm), List.flatMap_cons]
      congr 1
      refine List.filter_congr fun f hf => ?_
      simp [Prod.ext_iff, strategy_of_mem_run hf, hm]
    · have hnone :
          ((run t baseline target m).filter fun f => (f.location, f.strategy) = k) = [] := by
        refine List.filter_eq_nil_iff.mpr fun f hf => ?_
        simp [Prod.ext_iff, strategy_of_mem_run hf, hm]
      rw [List.filter_cons_of_neg (by simpa using hm), hnone, List.nil_append]

/-- Their order does not matter, since no two have one name. -/
theorem filter_id_of_perm (hS : S.Perm S') (s : String) :
    (S.filter fun m => m.id = s) = S'.filter fun m => m.id = s := by
  have hperm := hS.filter fun m => m.id = s
  cases hl : S.filter fun m => m.id = s with
  | nil => rw [hl] at hperm; exact hperm.nil_eq
  | cons m rest =>
    have hsame : ∀ m' ∈ S.filter fun m => m.id = s, m' = m := by
      intro m' hm'
      have hm : m ∈ S.filter fun m => m.id = s := hl ▸ List.mem_cons_self
      have hid : m.id = s := by simpa using (List.mem_filter.mp hm).2
      have hid' : m'.id = s := by simpa using (List.mem_filter.mp hm').2
      exact Method.id_injective (hid'.trans hid.symm)
    rw [List.eq_replicate_of_mem hsame] at hperm hl
    rw [← hl]
    exact (List.perm_replicate.mp hperm.symm).symm

theorem runAll_of_several (hS : 2 ≤ S.length) :
    runAll t baseline target S = (S.flatMap (run t baseline target)).mergeSort precedes := by
  rw [runAll, if_neg (by omega)]

/-- The methods may be asked for in any order. -/
theorem mergeSort_flatMap_of_perm (hS : S.Perm S') :
    (S.flatMap (run t baseline target)).mergeSort precedes =
      (S'.flatMap (run t baseline target)).mergeSort precedes := by
  have hsorted := List.pairwise_mergeSort (orders_precedes (α := α)).trans orders_precedes.total
    (S.flatMap (run t baseline target))
  refine orders_precedes.eq_mergeSort hsorted fun k => ?_
  rw [orders_precedes.filter_mergeSort, filter_location_strategy, filter_location_strategy,
    filter_id_of_perm hS]

/-- What some methods find is what all methods find without what the others find. -/
theorem filter_flatMap_all :
    ((Method.all.flatMap (run t baseline target)).filter fun f => f.strategy ∈ S.map Method.id) =
      (Method.select S).flatMap (run t baseline target) := by
  rw [Method.select_eq_filter]
  induction Method.all with
  | nil => rfl
  | cons m rest ih =>
    rw [List.flatMap_cons, List.filter_append, ih]
    have hin : m.id ∈ S.map Method.id ↔ m ∈ S := by
      refine ⟨fun h => ?_, List.mem_map_of_mem⟩
      obtain ⟨m', hm', hid⟩ := List.mem_map.mp h
      exact Method.id_injective hid ▸ hm'
    by_cases hm : m ∈ S
    · rw [List.filter_cons_of_pos (by simpa using hm), List.flatMap_cons]
      congr 1
      refine List.filter_eq_self.mpr fun f hf => ?_
      simpa only [strategy_of_mem_run hf, decide_eq_true_eq] using hin.mpr hm
    · rw [List.filter_cons_of_neg (by simpa using hm), List.filter_eq_nil_iff.mpr, List.nil_append]
      intro f hf
      simpa only [strategy_of_mem_run hf, decide_eq_true_eq] using mt hin.mp hm

theorem select_perm (hS : S.Nodup) : (Method.select S).Perm S := by
  have hall : Method.all.Nodup := by decide
  rw [Method.select_eq_filter]
  refine (List.perm_ext_iff_of_nodup (hall.filter _) hS).mpr fun m => ?_
  simp [Method.mem_all m]

end Several

/-! ### Selecting methods -/

section Selecting
variable {S S' : List Method}

theorem runAll_eq_filter (hS : S.Nodup) (hlen : 2 ≤ S.length) :
    runAll t baseline target S =
      (runAll t baseline target Method.all).filter fun f => f.strategy ∈ S.map Method.id := by
  rw [runAll_of_several hlen, runAll_of_several (by decide), orders_precedes.mergeSort_filter,
    filter_flatMap_all, mergeSort_flatMap_of_perm (select_perm hS)]

theorem runAll_of_perm (hS : S'.Perm S) (hlen : 2 ≤ S.length) :
    runAll t baseline target S' = runAll t baseline target S := by
  rw [runAll_of_several (hS.length_eq ▸ hlen), runAll_of_several hlen,
    mergeSort_flatMap_of_perm hS]

theorem runAll_sorted (hlen : 2 ≤ S.length) :
    (runAll t baseline target S).Pairwise InByteOrder := by
  rw [runAll_of_several hlen]
  exact (List.pairwise_mergeSort orders_precedes.trans orders_precedes.total _).imp
    inByteOrder_iff.mpr

theorem runAll_perm (S : List Method) :
    (runAll t baseline target S).Perm (S.flatMap (run t baseline target)) := by
  rw [runAll]
  split
  · exact .refl _
  · exact List.mergeSort_perm _ _

/-- The findings of one location and strategy are those of the method of that name. -/
theorem filter_runAll (t : Thresholds α) (baseline target : Profile α) (S : List Method)
    (k : String × String) :
    ((runAll t baseline target S).filter fun f => (f.location, f.strategy) = k) =
      (S.filter fun m => m.id = k.2).flatMap fun m =>
        (run t baseline target m).filter fun f => f.location = k.1 := by
  rw [← filter_location_strategy, runAll]
  split
  · rfl
  · exact orders_precedes.filter_mergeSort _ k

/-- The findings of one method among those of all are in order by location. -/
theorem filter_runAll_sorted (m : Method) :
    ((runAll t baseline target Method.all).filter fun f => f.strategy = m.id).Pairwise
      fun f g => inPlace f g := by
  refine ((runAll_sorted (by decide)).filter _).imp fun h => inPlace_iff.mpr ?_
  rcases precedes_iff.mp (inByteOrder_iff.mp h) with h | ⟨h, -⟩
  · exact h.le
  · exact h.le

/-- The findings of one method among those of all are its own, sorted by location. -/
theorem filter_runAll_eq_mergeSort (m : Method) :
    ((runAll t baseline target Method.all).filter fun f => f.strategy = m.id) =
      (run t baseline target m).mergeSort inPlace := by
  refine orders_inPlace.eq_mergeSort (filter_runAll_sorted m) fun l => ?_
  have hkey : ∀ fs : List (Finding α), ((fs.filter fun f => f.strategy = m.id).filter
      fun f => f.location = l) = fs.filter fun f => (f.location, f.strategy) = (l, m.id) := by
    intro fs
    simp only [List.filter_filter, Prod.mk.injEq, Bool.decide_and]
  have hone : (Method.all.filter fun m' => m'.id = m.id) = [m] := by
    cases m <;> decide
  rw [hkey, filter_runAll]
  dsimp only
  rw [hone, List.flatMap_cons, List.flatMap_nil, List.append_nil]

/-- **Selecting methods is leaving findings out.** The findings of two or more methods are
those of all four less what the others found, in the same order. So it does not matter in
which order the methods are asked for: the findings stand by location and strategy, and are
those of each method put together. What a single method finds on its own stands among the
findings of all sorted by location, which leaves it as it was for all methods but the one
with a finding about the total. -/
theorem runAll_selects (t : Thresholds α) (baseline target : Profile α) :
    (∀ S : List Method, S.Nodup → 2 ≤ S.length →
      let found := runAll t baseline target S
      (found = (runAll t baseline target Method.all).filter
          fun f => f.strategy ∈ S.map Method.id) ∧
        (∀ S' : List Method, S'.Perm S → runAll t baseline target S' = found) ∧
        found.Pairwise InByteOrder ∧
        found.Perm (S.flatMap (run t baseline target))) ∧
      ∀ m : Method,
        let own := (runAll t baseline target Method.all).filter fun f => f.strategy = m.id
        own = (run t baseline target m).mergeSort inPlace ∧
          (m ≠ .timeOutliers → own = run t baseline target m) := by
  refine ⟨fun S hS hlen => ⟨runAll_eq_filter hS hlen, fun S' hS' => runAll_of_perm hS' hlen,
    runAll_sorted hlen, runAll_perm S⟩, fun m => ⟨filter_runAll_eq_mergeSort m, fun hm => ?_⟩⟩
  rw [filter_runAll_eq_mergeSort, List.mergeSort_of_pairwise (run_sorted hm)]

/-- A location of the name that the finding about the total has, and two methods out of order:
what they find together, and what each of them finds among all. -/
theorem runAll_selects_trial :
    let p : Profile Float :=
      {origin := "a", collector := "time", command := "ls",
        resources := [{location := "main", amount := 1}, {location := "<total>", amount := 2}]}
    let S := [Method.timeOutliers, Method.averageAmount]
    let own (m : Method) :=
      (runAll .standard p p Method.all).filter fun f => f.strategy = m.id
    (S.Nodup ∧ 2 ≤ S.length ∧ S.reverse.Perm S ∧ Method.averageAmount ≠ .timeOutliers) ∧
      (runAll .standard p p S =
          (runAll .standard p p Method.all).filter fun f => f.strategy ∈ S.map Method.id) ∧
      runAll .standard p p S.reverse = runAll .standard p p S ∧
      own .averageAmount = run .standard p p .averageAmount ∧
      own .timeOutliers = (run .standard p p .timeOutliers).mergeSort inPlace ∧
      (run .standard p p .timeOutliers).map (·.location) = ["<total>", "main", "<total>"] := by
  intro p S own
  have hS : S.Nodup := by decide
  have hlen : 2 ≤ S.length := by decide
  have hperm : S.reverse.Perm S := S.reverse_perm
  have hne : Method.averageAmount ≠ .timeOutliers := by decide
  obtain ⟨hseveral, hsingle⟩ := runAll_selects .standard p p
  obtain ⟨hfilter, horder, -, -⟩ := hseveral S hS hlen
  exact ⟨⟨hS, hlen, hperm, hne⟩, hfilter, horder S.reverse hperm,
    (hsingle .averageAmount).2 hne, (hsingle .timeOutliers).1, by decide +kernel⟩

end Selecting

end Detection
end PerfDrift
