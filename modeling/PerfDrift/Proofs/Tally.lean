import Mathlib.Algebra.Ring.Nat
import Mathlib.Data.List.Induction
import Mathlib.Data.List.Nodup
import PerfDrift.Summary

/-! Tallies, and what is grouped by target.

A tally lists the verdicts that occur, each with its number (`entries_ofVerdicts`), and its totals
are numbers of findings (`total_ofVerdicts`). The groups of a list of entries are made in one pass
over it; after any number of entries there is one group for each target so far, and it is the
tally of the findings for that target (`tallyByTarget_eq`). So nothing is lost and nothing counted
twice, however the targets are mixed (`tallyByTarget_partitions`). -/
namespace PerfDrift

/-! ### Numbers of verdicts -/

theorem Verdict.mem_all (v : Verdict) : v ∈ Verdict.all := by
  cases v <;> decide

/-- The verdicts of a list that are numbered above zero, each with its number. -/
def listed (number : Verdict → Nat) (verdicts : List Verdict) : List (Verdict × Nat) :=
  (verdicts.filter (number · ≠ 0)).map fun v => (v, number v)

theorem listed_cons (number : Verdict → Nat) (u : Verdict) (rest : List Verdict) :
    listed number (u :: rest) =
      if number u = 0 then listed number rest else (u, number u) :: listed number rest := by
  by_cases h : number u = 0 <;> simp [listed, h]

theorem listed_congr {f g : Verdict → Nat} {verdicts : List Verdict}
    (h : ∀ v ∈ verdicts, f v = g v) : listed f verdicts = listed g verdicts := by
  induction verdicts with
  | nil => rfl
  | cons u rest ih =>
    rw [List.forall_mem_cons] at h
    rw [listed_cons, listed_cons, h.1, ih h.2]

/-- A verdict before all that are listed is placed in front of them. -/
theorem countOne_of_first {v : Verdict} {number : Verdict → Nat} {verdicts : List Verdict}
    (h : ∀ u ∈ verdicts, v.rank < u.rank) :
    countOne v (listed number verdicts) = (v, 1) :: listed number verdicts := by
  induction verdicts with
  | nil => rfl
  | cons u rest ih =>
    rw [List.forall_mem_cons] at h
    rw [listed_cons]
    split
    · exact ih h.2
    · rw [countOne, if_pos h.1]

/-- One more of a verdict is one more in its number. -/
theorem countOne_listed {v : Verdict} {number : Verdict → Nat} {verdicts : List Verdict}
    (hs : verdicts.Pairwise (·.rank < ·.rank)) (hv : v ∈ verdicts) :
    countOne v (listed number verdicts) =
      listed (fun u => number u + if u = v then 1 else 0) verdicts := by
  induction verdicts with
  | nil => simp at hv
  | cons u rest ih =>
    obtain ⟨hu, hrest⟩ := List.pairwise_cons.mp hs
    by_cases he : u = v
    · subst he
      have hothers : listed number rest =
          listed (fun x => number x + if x = u then 1 else 0) rest := by
        refine listed_congr fun x hx => ?_
        have hne : x ≠ u := fun hxu => Nat.lt_irrefl _ (hxu ▸ hu x hx)
        simp [hne]
      rw [listed_cons, listed_cons, ← hothers, if_pos rfl, if_neg (Nat.succ_ne_zero _)]
      split
      · next hzero => rw [countOne_of_first hu, hzero]
      · rw [countOne, if_neg (Nat.lt_irrefl _), if_pos rfl]
    · have hmem : v ∈ rest := (List.mem_cons.mp hv).resolve_left (Ne.symm he)
      rw [listed_cons, listed_cons, if_neg he, Nat.add_zero, ← ih hrest hmem]
      split
      · rfl
      · rw [countOne, if_neg (Nat.lt_asymm (hu v hmem)), if_neg (Ne.symm he)]

theorem sum_countOne (kind : Verdict → Bool) (v : Verdict) (l : List (Verdict × Nat)) :
    (((countOne v l).filter fun e => kind e.1).map (·.2)).sum =
      ((l.filter fun e => kind e.1).map (·.2)).sum + if kind v then 1 else 0 := by
  induction l with
  | nil => cases h : kind v <;> simp [countOne, h]
  | cons e rest ih =>
    obtain ⟨u, n⟩ := e
    rw [countOne]
    split
    · cases h : kind v <;> simp [List.filter_cons, h, Nat.add_comm]
    · split
      · next he =>
        subst he
        cases h : kind v <;> simp [h]
        omega
      · cases h : kind u <;> simp [h, ih]
        omega

namespace Tally

theorem total_eq (t : Tally) (kind : Verdict → Bool) :
    t.total kind = ((t.entries.filter fun e => kind e.1).map (·.2)).sum :=
  List.sum_eq_foldl.symm

theorem ofVerdicts_append (vs : List Verdict) (v : Verdict) :
    ofVerdicts (vs ++ [v]) = (ofVerdicts vs).add v := by
  rw [ofVerdicts, List.foldl_concat, ofVerdicts]

/-- A tally lists the verdicts that occur, in order, with how often they do. -/
theorem entries_ofVerdicts (vs : List Verdict) :
    (ofVerdicts vs).entries = listed vs.count Verdict.all := by
  have hs : Verdict.all.Pairwise (·.rank < ·.rank) := by decide
  induction vs using List.reverseRecOn with
  | nil => rfl
  | append_singleton vs v ih =>
    rw [ofVerdicts_append, add, ih, countOne_listed hs v.mem_all]
    refine listed_congr fun u _ => ?_
    simp only [List.count_append, List.count_singleton, beq_iff_eq, @eq_comm _ v u]

theorem mem_entries_ofVerdicts {vs : List Verdict} {v : Verdict} {n : Nat} :
    (v, n) ∈ (ofVerdicts vs).entries ↔ n ≠ 0 ∧ vs.count v = n := by
  rw [entries_ofVerdicts, listed]
  simp only [List.mem_map, List.mem_filter, decide_eq_true_eq, Prod.mk.injEq]
  constructor
  · rintro ⟨u, ⟨-, hne⟩, rfl, rfl⟩
    exact ⟨hne, rfl⟩
  · rintro ⟨hne, rfl⟩
    exact ⟨v, ⟨v.mem_all, hne⟩, rfl, rfl⟩

/-- A total is the number of findings of its kind. -/
theorem total_ofVerdicts (vs : List Verdict) (kind : Verdict → Bool) :
    (ofVerdicts vs).total kind = vs.countP kind := by
  induction vs using List.reverseRecOn with
  | nil => rfl
  | append_singleton vs v ih =>
    rw [total_eq] at ih
    rw [total_eq, ofVerdicts_append, add, sum_countOne, ih, List.countP_append,
      List.countP_singleton]

/-- There is a mark for each finding that is an optimization or a degradation. -/
theorem markers_ofFindings {α : Type} (fs : List (Finding α)) :
    (ofFindings fs).markers = String.ofList
      (List.replicate (fs.countP (·.verdict.isOptimization)) '+' ++
        List.replicate (fs.countP (·.verdict.isDegradation)) '-') := by
  rw [markers, optimizations, degradations, ofFindings, total_ofVerdicts, total_ofVerdicts,
    List.countP_map, List.countP_map]
  rfl

end Tally

/-! ### Groups by target -/

section Groups
variable {α : Type}

/-- The findings of the entries for a target. -/
def findingsFor (target : String) (entries : List (Entry α)) : List (Finding α) :=
  (entries.filter (·.target = target)).map (·.record.finding)

/-- The targets of some entries, in the order they first occur in. -/
def targetsOf (entries : List (Entry α)) : List String := (entries.map (·.target)).eraseDups

theorem mem_targetsOf {target : String} {entries : List (Entry α)} :
    target ∈ targetsOf entries ↔ ∃ e ∈ entries, e.target = target := by
  simp [targetsOf]

theorem targetsOf_append (entries : List (Entry α)) (e : Entry α) :
    targetsOf (entries ++ [e]) =
      if e.target ∈ targetsOf entries then targetsOf entries
      else targetsOf entries ++ [e.target] := by
  simp only [targetsOf, List.map_append, List.eraseDups_append, List.mem_eraseDups]
  split <;> simp_all [List.removeAll, List.eraseDups_cons]

theorem targetsOf_nodup (entries : List (Entry α)) : (targetsOf entries).Nodup := by
  induction entries using List.reverseRecOn with
  | nil => exact List.nodup_nil
  | append_singleton es e ih =>
    rw [targetsOf_append]
    split
    · exact ih
    · next hnew => exact ih.append (List.nodup_singleton _) (by simpa using hnew)

theorem findingsFor_append (target : String) (entries : List (Entry α)) (e : Entry α) :
    findingsFor target (entries ++ [e]) =
      findingsFor target entries ++ if e.target = target then [e.record.finding] else [] := by
  by_cases h : e.target = target <;> simp [findingsFor, h]

theorem findingsFor_of_not_mem {target : String} {entries : List (Entry α)}
    (h : target ∉ targetsOf entries) : findingsFor target entries = [] := by
  rw [mem_targetsOf, not_exists] at h
  simpa [findingsFor] using h

/-- Counting for a target changes the tally of its group, which it makes if there is none. -/
theorem countFor_map {target : String} {v : Verdict} {ts : List String} {f g : String → Tally}
    (hself : g target = (f target).add v) (hothers : ∀ t, t ≠ target → g t = f t)
    (hd : ts.Nodup) (hnew : target ∉ ts → f target = .empty) :
    countFor target v (ts.map fun t => (t, f t)) =
      (if target ∈ ts then ts else ts ++ [target]).map fun t => (t, g t) := by
  induction ts with
  | nil => simp [countFor, hself, hnew]
  | cons t rest ih =>
    obtain ⟨ht, hrest⟩ := List.nodup_cons.mp hd
    rw [List.map_cons, countFor]
    by_cases he : t = target
    · subst he
      have hsame : (rest.map fun u => (u, f u)) = rest.map fun u => (u, g u) :=
        List.map_congr_left fun u hu => by rw [hothers u fun he => ht (he ▸ hu)]
      rw [if_pos rfl, if_pos List.mem_cons_self, List.map_cons, hself, hsame]
    · have hmem : target ∈ t :: rest ↔ target ∈ rest := by simp [Ne.symm he]
      rw [if_neg he, ih hrest fun h => hnew (mt hmem.mp h)]
      by_cases hr : target ∈ rest
      · rw [if_pos hr, if_pos (hmem.mpr hr), List.map_cons, hothers t he]
      · rw [if_neg hr, if_neg (mt hmem.mp hr), List.cons_append, List.map_cons, hothers t he]

/-- One more entry is counted in the groups of those before it. -/
theorem tallyByTarget_append (entries : List (Entry α)) (e : Entry α) :
    tallyByTarget (entries ++ [e]) =
      countFor e.target e.record.finding.verdict (tallyByTarget entries) := by
  rw [tallyByTarget, List.foldl_concat, tallyByTarget]

/-- After a pass over entries there is a group for each target, with the tally of the findings
for it. -/
theorem tallyByTarget_eq (entries : List (Entry α)) :
    tallyByTarget entries =
      (targetsOf entries).map fun t => (t, Tally.ofFindings (findingsFor t entries)) := by
  induction entries using List.reverseRecOn with
  | nil => rfl
  | append_singleton es e ih =>
    rw [tallyByTarget_append, ih, targetsOf_append]
    refine countFor_map ?_ (fun t ht => ?_) (targetsOf_nodup es) fun hnew => ?_
    · rw [findingsFor_append, if_pos rfl, Tally.ofFindings, List.map_append]
      exact Tally.ofVerdicts_append _ _
    · rw [findingsFor_append, if_neg (Ne.symm ht), List.append_nil]
    · rw [findingsFor_of_not_mem hnew]
      rfl

theorem targets_tallyByTarget (entries : List (Entry α)) :
    (tallyByTarget entries).map (·.1) = targetsOf entries := by
  simp [tallyByTarget_eq, Function.comp_def]

theorem tally_of_mem {entries : List (Entry α)} {g : String × Tally}
    (hg : g ∈ tallyByTarget entries) : g.2 = Tally.ofFindings (findingsFor g.1 entries) := by
  rw [tallyByTarget_eq] at hg
  obtain ⟨t, -, rfl⟩ := List.mem_map.mp hg
  rfl

/-- A group numbers the verdicts of the findings for its target. -/
theorem mem_entries_of_mem {entries : List (Entry α)} {g : String × Tally}
    (hg : g ∈ tallyByTarget entries) {v : Verdict} {n : Nat} :
    (v, n) ∈ g.2.entries ↔
      n ≠ 0 ∧ ((findingsFor g.1 entries).map (·.verdict)).count v = n := by
  rw [tally_of_mem hg]
  exact Tally.mem_entries_ofVerdicts

/-- A target has a group only for an entry, whose verdict is numbered there. -/
theorem entries_ne_nil_of_mem {entries : List (Entry α)} {g : String × Tally}
    (hg : g ∈ tallyByTarget entries) : g.2.entries ≠ [] := by
  have htarget : g.1 ∈ targetsOf entries := by
    rw [← targets_tallyByTarget]
    exact List.mem_map_of_mem hg
  obtain ⟨e, he, ht⟩ := mem_targetsOf.mp htarget
  have hverdict : e.record.finding.verdict ∈ (findingsFor g.1 entries).map (·.verdict) :=
    List.mem_map_of_mem (List.mem_map_of_mem (List.mem_filter.mpr ⟨he, by simpa using ht⟩))
  exact List.ne_nil_of_mem
    ((mem_entries_of_mem hg).mpr ⟨Nat.ne_of_gt (List.count_pos_iff.mpr hverdict), rfl⟩)

/-- The number of all findings that are counted in some groups. -/
def countedIn (groups : List (String × Tally)) : Nat :=
  (groups.map fun g => (g.2.entries.map (·.2)).sum).sum

theorem countedIn_countFor (target : String) (v : Verdict) (groups : List (String × Tally)) :
    countedIn (countFor target v groups) = countedIn groups + 1 := by
  have hadd : ∀ t : Tally, ((t.add v).entries.map (·.2)).sum = (t.entries.map (·.2)).sum + 1 := by
    intro t
    simpa [Tally.add] using sum_countOne (fun _ => true) v t.entries
  induction groups with
  | nil => rfl
  | cons g rest ih =>
    obtain ⟨t, tally⟩ := g
    rw [countFor]
    split
    · simp only [countedIn, List.map_cons, List.sum_cons, hadd]
      omega
    · simp only [countedIn, List.map_cons, List.sum_cons] at ih ⊢
      omega

theorem countedIn_tallyByTarget (entries : List (Entry α)) :
    countedIn (tallyByTarget entries) = entries.length := by
  induction entries using List.reverseRecOn with
  | nil => rfl
  | append_singleton es e ih =>
    rw [tallyByTarget_append, countedIn_countFor, ih, List.length_append]
    rfl

/-- Groups in which every entry is counted once, in the group of its target. -/
structure Partitions (entries : List (Entry α)) (groups : List (String × Tally)) : Prop where
  distinct : (groups.map (·.1)).Nodup
  targets : groups.map (·.1) = (entries.map (·.target)).eraseDups
  tallies : ∀ g ∈ groups, g.2 = Tally.ofFindings (findingsFor g.1 entries)
  numbers : ∀ g ∈ groups, ∀ v n, (v, n) ∈ g.2.entries ↔
    n ≠ 0 ∧ ((findingsFor g.1 entries).map (·.verdict)).count v = n
  nonempty : ∀ g ∈ groups, g.2.entries ≠ []
  positive : ∀ g ∈ groups, ∀ e ∈ g.2.entries, 0 < e.2
  counted : countedIn groups = entries.length
  markers : ∀ g ∈ groups, g.2.markers = String.ofList
    (List.replicate ((findingsFor g.1 entries).countP (·.verdict.isOptimization)) '+' ++
      List.replicate ((findingsFor g.1 entries).countP (·.verdict.isDegradation)) '-')

/-- **Grouping by target loses nothing.** The groups of entries, however mixed, are those of their
targets in the order of first occurrence, each with the tally of the findings for its target and
with one mark for each that is an optimization or a degradation. No group is empty, no number is
zero, and all numbers together are the number of entries. -/
theorem tallyByTarget_partitions (entries : List (Entry α)) :
    Partitions entries (tallyByTarget entries) where
  distinct := by
    rw [targets_tallyByTarget]
    exact targetsOf_nodup entries
  targets := targets_tallyByTarget entries
  tallies g hg := tally_of_mem hg
  numbers g hg v n := mem_entries_of_mem hg
  nonempty g hg := entries_ne_nil_of_mem hg
  positive g hg e he := Nat.pos_of_ne_zero ((mem_entries_of_mem hg).mp he).1
  counted := countedIn_tallyByTarget entries
  markers g hg := by
    rw [tally_of_mem hg]
    exact Tally.markers_ofFindings _

end Groups
end PerfDrift
