import PerfDrift.Proofs.Check.Mirror
import PerfDrift.Proofs.Check.Operation

/-! The records of a version are those of its last check.

A check completes when it neither fails nor is skipped. `completions` are the checks that a
sequence of operations completes, in order, each with the records it gave, and a store that
had no records has those of the last one of each version afterwards. That is put together
from what one check does (`inMinor_replaces`), what a walk does (`inEach_replaces`) and what
an operation does (`action_replaces`). `Replacing` says it along with what leaves the
records as they are; `checks_replace` proves it of any cache and of any runner that writes
no records. -/
namespace PerfDrift.Check
open Check.Action World
variable {ρ : Type} {s : Setting ρ}

/-! ### Completed checks -/

/-- A check that completed, and the records it gave. -/
structure Completion where
  version : String
  records : List (Record Float)

/-- The records of the last completed check of a version. -/
def lastRecords? (version : String) (cs : List Completion) : Option (List (Record Float)) :=
  (cs.reverse.find? fun c => c.version = version).map (·.records)

/-- What the check of a version completes: itself, unless the version is not known or is
skipped. -/
def minorCompletions (s : Setting ρ) (checksum : String) (w : World ρ) : List Completion :=
  match s.history.version checksum, ((inMinor s checksum).perform w).1 with
  | .ok v, .ok rs => if Skips s v w then [] else [⟨checksum, rs⟩]
  | _, _ => []

/-- The checks of a walk: each version with the world in which it is checked. -/
def walkChecks (s : Setting ρ) : List Version → World ρ → List (Version × World ρ)
  | [], _ => []
  | v :: rest, w =>
    let visited := w.asked (.visit v.checksum)
    (v, visited) ::
      match (inMinor s v.checksum).perform visited with
      | (.ok _, w') => walkChecks s rest w'
      | (.error _, _) => []

theorem walkChecks_cons {v : Version} {w w' : World ρ} {rs : List (Record Float)}
    (h : (inMinor s v.checksum).perform (w.asked (.visit v.checksum)) = (.ok rs, w'))
    (vs : List Version) :
    walkChecks s (v :: vs) w = (v, w.asked (.visit v.checksum)) :: walkChecks s vs w' := by
  simp only [walkChecks, h]

/-- The checks of a walk are those of its versions, skipped or not. -/
theorem walkChecks_versions (hs : s.Reliable) {vs : List Version}
    (hknown : ∀ v ∈ vs, s.history.version v.checksum = .ok v) (w : World ρ) :
    (walkChecks s vs w).map (·.1) = vs := by
  induction vs generalizing w with
  | nil => rfl
  | cons v rest ih =>
    obtain ⟨hv, hknown'⟩ := List.forall_mem_cons.mp hknown
    obtain ⟨rs, w', hw'⟩ := inMinor_known hs hv (w.asked (.visit v.checksum))
    rw [walkChecks_cons hw', List.map_cons, ih hknown']

/-- What the checks of a walk complete. -/
def walkCompletions (s : Setting ρ) (vs : List Version) (w : World ρ) : List Completion :=
  (walkChecks s vs w).flatMap fun c => minorCompletions s c.1.checksum c.2

/-- The checks that an operation completes. -/
def Operation.completions (s : Setting ρ) : Operation → World ρ → List Completion
  | minor checksum, w => minorCompletions s checksum w
  | history start, w =>
    match s.history.walk start with
    | .ok vs => walkCompletions s vs w
    | .error _ => []
  | head, w =>
    match s.history.headVersion with
    | .ok checksum => minorCompletions s checksum w
    | .error _ => []
  | profiles baseline target version selection, w =>
    match ((checkProfiles s baseline target version selection).perform w).1 with
    | .ok rs => [⟨version, rs⟩]
    | .error _ => []
  | forget, _ => []

/-- The world with another cache, or with the one it has. -/
def World.withCache (cache : Option ProfileCache) (w : World ρ) : World ρ :=
  {w with cache := cache.getD w.cache}

/-- An operation with the cache that is there, or with another one. -/
def Operation.actionWith (s : Setting ρ) (k : Option ProfileCache × Operation) :
    Action ρ Reply := do
  modify (World.withCache k.1)
  k.2.action s

/-- The checks that a sequence of operations completes. -/
def completions (s : Setting ρ) :
    List (Option ProfileCache × Operation) → World ρ → List Completion
  | [], _ => []
  | k :: rest, w =>
    k.2.completions s (w.withCache k.1) ++
      completions s rest ((Operation.actionWith s k).perform w).2

/-! ### Records that are replaced -/

theorem lastRecords?_append (version : String) (cs ds : List Completion) :
    lastRecords? version (cs ++ ds) =
      (lastRecords? version ds).or (lastRecords? version cs) := by
  simp only [lastRecords?, List.reverse_append, List.find?_append, Option.map_or]

/-- The records of each version are those of its last completed check, or as they were. -/
def Replaces (cs : List Completion) (w w' : World ρ) : Prop :=
  ∀ u, w'.store.recordsOf u = (lastRecords? u cs).getD (w.store.recordsOf u)

namespace Replaces
variable {cs ds : List Completion} {w w' w'' : World ρ}

theorem none (h : ∀ u, w'.store.recordsOf u = w.store.recordsOf u) : Replaces [] w w' := h

theorem one {version : String} {rs : List (Record Float)}
    (hself : w'.store.recordsOf version = rs)
    (hne : ∀ u, u ≠ version → w'.store.recordsOf u = w.store.recordsOf u) :
    Replaces [⟨version, rs⟩] w w' := by
  intro u
  by_cases hu : u = version
  · subst hu
    simpa [lastRecords?] using hself
  · have hvu : ¬version = u := fun h => hu h.symm
    simpa [lastRecords?, hvu] using hne u hu

theorem trans (h : Replaces cs w w') (h' : Replaces ds w' w'') :
    Replaces (cs ++ ds) w w'' := by
  intro u
  rw [h' u, h u, lastRecords?_append]
  cases lastRecords? u ds <;> rfl

end Replaces

/-! ### One check -/

/-- The records of a version after its check. -/
theorem inMinor_recordsOf_self (hs : s.Reliable) (hr : s.runner.KeepsRecords) {v : Version}
    (hv : s.history.version v.checksum = .ok v) (w : World ρ) :
    ∃ rs w', (inMinor s v.checksum).perform w = (.ok rs, w') ∧
      w'.store.recordsOf v.checksum =
        if Skips s v w then w.store.recordsOf v.checksum else rs := by
  by_cases hk : Skips s v w
  · obtain ⟨w', hw', ha, -⟩ := inMinor_skipped hs hv hk
    refine ⟨[], w', hw', ?_⟩
    rw [if_pos hk, ha.store, collected_recordsOf hr]
  · obtain ⟨w', hw', ha⟩ := inMinor_completed hs hv hk
    refine ⟨w.records s v, w', hw', ?_⟩
    rw [if_neg hk, ha.store]
    exact Store.recordsOf_putRecords_self ..

theorem inMinor_replaces (hs : s.Reliable) (hb : s.history.Built) (hr : s.runner.KeepsRecords)
    (c : String) (w : World ρ) :
    Replaces (minorCompletions s c w) w ((inMinor s c).perform w).2 := by
  have hne : ∀ u, u ≠ c →
      ((inMinor s c).perform w).2.store.recordsOf u = w.store.recordsOf u :=
    fun u hu => inMinor_recordsOf_of_ne hs hb hr hu w
  cases hv : s.history.version c with
  | error e =>
    have hnone : minorCompletions s c w = [] := by rw [minorCompletions, hv]
    rw [hnone, inMinor_unknown hs hv w]
    exact .none fun _ => rfl
  | ok v =>
    obtain rfl := hb.checksum_eq hv
    obtain ⟨rs, w', hw', hself⟩ := inMinor_recordsOf_self hs hr hv w
    rw [hw'] at hne ⊢
    by_cases hk : Skips s v w
    · have hnone : minorCompletions s v.checksum w = [] := by
        simp only [minorCompletions, hv, hw', if_pos hk]
      rw [if_pos hk] at hself
      rw [hnone]
      refine .none fun u => ?_
      by_cases hu : u = v.checksum
      · rw [hu, hself]
      · exact hne u hu
    · have hone : minorCompletions s v.checksum w = [⟨v.checksum, rs⟩] := by
        simp only [minorCompletions, hv, hw', if_neg hk]
      rw [if_neg hk] at hself
      rw [hone]
      exact .one hself hne

/-! ### Two given profiles -/

theorem checkProfiles_recordsOf_of_ne (hs : s.Reliable) {version u : String}
    (hu : u ≠ version) (baseline target : StoredProfile Float) (selection : Selection)
    (w : World ρ) :
    ((checkProfiles s baseline target version selection).perform w).2.store.recordsOf u =
      w.store.recordsOf u := by
  cases hf : compareProfiles s.config.thresholds baseline.profile target.profile selection with
  | error e => rw [checkProfiles_refused hf]
  | ok fs =>
    rw [checkProfiles_completed hs hf]
    exact Store.recordsOf_putRecords_of_ne _ hu _

theorem checkProfiles_replaces (hs : s.Reliable) (baseline target : StoredProfile Float)
    (version : String) (selection : Selection) (w : World ρ) :
    Replaces ((Operation.profiles baseline target version selection).completions s w) w
      ((checkProfiles s baseline target version selection).perform w).2 := by
  rw [Operation.completions]
  cases hf : compareProfiles s.config.thresholds baseline.profile target.profile selection with
  | error e =>
    rw [checkProfiles_refused hf]
    exact .none fun _ => rfl
  | ok fs =>
    rw [checkProfiles_completed hs hf]
    exact .one (Store.recordsOf_putRecords_self ..)
      fun u hu => Store.recordsOf_putRecords_of_ne _ hu _

/-- Profiles that do not go together are refused, and nothing changes. -/
theorem checkProfiles_incompatible {baseline target : StoredProfile Float}
    (h : ¬baseline.profile.Compatible target.profile) (version : String) (selection : Selection)
    (w : World ρ) :
    (checkProfiles s baseline target version selection).perform w =
      (.error (.incompatible baseline.profile.descriptor target.profile.descriptor), w) := by
  refine checkProfiles_refused ?_ version w
  rw [compareProfiles, Detection.compare?, if_neg h]

/-! ### Walks -/

theorem inEach_replaces (hs : s.Reliable) (hb : s.history.Built) (hr : s.runner.KeepsRecords)
    (vs : List Version) (w : World ρ) :
    Replaces (walkCompletions s vs w) w ((inEach s vs).perform w).2 := by
  induction vs generalizing w with
  | nil => exact .none fun _ => rfl
  | cons v rest ih =>
    have hfirst : Replaces (minorCompletions s v.checksum (w.asked (.visit v.checksum))) w
        ((inMinor s v.checksum).perform (w.asked (.visit v.checksum))).2 :=
      inMinor_replaces hs hb hr v.checksum (w.asked (.visit v.checksum))
    rw [walkCompletions, walkChecks, List.flatMap_cons]
    rcases hw : (inMinor s v.checksum).perform (w.asked (.visit v.checksum)) with ⟨_ | rs, w'⟩
    · rw [hw] at hfirst
      rw [inEach, perform_bind_ok (note_perform ..), perform_bind_error hw]
      simpa using hfirst
    · rw [hw] at hfirst
      rw [inEach_cons_perform hw]
      exact hfirst.trans (ih w')

/-- The records of one version among the entries of a walk. -/
def recordsAmong (version : String) (es : List (Entry Float)) : List (Record Float) :=
  (es.filter fun e => e.target = version).map (·.record)

theorem recordsAmong_own (version : String) (rs : List (Record Float)) :
    recordsAmong version (rs.map fun r => ⟨version, r⟩) = rs := by
  simp [recordsAmong, List.filter_map, Function.comp_def]

theorem recordsAmong_other {u v : String} (h : u ≠ v) (rs : List (Record Float)) :
    recordsAmong u (rs.map fun r => ⟨v, r⟩) = [] := by
  simp [recordsAmong, Ne.symm h]

theorem recordsAmong_append (version : String) (es fs : List (Entry Float)) :
    recordsAmong version (es ++ fs) = recordsAmong version es ++ recordsAmong version fs := by
  rw [recordsAmong, recordsAmong, recordsAmong, List.filter_append, List.map_append]

/-- A walk has no entries of other versions, and keeps their records. -/
theorem inEach_others (hs : s.Reliable) (hb : s.history.Built) (hr : s.runner.KeepsRecords)
    {vs : List Version} (hknown : ∀ v ∈ vs, s.history.version v.checksum = .ok v)
    (w : World ρ) :
    ∃ es w', (inEach s vs).perform w = (.ok es, w') ∧
      ∀ u, u ∉ vs.map (·.checksum) →
        recordsAmong u es = [] ∧ w'.store.recordsOf u = w.store.recordsOf u := by
  induction vs generalizing w with
  | nil => exact ⟨[], w, rfl, fun _ _ => ⟨rfl, rfl⟩⟩
  | cons v rest ih =>
    obtain ⟨hv, hknown'⟩ := List.forall_mem_cons.mp hknown
    obtain ⟨rs, w₁, hw₁⟩ := inMinor_known hs hv (w.asked (.visit v.checksum))
    obtain ⟨es, w', hw', hothers⟩ := ih hknown' w₁
    refine ⟨rs.map (fun r => ⟨v.checksum, r⟩) ++ es, w', ?_, fun u hu => ?_⟩
    · rw [inEach_cons_perform hw₁, hw']
      rfl
    · rw [List.map_cons, List.mem_cons, not_or] at hu
      obtain ⟨hne, hrest⟩ := hu
      obtain ⟨hes, hrecords⟩ := hothers u hrest
      have hfirst := inMinor_recordsOf_of_ne hs hb hr hne (w.asked (.visit v.checksum))
      rw [hw₁] at hfirst
      rw [recordsAmong_append, recordsAmong_other hne, hes, hrecords, hfirst]
      exact ⟨rfl, rfl⟩

/-- After a walk that repeats no version each one has its entries for records, or, if it was
skipped, the records it had. -/
theorem inEach_records (hs : s.Reliable) (hb : s.history.Built) (hr : s.runner.KeepsRecords)
    {vs : List Version} (hknown : ∀ v ∈ vs, s.history.version v.checksum = .ok v)
    (hnodup : (vs.map (·.checksum)).Nodup) (w : World ρ) :
    ∃ es w', (inEach s vs).perform w = (.ok es, w') ∧ (walkChecks s vs w).map (·.1) = vs ∧
      ∀ c ∈ walkChecks s vs w, w'.store.recordsOf c.1.checksum =
        if Skips s c.1 c.2 then w.store.recordsOf c.1.checksum
        else recordsAmong c.1.checksum es := by
  induction vs generalizing w with
  | nil => exact ⟨[], w, rfl, rfl, fun c hc => absurd hc List.not_mem_nil⟩
  | cons v rest ih =>
    obtain ⟨hv, hknown'⟩ := List.forall_mem_cons.mp hknown
    rw [List.map_cons, List.nodup_cons] at hnodup
    obtain ⟨hfresh, hnodup'⟩ := hnodup
    obtain ⟨rs, w₁, hw₁, hself⟩ := inMinor_recordsOf_self hs hr hv (w.asked (.visit v.checksum))
    obtain ⟨es, w', hw', hothers⟩ := inEach_others hs hb hr hknown' w₁
    obtain ⟨es', w'', hw'', hversions, hrecords⟩ := ih hknown' hnodup' w₁
    rw [hw'] at hw''
    obtain ⟨rfl, rfl⟩ : es = es' ∧ w' = w'' := by simpa using hw''
    refine ⟨rs.map (fun r => ⟨v.checksum, r⟩) ++ es, w', ?_, ?_, ?_⟩
    · rw [inEach_cons_perform hw₁, hw']
      rfl
    · rw [walkChecks_cons hw₁, List.map_cons, hversions]
    · intro c hc
      rw [walkChecks_cons hw₁, List.mem_cons] at hc
      rcases hc with rfl | hc
      · obtain ⟨hes, hlater⟩ := hothers v.checksum hfresh
        rw [hlater, hself, recordsAmong_append, recordsAmong_own, hes, List.append_nil]
        rfl
      · have hmem : c.1.checksum ∈ rest.map (·.checksum) := by
          rw [← hversions]
          exact List.mem_map_of_mem (List.mem_map_of_mem hc)
        have hne : c.1.checksum ≠ v.checksum := fun he => hfresh (he ▸ hmem)
        have hfirst := inMinor_recordsOf_of_ne hs hb hr hne (w.asked (.visit v.checksum))
        rw [hw₁] at hfirst
        rw [hrecords c hc, recordsAmong_append, recordsAmong_other hne, List.nil_append, hfirst]
        rfl

/-! ### Sequences -/

theorem action_replaces (hs : s.Reliable) (hb : s.history.Built) (hr : s.runner.KeepsRecords)
    (op : Operation) (w : World ρ) :
    Replaces (op.completions s w) w ((op.action s).perform w).2 := by
  cases op with
  | minor checksum =>
    rw [Operation.action, perform_bind_pure]
    exact inMinor_replaces hs hb hr checksum w
  | history start =>
    rw [Operation.action, perform_bind_pure, inHistory, Operation.completions]
    cases hwalk : s.history.walk start with
    | error e =>
      rw [perform_bind_error (walk_perform_error hs hwalk w)]
      exact .none fun _ => rfl
    | ok vs =>
      rw [perform_bind_ok (walk_perform hs hwalk w)]
      exact inEach_replaces hs hb hr vs w
  | head =>
    rw [Operation.action, perform_bind_pure, inHead, Operation.completions]
    cases hhead : s.history.headVersion with
    | error e =>
      rw [perform_bind_error (head_perform_error hs hhead w)]
      exact .none fun _ => rfl
    | ok checksum =>
      rw [perform_bind_ok (head_perform hs hhead w)]
      exact inMinor_replaces hs hb hr checksum w
  | profiles baseline target version selection =>
    rw [Operation.action, perform_bind_pure]
    exact checkProfiles_replaces hs baseline target version selection w
  | forget => exact .none fun _ => rfl

theorem runs_replace (hs : s.Reliable) (hb : s.history.Built) (hr : s.runner.KeepsRecords)
    (ks : List (Option ProfileCache × Operation)) (w : World ρ) :
    Replaces (completions s ks w) w (runs (Operation.actionWith s) ks w).2 := by
  induction ks generalizing w with
  | nil => exact .none fun _ => rfl
  | cons k rest ih =>
    have hfirst : Replaces (k.2.completions s (w.withCache k.1)) w
        ((Operation.actionWith s k).perform w).2 :=
      action_replaces hs hb hr k.2 (w.withCache k.1)
    exact hfirst.trans (ih _)

/-! ### All of it -/

/-- How checks replace records. -/
structure Replacing (s : Setting ρ) : Prop where
  /-- After any sequence of operations, with any caches, on a store without records, the
  records of a version are those of its last completed check, and none without one. -/
  last : ∀ (ks : List (Option ProfileCache × Operation)) (w : World ρ),
    (∀ u, w.store.recordsOf u = []) → ∀ u,
      ((loadRecords s u).perform (runs (Operation.actionWith s) ks w).2).1 =
        .ok ((lastRecords? u (completions s ks w)).getD [])
  /-- A check that is skipped has no records and leaves those of every version. -/
  skipped : ∀ v w, s.history.version v.checksum = .ok v → Skips s v w →
    ∃ w', (inMinor s v.checksum).perform w = (.ok [], w') ∧
      ∀ u, w'.store.recordsOf u = w.store.recordsOf u
  /-- A version that is not known changes nothing, and no walk starts from it. -/
  unknown : ∀ c e w, s.history.version c = .error e →
    (inMinor s c).perform w = (.error (.history e), w) ∧
      (inHistory s c).perform w = (.error (.history e), w)
  /-- Two profiles that cannot be compared change nothing. -/
  incompatible : ∀ (baseline target : StoredProfile Float) version selection w,
    ¬baseline.profile.Compatible target.profile →
      (checkProfiles s baseline target version selection).perform w =
        (.error (.incompatible baseline.profile.descriptor target.profile.descriptor), w)
  /-- The check of a version leaves the records of the others. -/
  others : ∀ c u w, u ≠ c →
    ((inMinor s c).perform w).2.store.recordsOf u = w.store.recordsOf u ∧
      ∀ baseline target selection,
        ((checkProfiles s baseline target c selection).perform w).2.store.recordsOf u =
          w.store.recordsOf u
  /-- Right after a walk that ends the records of each of its versions are its entries, in
  order, unless it was skipped, and then they are the ones it had. -/
  walked : ∀ start v vs w, s.history.version start = .ok v → s.history.Chain v vs →
    ∃ es w', (inHistory s start).perform w = (.ok es, w') ∧
      (walkChecks s vs w).map (·.1) = vs ∧
      ∀ c ∈ walkChecks s vs w, w'.store.recordsOf c.1.checksum =
        if Skips s c.1 c.2 then w.store.recordsOf c.1.checksum
        else recordsAmong c.1.checksum es

/-- **Every completed check replaces the records of its version**, and nothing else does:
with any caches, and with any runner that writes no records. -/
theorem checks_replace (hs : s.Reliable) (hb : s.history.Built) (hr : s.runner.KeepsRecords) :
    Replacing s where
  last := by
    intro ks w hw u
    rw [loadRecords_perform hs, runs_replace hs hb hr ks w u, hw]
  skipped := by
    intro v w hv hk
    obtain ⟨w', hw', ha, -⟩ := inMinor_skipped hs hv hk
    exact ⟨w', hw', fun u => by rw [ha.store, collected_recordsOf hr]⟩
  unknown := fun c e w hv => ⟨inMinor_unknown hs hv w, inHistory_unknown hs hv w⟩
  incompatible := fun _ _ version selection w h =>
    checkProfiles_incompatible h version selection w
  others := fun c u w hu => ⟨inMinor_recordsOf_of_ne hs hb hr hu w,
    fun baseline target selection =>
      checkProfiles_recordsOf_of_ne hs hu baseline target selection w⟩
  walked := by
    intro start v vs w hv hc
    obtain rfl := hb.checksum_eq hv
    rw [inHistory_known hs hb hv hc]
    exact inEach_records hs hb hr (hc.version_eq hb hv) (hc.nodup hb hv) w

/-- The records of two given profiles outlast a walk that skips their version. -/
theorem checks_replace_trial :
    let w := Trial.world (.abort (.failed "no machine"))
    let given := Operation.profiles (Trial.timed "a" 100) (Trial.timed "b" 90) "b" .all
    let ks := [(some .empty, given), (none, .history "c")]
    (Trial.setting.Reliable ∧ Trial.setting.history.Built ∧
        Trial.setting.runner.KeepsRecords ∧ (∀ u, w.store.recordsOf u = []) ∧
        Skips Trial.setting Trial.middle w) ∧
      (completions Trial.setting ks w).map (·.version) = ["b", "c", "a"] ∧
      ∀ u, ((loadRecords Trial.setting u).perform
          (runs (Operation.actionWith Trial.setting) ks w).2).1 =
        .ok ((lastRecords? u (completions Trial.setting ks w)).getD []) := by
  intro w given ks
  have hr : Trial.setting.runner.KeepsRecords := Runner.scripted_adds.keepsRecords
  have hw : ∀ u, w.store.recordsOf u = [] := fun _ => rfl
  have hk : Skips Trial.setting Trial.middle w := by decide +kernel
  exact ⟨⟨Trial.reliable, Trial.built, hr, hw, hk⟩, by decide +kernel,
    (checks_replace Trial.reliable Trial.built hr).last ks w hw⟩

end PerfDrift.Check
