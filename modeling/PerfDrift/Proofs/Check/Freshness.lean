import PerfDrift.Proofs.Check.Replacement
import PerfDrift.Proofs.Check.Transparency

/-! Collections that leave something behind when they fail.

A runner may register some profiles of a version and then fail. The check is skipped, and the
cache is left alone: where it has an entry of the version, from the check of a newer one, that
entry is no longer what the store holds (`Spoils`). No entry goes stale in any other way.
`inMinor_fresh` says it of one check, `inEach_fresh` of a walk, `action_fresh` of an operation
and `checks_keep_fresh_iff` of any sequence of them. Two checks are enough for it to happen
(`checks_leave_stale_entry`). -/
namespace PerfDrift.Check
open Check.Action World
variable {ρ : Type} {s : Setting ρ} {v : Version} {w : World ρ} {u : String}

/-- The check is skipped, and what is cached of its version is not what the store holds after
the collection. -/
def Spoils (s : Setting ρ) (v : Version) (w : World ρ) : Prop :=
  Skips s v w ∧ ¬(w.collected s v).Fresh v.checksum

/-! ### One check -/

theorem collected_fresh_of_ne (hr : s.runner.Confined) (hu : u ≠ v.checksum) :
    (w.collected s v).Fresh u ↔ w.Fresh u := by
  have hstore : (w.collected s v).store.profilesOf u = w.store.profilesOf u :=
    hr.others v w.store w.runner u hu
  rw [fresh_iff, fresh_iff, collected_profiles hstore, hstore]

theorem settled_fresh_of_ne (hr : s.runner.Confined) (hu : u ≠ v.checksum) :
    (w.settled s v).Fresh u ↔ w.Fresh u := by
  rw [fresh_iff, fresh_iff, settled_profiles_of_ne hr hu, settled_store_of_ne hr hu]

/-- A check that comes to an end has cached what the store holds. -/
theorem settled_fresh_self (hf : w.Fresh v.checksum) : (w.settled s v).Fresh v.checksum := by
  rw [World.settled]
  split
  · rw [fresh_iff, cached_profiles_self, cached_store]
  · exact hf

/-- A check neither spoils nor mends the entry of another version. -/
theorem inMinor_fresh_of_ne (hs : s.Reliable) (hb : s.history.Built) (hr : s.runner.Confined)
    {c : String} (hu : u ≠ c) (w : World ρ) :
    ((inMinor s c).perform w).2.Fresh u ↔ w.Fresh u := by
  refine inMinor_cases hs hb c w ?unknown ?skipped ?completed
  case unknown => exact fun _ _ => Iff.rfl
  case skipped =>
    rintro v w' rfl - - ha -
    exact ha.fresh.trans (collected_fresh_of_ne hr hu)
  case completed =>
    rintro v w' rfl - - ha
    exact ha.fresh.trans (settled_fresh_of_ne hr hu)

/-- The entry of the version that is checked stays fresh unless the check spoils it. -/
theorem inMinor_fresh (hs : s.Reliable) (hv : s.history.version v.checksum = .ok v)
    (hf : w.Fresh v.checksum) :
    ((inMinor s v.checksum).perform w).2.Fresh v.checksum ↔ ¬Spoils s v w := by
  by_cases hk : Skips s v w
  · obtain ⟨w', hw', ha, -⟩ := inMinor_skipped hs hv hk
    rw [hw', ha.fresh]
    exact ⟨fun h hspoils => hspoils.2 h,
      fun h => Classical.byContradiction fun hstale => h ⟨hk, hstale⟩⟩
  · obtain ⟨w', hw', ha⟩ := inMinor_completed hs hv hk
    have hfresh : w'.Fresh v.checksum := ha.fresh.mpr (settled_fresh_self hf)
    rw [hw']
    exact iff_of_true hfresh fun hspoils => hk hspoils.1

/-! ### The checks of a sequence -/

/-- The check of a version, if it is known, with the world in which it is made. -/
def minorChecks (s : Setting ρ) (checksum : String) (w : World ρ) : List (Version × World ρ) :=
  match s.history.version checksum with
  | .ok v => [(v, w)]
  | .error _ => []

/-- The checks of an operation, each with the world in which it is made. -/
def Operation.checks (s : Setting ρ) : Operation → World ρ → List (Version × World ρ)
  | minor checksum, w => minorChecks s checksum w
  | history start, w =>
    match s.history.walk start with
    | .ok vs => walkChecks s vs w
    | .error _ => []
  | head, w =>
    match s.history.headVersion with
    | .ok checksum => minorChecks s checksum w
    | .error _ => []
  | profiles .., _ | forget, _ => []

/-- The checks of a sequence of operations. -/
def runChecks (s : Setting ρ) : List Operation → World ρ → List (Version × World ρ)
  | [], _ => []
  | op :: rest, w => op.checks s w ++ runChecks s rest ((op.action s).perform w).2

/-- None of the checks spoils the entry of the version. -/
def Unspoilt (s : Setting ρ) (version : String) (checks : List (Version × World ρ)) : Prop :=
  ∀ c ∈ checks, c.1.checksum = version → ¬Spoils s c.1 c.2

theorem unspoilt_nil : Unspoilt s u [] := fun _ hc => absurd hc List.not_mem_nil

theorem unspoilt_append {cs ds : List (Version × World ρ)} :
    Unspoilt s u (cs ++ ds) ↔ Unspoilt s u cs ∧ Unspoilt s u ds :=
  List.forall_mem_append

theorem unspoilt_cons {c : Version × World ρ} {cs : List (Version × World ρ)} :
    Unspoilt s u (c :: cs) ↔
      (c.1.checksum = u → ¬Spoils s c.1 c.2) ∧ Unspoilt s u cs :=
  List.forall_mem_cons

/-! ### Operations -/

theorem minorChecks_fresh (hs : s.Reliable) (hb : s.history.Built) (hr : s.runner.Confined)
    (c : String) (hf : w.Fresh u) :
    ((inMinor s c).perform w).2.Fresh u ↔ Unspoilt s u (minorChecks s c w) := by
  cases hv : s.history.version c with
  | error e =>
    rw [inMinor_unknown hs hv w, minorChecks, hv]
    exact iff_of_true hf unspoilt_nil
  | ok v =>
    obtain rfl := hb.checksum_eq hv
    rw [minorChecks, hv, unspoilt_cons, and_iff_left unspoilt_nil]
    by_cases hu : v.checksum = u
    · subst hu
      rw [inMinor_fresh hs hv hf, forall_prop_of_true rfl]
    · exact iff_of_true ((inMinor_fresh_of_ne hs hb hr (Ne.symm hu) w).mpr hf)
        fun h => absurd h hu

/-- A walk neither spoils nor mends the entries of versions it does not come to. -/
theorem inEach_fresh_of_not_mem (hs : s.Reliable) (hb : s.history.Built)
    (hr : s.runner.Confined) {vs : List Version}
    (hknown : ∀ v ∈ vs, s.history.version v.checksum = .ok v)
    (hu : u ∉ vs.map (·.checksum)) (w : World ρ) :
    ((inEach s vs).perform w).2.Fresh u ↔ w.Fresh u := by
  induction vs generalizing w with
  | nil => exact Iff.rfl
  | cons v rest ih =>
    obtain ⟨hv, hknown'⟩ := List.forall_mem_cons.mp hknown
    rw [List.map_cons, List.mem_cons, not_or] at hu
    obtain ⟨rs, w₁, hw₁⟩ := inMinor_known hs hv (w.asked (.visit v.checksum))
    have hfirst := inMinor_fresh_of_ne hs hb hr hu.1 (w.asked (.visit v.checksum))
    rw [hw₁] at hfirst
    rw [inEach_cons_perform hw₁]
    exact (ih hknown' hu.2 w₁).trans hfirst

theorem inEach_fresh (hs : s.Reliable) (hb : s.history.Built) (hr : s.runner.Confined)
    {vs : List Version} (hknown : ∀ v ∈ vs, s.history.version v.checksum = .ok v)
    (hnodup : (vs.map (·.checksum)).Nodup) (hf : w.Fresh u) :
    ((inEach s vs).perform w).2.Fresh u ↔ Unspoilt s u (walkChecks s vs w) := by
  induction vs generalizing w with
  | nil => exact iff_of_true hf unspoilt_nil
  | cons v rest ih =>
    obtain ⟨hv, hknown'⟩ := List.forall_mem_cons.mp hknown
    rw [List.map_cons, List.nodup_cons] at hnodup
    let visited := w.asked (.visit v.checksum)
    have hvisited : visited.Fresh u := hf
    obtain ⟨rs, w₁, hw₁⟩ := inMinor_known hs hv visited
    rw [inEach_cons_perform hw₁, walkChecks_cons hw₁, unspoilt_cons]
    by_cases hu : v.checksum = u
    · -- no later check of the walk is of this version
      subst hu
      have hrest : Unspoilt s v.checksum (walkChecks s rest w₁) := by
        intro c hc he
        refine absurd (he ▸ List.mem_map_of_mem ?_) hnodup.1
        rw [← walkChecks_versions hs hknown' w₁]
        exact List.mem_map_of_mem hc
      have hfirst := inMinor_fresh hs hv hvisited
      rw [hw₁] at hfirst
      rw [inEach_fresh_of_not_mem hs hb hr hknown' hnodup.1, and_iff_left hrest,
        forall_prop_of_true rfl]
      exact hfirst
    · have hfirst := (inMinor_fresh_of_ne hs hb hr (Ne.symm hu) visited).mpr hvisited
      rw [hw₁] at hfirst
      rw [ih hknown' hnodup.2 hfirst, and_iff_right fun he => absurd he hu]

theorem inHistory_fresh (hs : s.Reliable) (hb : s.history.Built) (hr : s.runner.Confined)
    {start : String} (hends : s.history.Ends start) (hf : w.Fresh u) :
    ((inHistory s start).perform w).2.Fresh u ↔
      Unspoilt s u ((Operation.history start).checks s w) := by
  rw [Operation.checks]
  cases hv : s.history.version start with
  | error e =>
    rw [inHistory_unknown hs hv w, History.walk_eq_error hv]
    exact iff_of_true hf unspoilt_nil
  | ok v =>
    obtain ⟨vs, hc⟩ := hends v hv
    have hv' := hb.version_self hv
    rw [inHistory_known hs hb hv hc, hc.walk_eq hb hv]
    exact inEach_fresh hs hb hr (hc.version_eq hb hv') (hc.nodup hb hv') hf

theorem inHead_fresh (hs : s.Reliable) (hb : s.history.Built) (hr : s.runner.Confined)
    (hf : w.Fresh u) :
    ((inHead s).perform w).2.Fresh u ↔ Unspoilt s u (Operation.head.checks s w) := by
  rw [inHead, Operation.checks]
  cases hhead : s.history.headVersion with
  | error e =>
    rw [perform_bind_error (head_perform_error hs hhead w)]
    exact iff_of_true hf unspoilt_nil
  | ok c =>
    rw [perform_bind_ok (head_perform hs hhead w)]
    exact minorChecks_fresh hs hb hr c hf

theorem checkProfiles_fresh (hs : s.Reliable) (baseline target : StoredProfile Float)
    (version : String) (selection : Selection) (w : World ρ) :
    ((checkProfiles s baseline target version selection).perform w).2.Fresh u ↔ w.Fresh u := by
  cases hf : compareProfiles s.config.thresholds baseline.profile target.profile selection with
  | error e => rw [checkProfiles_refused hf]
  | ok fs =>
    rw [checkProfiles_completed hs hf]
    exact Iff.rfl

/-- After an operation an entry is fresh as it was before, unless one of its checks spoils it. -/
theorem action_fresh (hs : s.Reliable) (hb : s.history.Built)
    (hends : ∀ start, s.history.Ends start) (hr : s.runner.Confined) (op : Operation)
    (hf : w.Fresh u) :
    ((op.action s).perform w).2.Fresh u ↔ Unspoilt s u (op.checks s w) := by
  cases op with
  | minor c =>
    rw [Operation.action, perform_bind_pure]
    exact minorChecks_fresh hs hb hr c hf
  | history start =>
    rw [Operation.action, perform_bind_pure]
    exact inHistory_fresh hs hb hr (hends start) hf
  | head =>
    rw [Operation.action, perform_bind_pure]
    exact inHead_fresh hs hb hr hf
  | profiles baseline target version selection =>
    rw [Operation.action, perform_bind_pure]
    exact iff_of_true ((checkProfiles_fresh hs ..).mpr hf) unspoilt_nil
  | forget => exact iff_of_true (mirrored_of_empty rfl u) unspoilt_nil

/-! ### Sequences -/

theorem runs_fresh (hs : s.Reliable) (hb : s.history.Built)
    (hends : ∀ start, s.history.Ends start) (hr : s.runner.Confined) (ops : List Operation)
    (hf : w.Fresh u) :
    (∀ n, (runs (Operation.action s) (ops.take n) w).2.Fresh u) ↔
      Unspoilt s u (runChecks s ops w) := by
  induction ops generalizing w with
  | nil => exact iff_of_true (fun n => by rwa [List.take_nil]) unspoilt_nil
  | cons op rest ih =>
    have hlater : (∀ n, (runs (Operation.action s) ((op :: rest).take n) w).2.Fresh u) ↔
        ∀ n, (runs (Operation.action s) (rest.take n) ((op.action s).perform w).2).2.Fresh u := by
      refine ⟨fun h n => h (n + 1), fun h n => ?_⟩
      cases n with
      | zero => exact hf
      | succ n => exact h n
    rw [hlater, runChecks, unspoilt_append, ← action_fresh hs hb hends hr op hf]
    exact ⟨fun h => ⟨h 0, (ih (h 0)).mp h⟩, fun h => (ih h.1).mpr h.2⟩

/-- **Only a collection that is given up spoils the cache.** With a runner that registers
profiles of the version it is asked for, whether it fails or not, any sequence of operations
that starts with an empty cache keeps the entry of a version fresh after every one of them if
and only if no check of that version is skipped when the cache has of it what the collection
has just outdated. As long as no check does that, checks do not need to begin with an empty
cache. -/
theorem checks_keep_fresh_iff (hs : s.Reliable) (hb : s.history.Built)
    (hends : ∀ start, s.history.Ends start) (hr : s.runner.Confined) (ops : List Operation)
    (hw : w.cache = .empty) :
    (∀ u, (∀ n, (runs (Operation.action s) (ops.take n) w).2.Fresh u) ↔
      Unspoilt s u (runChecks s ops w)) ∧
    ((∀ u, Unspoilt s u (runChecks s ops w)) → ∀ n c,
      ((inMinor s c).perform (runs (Operation.action s) (ops.take n) w).2).1 =
        ((inMinorCold s c).perform (runs (Operation.action s) (ops.take n) w).2).1) := by
  have hfresh : ∀ u, (∀ n, (runs (Operation.action s) (ops.take n) w).2.Fresh u) ↔
      Unspoilt s u (runChecks s ops w) :=
    fun u => runs_fresh hs hb hends hr ops (mirrored_of_empty hw u)
  refine ⟨hfresh, fun hunspoilt n c => ?_⟩
  have hm : (runs (Operation.action s) (ops.take n) w).2.Mirrored :=
    fun u => (hfresh u).mpr (hunspoilt u) n
  rw [inMinorCold_perform, inMinor_result_alike hs hb hr (alike_forget hm) c]

/-! ### A collection that is cancelled half way -/

/-- The runner registers a profile and is cancelled then. -/
def Trial.halfway : Setting (KeyMap Outcome) :=
  {Trial.setting with
    runner := ⟨fun v store script =>
      (.error .cancelled, store.addProfiles v.checksum [Trial.timed "b" 40], script)⟩}

theorem Trial.halfway_confined : Trial.halfway.runner.Confined where
  others _ store _ _ hu := store.profilesOf_addProfiles_of_ne hu _

/-- The version is collected before anything is cached of it: the check of the newer one finds
what was registered. -/
theorem checks_keep_fresh_iff_trial :
    let s := Trial.halfway
    let w := Trial.world (.abort .cancelled)
    let ops : List Operation := [.minor "b", .minor "c"]
    (s.Reliable ∧ s.history.Built ∧ (∀ start, s.history.Ends start) ∧ s.runner.Confined ∧
        w.cache = .empty ∧ Skips s Trial.middle w) ∧
      (∀ u, Unspoilt s u (runChecks s ops w)) ∧
      (∀ u n, (runs (Operation.action s) (ops.take n) w).2.Fresh u) := by
  intro s w ops
  have hw : w.cache = .empty := rfl
  have hk : Skips s Trial.middle w := by decide +kernel
  have hchecks : runChecks s ops w =
      [(Trial.middle, w), (Trial.newest, ((inMinor s "b").perform w).2)] := rfl
  have hmiddle : ¬Spoils s Trial.middle w := fun h => h.2 (mirrored_of_empty rfl _)
  have hnewest : ¬Spoils s Trial.newest ((inMinor s "b").perform w).2 := by
    have hk' : ¬Skips s Trial.newest ((inMinor s "b").perform w).2 := by decide +kernel
    exact fun h => hk' h.1
  have hunspoilt : ∀ u, Unspoilt s u (runChecks s ops w) := by
    intro u
    rw [hchecks, unspoilt_cons, unspoilt_cons]
    exact ⟨fun _ => hmiddle, fun _ => hnewest, unspoilt_nil⟩
  have h := checks_keep_fresh_iff (s := s) Trial.reliable Trial.built Trial.ends
    Trial.halfway_confined ops hw
  exact ⟨⟨Trial.reliable, Trial.built, Trial.ends, Trial.halfway_confined, hw, hk⟩, hunspoilt,
    fun u => (h.1 u).mpr (hunspoilt u)⟩

/-- The newer version is checked first, and the lack of profiles is cached on the way. The
profile that is registered then is not seen by its next check. -/
theorem checks_leave_stale_entry :
    let s := Trial.halfway
    let w := Trial.world (.abort .cancelled)
    let w' := (runs (Operation.action s) [.minor "c", .minor "b"] w).2
    (s.Reliable ∧ s.history.Built ∧ (∀ start, s.history.Ends start) ∧ s.runner.Confined ∧
        s.config.collects = true ∧ w.cache = .empty) ∧
      (w'.cache.get? "b").map (fun ps => ps.map (·.path)) = some [] ∧
      (w'.store.profilesOf "b").map (·.path) = ["b/time.json"] ∧ ¬w'.Fresh "b" ∧
      ((inMinor s "c").perform w').1.toOption.map (fun rs => rs.map (·.baseline)) = some ["a"] ∧
      ((inMinorCold s "c").perform w').1.toOption.map (fun rs => rs.map (·.baseline)) =
        some ["b", "a"] := by
  intro s w w'
  have hcache : (w'.cache.get? "b").map (fun ps => ps.map (·.path)) = some [] := by decide +kernel
  have hstore : (w'.store.profilesOf "b").map (·.path) = ["b/time.json"] := by decide +kernel
  have hstale : ¬w'.Fresh "b" := by
    intro hf
    obtain ⟨ps, hps, hnone⟩ := Option.map_eq_some_iff.mp hcache
    rw [hf ps hps, hstore] at hnone
    cases hnone
  exact ⟨⟨Trial.reliable, Trial.built, Trial.ends, Trial.halfway_confined, rfl, rfl⟩, hcache,
    hstore, hstale, by decide +kernel, by decide +kernel⟩

end PerfDrift.Check
