import PerfDrift.Proofs.Check.Expected
import PerfDrift.Proofs.Check.Refusal
import PerfDrift.Proofs.Check.Replacement

/-! Collections are requested where profiles are lacking.

A check asks for the profiles of its version when it `Wants` them and at no other time
(`inMinor_collections`). With a mirror that depends on the stored profiles of that version
alone, which no earlier check of a walk has touched, so the versions for which a walk asks are
known when it begins: those that the store `Lacks`, in the order of the walk, whatever comes of
the collections before (`inEach_collections`). -/
namespace PerfDrift.Check
open World
variable {ρ : Type} {s : Setting ρ} {v : Version} {w : World ρ}

/-! ### What is lacking -/

/-- No rule applies to a stored profile of the version. -/
def Lacks (rules : List Rule) (store : Store) (version : String) : Prop :=
  ∀ p ∈ store.profilesOf version, ¬Ruled rules p

instance (rules : List Rule) (store : Store) (version : String) :
    Decidable (Lacks rules store version) :=
  inferInstanceAs (Decidable (∀ p ∈ store.profilesOf version, ¬Ruled rules p))

/-- The versions among those of a walk that are to be collected, in order. -/
def lacking (config : Config) (store : Store) (vs : List Version) : List String :=
  if config.collects then
    (vs.filter fun v => Lacks config.rules store v.checksum).map (·.checksum)
  else []

theorem lacking_cons (config : Config) (store : Store) (v : Version) (vs : List Version) :
    lacking config store (v :: vs) =
      (if config.collects = true ∧ Lacks config.rules store v.checksum then [v.checksum] else []) ++
        lacking config store vs := by
  by_cases hc : config.collects = true <;>
    by_cases hl : Lacks config.rules store v.checksum <;> simp [lacking, hc, hl]

/-- What is lacking depends on the profiles of the versions in question only. -/
theorem lacking_congr {config : Config} {store store' : Store} {vs : List Version}
    (h : ∀ v ∈ vs, store'.profilesOf v.checksum = store.profilesOf v.checksum) :
    lacking config store' vs = lacking config store vs := by
  have hfilter : (vs.filter fun v => Lacks config.rules store' v.checksum) =
      vs.filter fun v => Lacks config.rules store v.checksum :=
    List.filter_congr fun v hv => decide_eq_decide.mpr (by rw [Lacks, Lacks, h v hv])
  rw [lacking, lacking, hfilter]

theorem lacking_sublist (config : Config) (store : Store) (vs : List Version) :
    (lacking config store vs).Sublist (vs.map (·.checksum)) := by
  rw [lacking]
  split
  · exact List.filter_sublist.map _
  · exact List.nil_sublist _

/-! ### One check -/

theorem settled_collections :
    (w.settled s v).collections = w.collections ++ if Wants s v w then [v.checksum] else [] := by
  rw [World.settled]
  split
  · rw [cached_collections, collected_collections]
  · rw [List.append_nil]

/-- A check asks for the profiles of its version if it wants them, and for nothing else. -/
theorem inMinor_collections (hs : s.Reliable) (hv : s.history.version v.checksum = .ok v)
    (w : World ρ) :
    ((inMinor s v.checksum).perform w).2.collections =
      w.collections ++ if Wants s v w then [v.checksum] else [] := by
  by_cases hk : Skips s v w
  · obtain ⟨w', hw', ha, -⟩ := inMinor_skipped hs hv hk
    rw [hw', ha.collections, collected_collections, if_pos hk.1]
  · obtain ⟨w', hw', ha⟩ := inMinor_completed hs hv hk
    rw [hw', ha.collections]
    exact settled_collections

/-! ### Walks -/

theorem inEach_collections (hs : s.Reliable) (hb : s.history.Built) (hr : s.runner.Local)
    {vs : List Version} (hknown : ∀ v ∈ vs, s.history.version v.checksum = .ok v)
    (hnodup : (vs.map (·.checksum)).Nodup) (hm : w.Mirrored) :
    ((inEach s vs).perform w).2.collections = w.collections ++ lacking s.config w.store vs := by
  induction vs generalizing w with
  | nil => simp [inEach, lacking]
  | cons v rest ih =>
    obtain ⟨hv, hknown'⟩ := List.forall_mem_cons.mp hknown
    rw [List.map_cons, List.nodup_cons] at hnodup
    obtain ⟨hfresh, hnodup'⟩ := hnodup
    let visited := w.asked (.visit v.checksum)
    have hvisited : visited.collections = w.collections :=
      (asked_collections _).trans (List.append_nil _)
    obtain ⟨rs, w₁, hw₁⟩ := inMinor_known hs hv visited
    have hm₁ := inMinor_mirrored hs hb hr (w := visited) hm v.checksum
    have hfirst := inMinor_collections hs hv visited
    -- the rest of the walk finds the profiles that were there when it began
    have hstore : ∀ u ∈ rest, w₁.store.profilesOf u.checksum = w.store.profilesOf u.checksum := by
      intro u hu
      have hne : u.checksum ≠ v.checksum := fun he => hfresh (he ▸ List.mem_map_of_mem hu)
      have hkept := inMinor_profilesOf_of_ne hs hb hr.toConfined hne visited
      rw [hw₁] at hkept
      exact hkept
    have hwants : Wants s v visited ↔
        s.config.collects = true ∧ Lacks s.config.rules w.store v.checksum := wants_stored hm
    rw [hw₁] at hm₁ hfirst
    simp only [hwants] at hfirst
    rw [inEach_cons_perform hw₁, ih hknown' hnodup' hm₁, hfirst, hvisited, lacking_congr hstore,
      lacking_cons, List.append_assoc]

/-- **Collections are requested exactly where profiles are lacking.** A walk that ends, with a
cache that mirrors the store and a runner that keeps to the version it is asked for, checks
every one of its versions whatever comes of the collections. It asks for the profiles of
those, in its order and each once, that have no stored profile a rule applies to when it
begins; and for none at all unless the configuration wants that. -/
theorem inHistory_collections (hs : s.Reliable) (hb : s.history.Built) (hr : s.runner.Local)
    {start : String} (hv : s.history.version start = .ok v) {vs : List Version}
    (hc : s.history.Chain v vs) (hm : w.Mirrored) :
    (∃ es, ((inHistory s start).perform w).1 = .ok es) ∧
      (walkChecks s vs w).map (·.1) = vs ∧
      ((inHistory s start).perform w).2.collections =
        w.collections ++ lacking s.config w.store vs ∧
      (lacking s.config w.store vs).Nodup := by
  obtain rfl := hb.checksum_eq hv
  have hknown := hc.version_eq hb hv
  have hnodup := hc.nodup hb hv
  rw [inHistory_known hs hb hv hc]
  exact ⟨inEach_known hs hknown w, walkChecks_versions hs hknown w,
    inEach_collections hs hb hr hknown hnodup hm, hnodup.sublist (lacking_sublist ..)⟩

/-- The collection of the version in the middle is given up, and the one before it is checked
all the same; the newest and the oldest have their profiles. -/
theorem inHistory_collections_trial :
    let w := Trial.world (.abort (.failed "no machine"))
    let vs := [Trial.newest, Trial.middle, Trial.oldest]
    (Trial.setting.Reliable ∧ Trial.setting.history.Built ∧ Trial.setting.runner.Local ∧
        Trial.setting.history.version "c" = .ok Trial.newest ∧
        Trial.setting.history.Chain Trial.newest vs ∧ w.Mirrored ∧
        Skips Trial.setting Trial.middle w) ∧
      (walkChecks Trial.setting vs w).map (·.1) = vs ∧
      ((inHistory Trial.setting "c").perform w).2.collections = ["b"] := by
  intro w vs
  have hr : Trial.setting.runner.Local := Runner.scripted_adds.isLocal
  have hv : Trial.setting.history.version "c" = .ok Trial.newest := rfl
  have hm : w.Mirrored := mirrored_of_empty rfl
  have hk : Skips Trial.setting Trial.middle w := by decide +kernel
  have hlacking : lacking Trial.setting.config w.store vs = ["b"] := by decide +kernel
  obtain ⟨-, hchecks, hcollections, -⟩ :=
    inHistory_collections Trial.reliable Trial.built hr hv Trial.chain_newest hm
  rw [hlacking] at hcollections
  exact ⟨⟨Trial.reliable, Trial.built, hr, hv, Trial.chain_newest, hm, hk⟩, hchecks, hcollections⟩

end PerfDrift.Check
