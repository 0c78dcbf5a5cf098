import PerfDrift.Proofs.Check.Expected

/-! What a check leaves in the cache.

A check goes by the profiles that it finds in the cache, else in the store (`seen`), and it goes
no further back than it has to (`reach`): to the nearest ancestor that is of use where the first
one counts, and nowhere without a profile of interest. What it looked up is in the cache
afterwards and nothing else has changed there (`inMinor_footprint`). A check that is skipped or
fails leaves the cache alone. -/
namespace PerfDrift.Check
open World
variable {ρ : Type} {s : Setting ρ} {v : Version} {w w' : World ρ}

/-! ### How far a check goes -/

/-- The ancestors that a check visits, given the profiles of each version. Where the first one
counts these are all up to the nearest that carries a profile of use, hence all if none does. -/
def reach (config : Config) (profiles : String → List (StoredProfile Float)) (version : String)
    (ancestors : List String) : List String :=
  if ∃ p ∈ profiles version, Ruled config.rules p then
    match config.policy with
    | .first => ancestors.take (ancestors.findIdx (Carries config profiles version ·) + 1)
    | .all => ancestors
  else []

section Reach
variable {config : Config} {profiles : String → List (StoredProfile Float)}

theorem visited_all (cs : List Candidate) (as : List String) :
    visited .all cs profiles as = as := by
  induction as with
  | nil => rfl
  | cons a rest ih => rw [visited_all_cons, ih]

theorem visited_first (cs : List Candidate) (as : List String) :
    visited .first cs profiles as =
      as.take (as.findIdx (fun a => pairable (profiles a) cs) + 1) := by
  induction as with
  | nil => rfl
  | cons a rest ih =>
    rw [List.findIdx_cons]
    cases h : pairable (profiles a) cs with
    | false => rw [visited_cons_of_not h, ih, cond_false, List.take_succ_cons]
    | true => rw [visited_first_cons h, cond_true, List.take_succ_cons, List.take_zero]

/-- A check looks at the ancestors that are within its reach. -/
theorem lookedAt_eq (version : String) (as : List String) :
    lookedAt config profiles version as = reach config profiles version as := by
  have hnone : (candidates config.rules (profiles version)).isEmpty = true ↔
      ¬∃ p ∈ profiles version, Ruled config.rules p := by
    simp [candidates_eq]
  have hcarries : (fun a => pairable (profiles a) (candidates config.rules (profiles version))) =
      fun a => decide (Carries config profiles version a) := by
    funext a
    rw [Bool.eq_iff_iff, pairable_iff, decide_eq_true_iff]
  rw [lookedAt, reach]
  by_cases h : ∃ p ∈ profiles version, Ruled config.rules p
  · rw [if_pos h, if_neg fun he => hnone.mp he h]
    cases config.policy with
    | first => rw [visited_first, hcarries]
    | all => rw [visited_all]
  · rw [if_neg h, if_pos (hnone.mpr h)]

end Reach

/-! ### What a check goes by -/

/-- The profiles that a check goes by, which led from one world to another: of the version what
it had collected, and of any version what was in the cache, else what is in the store. -/
def seen (s : Setting ρ) (v : Version) (w w' : World ρ) (u : String) :
    List (StoredProfile Float) :=
  if u = v.checksum ∧ Wants s v w then w'.store.profilesOf u
  else (w.cache.get? u).getD (w'.store.profilesOf u)

theorem settled_cache_of_ne {u : String} (hu : u ≠ v.checksum) :
    (w.settled s v).cache.get? u = w.cache.get? u := by
  rw [World.settled]
  split
  · exact KeyMap.get?_insert_of_ne _ hu _
  · rfl

/-- What is seen when it comes to comparing is what the check went by. -/
theorem settled_seen (hstore : w'.store.profilesOf = (w.settled s v).store.profilesOf) :
    (w.settled s v).profiles = seen s v w w' := by
  funext u
  rw [seen, hstore]
  by_cases hu : u = v.checksum
  · subst hu
    by_cases hw : Wants s v w
    · rw [if_pos ⟨rfl, hw⟩, World.settled, if_pos hw, cached_profiles_self, cached_store]
    · rw [if_neg fun h => hw h.2, settled_of_not_wants hw, World.profiles]
  · rw [if_neg fun h => hu h.1, World.profiles, settled_cache_of_ne hu]

/-! ### What is left behind -/

/-- The cache after the check of a version: it has the profiles that were checked, and those of
every visited ancestor, which the store gave where the cache did not have them. -/
structure Footprint (version : String) (checked : List (StoredProfile Float))
    (visited : List String) (w w' : World ρ) : Prop where
  checked : w'.cache.get? version = some checked
  loaded : ∀ a ∈ visited, w.cache.get? a = none →
    w'.cache.get? a = some (w'.store.profilesOf a)
  others : ∀ u, u ≠ version → (u ∈ visited → w.cache.get? u ≠ none) →
    w'.cache.get? u = w.cache.get? u

/-- Looking up the profiles of a version and of some others leaves these behind. -/
theorem footprint_of_lookedUp {us : List String} (hus : v.checksum ∉ us)
    (h : LookedUp (v.checksum :: us) (w.settled s v) w') :
    Footprint v.checksum ((w.settled s v).profiles v.checksum) us w w' where
  checked := by rw [h.cache, if_pos List.mem_cons_self]
  loaded := by
    intro a ha hnone
    have hne : a ≠ v.checksum := fun he => hus (he ▸ ha)
    rw [h.cache, if_pos (List.mem_cons_of_mem _ ha), h.store,
      profiles_of_get?_none ((settled_cache_of_ne hne).trans hnone)]
  others := by
    intro u hne hkept
    have hsettled : (w.settled s v).cache.get? u = w.cache.get? u := settled_cache_of_ne hne
    rw [h.cache]
    by_cases hu : u ∈ us
    · obtain ⟨ps, hps⟩ := Option.ne_none_iff_exists'.mp (hkept hu)
      rw [if_pos (List.mem_cons_of_mem _ hu), profiles_of_get? (hsettled.trans hps), hps]
    · rw [if_neg (by simp [hne, hu]), hsettled]

theorem reach_subset {config : Config} {profiles : String → List (StoredProfile Float)}
    {version : String} {as : List String} : reach config profiles version as ⊆ as := by
  rw [reach]
  split
  · split
    · exact List.take_subset ..
    · exact List.Subset.refl as
  · exact List.nil_subset as

/-- **A check leaves in the cache what it looked up, and nothing else.** Whatever is in the cache
before and whatever the runner does: a check that fails or is skipped leaves the cache as it is;
any other one binds its version to the profiles that it compared, the visited ancestors that had
no binding to what the store holds, and keeps all other bindings. It visits no ancestor without a
profile of interest, none behind the nearest one of use where the first counts, and else all. -/
theorem inMinor_footprint (hs : s.Reliable) (hb : s.history.Built) {c : String}
    {r : Except Failure (List (Record Float))} (h : (inMinor s c).perform w = (r, w')) :
    (∀ e, s.history.version c = .error e → w'.cache = w.cache) ∧
      ∀ v, s.history.version c = .ok v → ∀ ancestors, s.history.Chain v (v :: ancestors) →
        (Skips s v w → w'.cache = w.cache) ∧
          (¬Skips s v w →
            let as := ancestors.map (·.checksum)
            r = .ok (expectedRecords s.config (seen s v w w') c as) ∧
              Footprint c (seen s v w w' c) (reach s.config (seen s v w w') c as) w w') := by
  refine ⟨fun e he => ?_, fun v hv ancestors hc => ?_⟩
  · obtain ⟨-, rfl⟩ := Prod.mk.inj ((inMinor_unknown hs he w).symm.trans h)
    rfl
  obtain rfl := hb.checksum_eq hv
  refine ⟨fun hk => ?_, fun hk => ?_⟩
  · obtain ⟨w₁, hw₁, -, hcache⟩ := inMinor_skipped hs hv hk
    obtain ⟨-, rfl⟩ := Prod.mk.inj (hw₁.symm.trans h)
    exact hcache
  · obtain ⟨x, hx, hlooked⟩ := inMinor_lookedUp hs hv hk
    obtain ⟨rfl, rfl⟩ := Prod.mk.inj (hx.symm.trans h)
    -- storing the records comes last, and touches neither the profiles nor the cache
    have hstore : ((x.asked (.store v.checksum)).recorded v.checksum
        (w.records s v)).store.profilesOf = (w.settled s v).store.profilesOf := by
      rw [← hlooked.store]
      rfl
    have hproper := hc.nodup hb hv
    rw [List.map_cons, List.nodup_cons] at hproper
    rw [hc.ancestors_eq hb hv, lookedAt_eq] at hlooked
    have hleft := footprint_of_lookedUp (fun hmem => hproper.1 (reach_subset hmem)) hlooked
    rw [← settled_seen hstore]
    refine ⟨?_, hleft.checked, hleft.loaded, hleft.others⟩
    rw [World.records, hc.ancestors_eq hb hv, recordsFor_eq]

/-- Where the first one counts, and the version between the newest and the oldest has a profile in
the cache, the check of the newest does not come to the oldest. -/
theorem inMinor_footprint_trial :
    let s := {Trial.setting with config := {Trial.setting.config with policy := .first}}
    let w := (Trial.world (.abort .cancelled)).cached "b" [Trial.timed "b" 90]
    let w' := ((inMinor s "c").perform w).2
    (s.Reliable ∧ s.history.Built ∧ s.history.version "c" = .ok Trial.newest ∧
        s.history.Chain Trial.newest [Trial.newest, Trial.middle, Trial.oldest] ∧
        ¬Skips s Trial.newest w) ∧
      Footprint "c" [Trial.timed "c" 80] ["b"] w w' ∧ w'.cache.get? "a" = none := by
  intro s w w'
  have hs : s.Reliable := rfl
  have hk : ¬Skips s Trial.newest w := by decide +kernel
  have hv : s.history.version "c" = .ok Trial.newest := rfl
  have hleft := ((inMinor_footprint hs Trial.built (w := w) (c := "c") rfl).2 Trial.newest hv _
    Trial.chain_newest).2 hk
  have hseen : seen s Trial.newest w w' "c" = [Trial.timed "c" 80] := rfl
  have hreach : reach s.config (seen s Trial.newest w w') "c" ["b", "a"] = ["b"] := by
    decide +kernel
  have hfootprint : Footprint "c" [Trial.timed "c" 80] ["b"] w w' := by
    rw [← hseen, ← hreach]
    exact hleft.2
  refine ⟨⟨hs, Trial.built, hv, Trial.chain_newest, hk⟩, hfootprint, ?_⟩
  rw [hfootprint.others "a" (by decide) (by decide)]
  rfl

end PerfDrift.Check
