import PerfDrift.Proofs.Check.Mirror
import PerfDrift.Proofs.Check.Operation
import PerfDrift.Proofs.KeyMap

/-! Checks that are made again.

A check may have profiles collected and looks profiles up, so it leaves more behind than it
found. Making it again does neither, once there is a profile of interest: it finds the profiles
of the version and of the ancestors it comes to in the cache, where it put them, and they are
the ones it went by. So it comes to the same records, and nothing moves (`inMinor_repeats`).
Without a profile of interest it is another matter, as each check has profiles collected anew. -/
namespace PerfDrift

/-- Records that are replaced by the same ones stay. -/
theorem Store.putRecords_putRecords (store : Store) (version : String) (rs : List (Record Float)) :
    (store.putRecords version rs).putRecords version rs = store.putRecords version rs := by
  simp only [putRecords, KeyMap.insert_insert]

namespace Check
open World
variable {ρ : Type} {s : Setting ρ} {w w' w₁ w₂ : World ρ}

namespace World

/-- Nothing has changed, but for requests that were made; none of them was to collect. -/
structure Unmoved (w w' : World ρ) : Prop where
  store : w'.store = w.store
  cache : w'.cache = w.cache
  runner : w'.runner = w.runner
  collections : w'.collections = w.collections

/-- Where the same is seen of all versions, looking up what is in the cache leaves it as it is. -/
theorem LookedUp.cache_eq {us : List String} (h : LookedUp us w w') (hc : w₁.cache = w'.cache)
    (hp : w₁.profiles = w.profiles) (h' : LookedUp us w₁ w₂) : w₂.cache = w₁.cache := by
  refine KeyMap.ext_get? fun u => ?_
  rw [h'.cache, hp, hc, h.cache]
  by_cases hu : u ∈ us
  · rw [if_pos hu, if_pos hu]
  · rw [if_neg hu]

end World

/-- Making a check again that was not skipped, without anything to collect any more. -/
theorem inMinor_again (hs : s.Reliable) {v : Version} (hv : s.history.version v.checksum = .ok v)
    {rs : List (Record Float)} (h : (inMinor s v.checksum).perform w = (.ok rs, w₁))
    (hk : ¬Skips s v w) (hw : ¬Wants s v w₁) :
    ∃ w₂, (inMinor s v.checksum).perform w₁ = (.ok rs, w₂) ∧ Unmoved w₁ w₂ := by
  obtain ⟨x, hx, hlooked⟩ := inMinor_lookedUp hs hv hk
  obtain ⟨rfl, hw₁⟩ : w.records s v = rs ∧
      (x.asked (.store v.checksum)).recorded v.checksum (w.records s v) = w₁ := by
    simpa using hx.symm.trans h
  -- Storing the records comes last and touches no profile, so the second check sees what the
  -- first one went by, comes to the same ancestors, and finds all of them in the cache.
  have hcache : w₁.cache = x.cache := hw₁ ▸ rfl
  have hprofiles : w₁.profiles = (w.settled s v).profiles := hw₁ ▸ funext hlooked.profiles
  have hrecords : w₁.records s v = w.records s v := by
    rw [World.records, settled_of_not_wants hw, hprofiles, World.records]
  obtain ⟨y, hy, hlooked'⟩ := inMinor_lookedUp hs hv (w := w₁) fun hk' => hw hk'.1
  rw [settled_of_not_wants hw, hprofiles] at hlooked'
  rw [hrecords] at hy
  have hkept : y.cache = w₁.cache := hlooked.cache_eq hcache hprofiles hlooked'
  refine ⟨_, hy, ?_, hkept, hlooked'.runner, ?_⟩
  · change y.store.putRecords v.checksum (w.records s v) = w₁.store
    rw [hlooked'.store, ← hw₁]
    exact Store.putRecords_putRecords ..
  · exact (hlooked'.toAlike.trans (alike_asked _ rfl)).collections

/-- **A check that is made again finds the same and moves nothing.** With a cache that is a mirror
and a runner that keeps to the version it is asked for, let a check come to an end, and let the
store hold a profile of the version then that some rule applies to, which may have been collected
for this very check. Made once more, the check gives the same records, has nothing collected, and
leaves the store with its profiles and records and the cache just as they are. -/
theorem inMinor_repeats (hs : s.Reliable) (hb : s.history.Built) (hr : s.runner.Local)
    (hm : w.Mirrored) {c : String} {rs : List (Record Float)}
    (h : (inMinor s c).perform w = (.ok rs, w₁))
    (hp : ∃ p ∈ w₁.store.profilesOf c, Matched s.config.rules p) :
    ∃ w₂, (inMinor s c).perform w₁ = (.ok rs, w₂) ∧ Unmoved w₁ w₂ := by
  cases hv : s.history.version c with
  | error e =>
    rw [inMinor_unknown hs hv w] at h
    cases h
  | ok v =>
    obtain rfl := hb.checksum_eq hv
    obtain ⟨p, hmem, hmatched⟩ := hp
    have hm₁ : w₁.Mirrored := by
      have hmirrored := inMinor_mirrored hs hb hr hm v.checksum
      rwa [h] at hmirrored
    have hk : ¬Skips s v w := by
      intro hk
      obtain ⟨w', hw', ha, -⟩ := inMinor_skipped hs hv hk
      obtain rfl : w₁ = w' := congrArg Prod.snd (h.symm.trans hw')
      rw [ha.store, collected_store_of_skips hr hk, ← mirrored_iff.mp hm] at hmem
      exact hk.1.2 p hmem hmatched
    have hw : ¬Wants s v w₁ := by
      rw [← mirrored_iff.mp hm₁] at hmem
      exact fun hw => hw.2 p hmem hmatched
    exact inMinor_again hs hv h hk hw

/-- The profile that the first check has collected is enough for the second one. -/
theorem inMinor_repeats_trial :
    let w := Trial.world (.produce [Trial.timed "b" 90])
    let first := (inMinor Trial.setting "b").perform w
    (Trial.setting.Reliable ∧ Trial.setting.history.Built ∧ Trial.setting.runner.Local ∧
        w.Mirrored) ∧
      (∃ p ∈ first.2.store.profilesOf "b", Matched Trial.setting.config.rules p) ∧
      first.2.collections = ["b"] ∧
      ∃ rs w₂, first.1 = .ok rs ∧ (inMinor Trial.setting "b").perform first.2 = (.ok rs, w₂) ∧
        Unmoved first.2 w₂ := by
  intro w first
  have hr : Trial.setting.runner.Local := Runner.scripted_adds.isLocal
  have hm : w.Mirrored := mirrored_of_empty rfl
  have hp : ∃ p ∈ first.2.store.profilesOf "b", Matched Trial.setting.config.rules p := by
    decide +kernel
  have hcollected : first.2.collections = ["b"] := by decide +kernel
  obtain ⟨rs, w₁, hw₁⟩ :=
    inMinor_known (s := Trial.setting) Trial.reliable (v := Trial.middle) rfl w
  have hfirst : first = (.ok rs, w₁) := hw₁
  refine ⟨⟨Trial.reliable, Trial.built, hr, hm⟩, hp, hcollected, rs, ?_⟩
  rw [hfirst] at hp ⊢
  obtain ⟨w₂, hw₂, hu⟩ := inMinor_repeats Trial.reliable Trial.built hr hm hfirst hp
  exact ⟨w₂, rfl, hw₂, hu⟩

end Check
end PerfDrift
