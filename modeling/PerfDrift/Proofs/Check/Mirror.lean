import PerfDrift.Proofs.Check.Minor

/-! Caches that mirror the store.

In a `Mirrored` world every entry of the cache is what the store holds of that version, so
that a check sees the store. Checks keep it that way (`inMinor_mirrored`) with a runner that
is `Local`: a collection touches the profiles of its own version only (`Confined`), and
touches none when it does not come to an end. With such a runner a check does the same in
worlds that cannot be told apart (`inMinor_alike`), however their caches differ. -/
namespace PerfDrift

/-! ### Runners -/

namespace Runner
variable {ρ : Type}

/-- A collection changes the profiles of no other version. -/
structure Confined (r : Runner ρ) : Prop where
  others : ∀ v store x u, u ≠ v.checksum →
    (r.collect v store x).2.1.profilesOf u = store.profilesOf u

/-- A collection that fails changes no profiles at all. -/
structure Local (r : Runner ρ) : Prop extends Confined r where
  aborted : ∀ v store x e, (r.collect v store x).1 = .error e →
    (r.collect v store x).2.1.profilesOf v.checksum = store.profilesOf v.checksum

/-- A collection writes no records. -/
def KeepsRecords (r : Runner ρ) : Prop :=
  ∀ v store x, (r.collect v store x).2.1.records = store.records

/-- A collection adds profiles of its version, or fails and leaves the store as it is. -/
def Adds (r : Runner ρ) : Prop :=
  ∀ v store x, (∃ ps, (r.collect v store x).1 = .ok () ∧
    (r.collect v store x).2.1 = store.addProfiles v.checksum ps) ∨
      ∃ e, (r.collect v store x).1 = .error e ∧ (r.collect v store x).2.1 = store

theorem Adds.isLocal {r : Runner ρ} (hr : r.Adds) : r.Local where
  others := by
    intro v store x u hu
    obtain ⟨ps, -, hstore⟩ | ⟨e, -, hstore⟩ := hr v store x
    · rw [hstore, store.profilesOf_addProfiles_of_ne hu]
    · rw [hstore]
  aborted := by
    intro v store x e he
    obtain ⟨ps, hok, -⟩ | ⟨e, -, hstore⟩ := hr v store x
    · rw [he] at hok
      cases hok
    · rw [hstore]

theorem Adds.keepsRecords {r : Runner ρ} (hr : r.Adds) : r.KeepsRecords := by
  intro v store x
  obtain ⟨ps, -, hstore⟩ | ⟨e, -, hstore⟩ := hr v store x
  · rw [hstore, store.records_addProfiles]
  · rw [hstore]

theorem scripted_adds : scripted.Adds := by
  intro v store script
  cases h : script.get? v.checksum with
  | none => exact .inr ⟨.failed "no script", by simp only [scripted, h, and_self]⟩
  | some o =>
    cases o with
    | produce ps => exact .inl ⟨ps, by simp only [scripted, h, and_self]⟩
    | abort e => exact .inr ⟨e, by simp only [scripted, h, and_self]⟩

end Runner

namespace Check
open World
variable {ρ : Type}

/-! ### Worlds with a mirror -/

/-- The entry of a version, if the cache has one, is what the store holds. -/
def World.Fresh (w : World ρ) (version : String) : Prop :=
  ∀ ps, w.cache.get? version = some ps → ps = w.store.profilesOf version

/-- Every entry of the cache is what the store holds. -/
def World.Mirrored (w : World ρ) : Prop :=
  ∀ v ps, w.cache.get? v = some ps → ps = w.store.profilesOf v

namespace World
variable {w w' : World ρ}

/-- An entry is fresh when a check that finds it sees the store. -/
theorem fresh_iff {v : String} : w.Fresh v ↔ w.profiles v = w.store.profilesOf v := by
  constructor
  · intro hf
    cases h : w.cache.get? v with
    | none => exact profiles_of_get?_none h
    | some ps => rw [profiles_of_get? h, hf ps h]
  · intro hp ps h
    rw [← hp, profiles_of_get? h]

/-- The cache is a mirror when nothing but the store is to be seen in it. -/
theorem mirrored_iff : w.Mirrored ↔ ∀ v, w.profiles v = w.store.profilesOf v :=
  forall_congr' fun _ => fresh_iff

theorem mirrored_of_empty (h : w.cache = .empty) : w.Mirrored := by
  intro v ps hv
  rw [h, KeyMap.get?_empty] at hv
  cases hv

theorem Alike.fresh (h : Alike w w') {v : String} : w'.Fresh v ↔ w.Fresh v := by
  rw [fresh_iff, fresh_iff, h.profiles, h.store]

theorem Alike.mirrored (h : Alike w w') (hm : w.Mirrored) : w'.Mirrored :=
  fun v => h.fresh.mpr (hm v)

theorem Mirrored.recorded (hm : w.Mirrored) (v : String) (rs : List (Record Float)) :
    (w.recorded v rs).Mirrored := hm

end World

variable {s : Setting ρ} {v : Version} {w w' : World ρ}

/-! ### Collections seen through a cache -/

/-- A collection that the store does not show is not seen. -/
theorem collected_profiles {u : String}
    (hu : (w.collected s v).store.profilesOf u = w.store.profilesOf u) :
    (w.collected s v).profiles u = w.profiles u := by
  rw [World.profiles, World.profiles, hu]
  rfl

theorem collected_store_of_skips (hr : s.runner.Local) (hk : Skips s v w) (u : String) :
    (w.collected s v).store.profilesOf u = w.store.profilesOf u := by
  obtain ⟨-, e, he⟩ := hk
  by_cases huv : u = v.checksum
  · subst huv
    exact hr.aborted v w.store w.runner e he
  · exact hr.others v w.store w.runner u huv

theorem settled_profiles_of_ne (hr : s.runner.Confined) {u : String} (hu : u ≠ v.checksum) :
    (w.settled s v).profiles u = w.profiles u := by
  rw [World.settled]
  split
  · rw [cached_profiles_of_ne hu]
    exact collected_profiles (hr.others v w.store w.runner u hu)
  · rfl

theorem settled_store_of_ne (hr : s.runner.Confined) {u : String} (hu : u ≠ v.checksum) :
    (w.settled s v).store.profilesOf u = w.store.profilesOf u := by
  rw [World.settled]
  split
  · exact hr.others v w.store w.runner u hu
  · rfl

/-! ### Mirrors under checks -/

theorem settled_mirrored (hr : s.runner.Confined) (hm : w.Mirrored) :
    (w.settled s v).Mirrored := by
  rw [mirrored_iff] at *
  intro u
  by_cases hu : u = v.checksum
  · subst hu
    rw [World.settled]
    split
    · rw [cached_profiles_self, cached_store]
    · exact hm v.checksum
  · rw [settled_profiles_of_ne hr hu, settled_store_of_ne hr hu]
    exact hm u

theorem collected_mirrored (hr : s.runner.Local) (hm : w.Mirrored) (hk : Skips s v w) :
    (w.collected s v).Mirrored := by
  intro u ps hu
  rw [collected_store_of_skips hr hk]
  exact hm u ps hu

/-- A check keeps the mirror. -/
theorem inMinor_mirrored (hs : s.Reliable) (hb : s.history.Built) (hr : s.runner.Local)
    (hm : w.Mirrored) (c : String) : ((inMinor s c).perform w).2.Mirrored := by
  refine inMinor_cases hs hb c w ?unknown ?skipped ?completed
  case unknown => exact fun _ _ => hm
  case skipped =>
    intro v w' _ _ hk ha _
    exact ha.mirrored (collected_mirrored hr hm hk)
  case completed =>
    intro v w' _ _ _ ha
    exact ha.mirrored ((settled_mirrored hr.toConfined hm).recorded _ _)

/-! ### What a check leaves alone -/

theorem collected_recordsOf (hr : s.runner.KeepsRecords) (u : String) :
    (w.collected s v).store.recordsOf u = w.store.recordsOf u := by
  have hrecords : (w.collected s v).store.records = w.store.records := hr v w.store w.runner
  rw [Store.recordsOf, Store.recordsOf, hrecords]

theorem settled_recordsOf (hr : s.runner.KeepsRecords) (u : String) :
    (w.settled s v).store.recordsOf u = w.store.recordsOf u := by
  rw [World.settled]
  split
  · exact collected_recordsOf hr u
  · rfl

/-- A check changes the profiles of no other version. -/
theorem inMinor_profilesOf_of_ne (hs : s.Reliable) (hb : s.history.Built)
    (hr : s.runner.Confined) {c u : String} (hu : u ≠ c) (w : World ρ) :
    ((inMinor s c).perform w).2.store.profilesOf u = w.store.profilesOf u := by
  refine inMinor_cases hs hb c w ?unknown ?skipped ?completed
  case unknown => exact fun _ _ => rfl
  case skipped =>
    rintro v w' rfl _ _ ha _
    rw [ha.store]
    exact hr.others v w.store w.runner u hu
  case completed =>
    rintro v w' rfl _ _ ha
    rw [ha.store]
    exact settled_store_of_ne hr hu

/-- A check changes the records of no other version. -/
theorem inMinor_recordsOf_of_ne (hs : s.Reliable) (hb : s.history.Built)
    (hr : s.runner.KeepsRecords) {c u : String} (hu : u ≠ c) (w : World ρ) :
    ((inMinor s c).perform w).2.store.recordsOf u = w.store.recordsOf u := by
  refine inMinor_cases hs hb c w ?unknown ?skipped ?completed
  case unknown => exact fun _ _ => rfl
  case skipped =>
    rintro v w' - - - ha -
    rw [ha.store]
    exact collected_recordsOf hr u
  case completed =>
    rintro v w' rfl - - ha
    rw [ha.store]
    exact (Store.recordsOf_putRecords_of_ne _ hu _).trans (settled_recordsOf hr u)

/-! ### Worlds that cannot be told apart -/

theorem wants_congr (h : Alike w w') : Wants s v w' ↔ Wants s v w := by
  rw [Wants, Wants, h.profiles]

theorem skips_congr (h : Alike w w') : Skips s v w' ↔ Skips s v w := by
  rw [Skips, Skips, wants_congr h, h.store, h.runner]

theorem World.Alike.collected_of_skips (hr : s.runner.Local) (h : Alike w w') (hk : Skips s v w) :
    Alike (w.collected s v) (w'.collected s v) := by
  have hk' := (skips_congr h).mpr hk
  refine ⟨?_, ?_, ?_, fun u => ?_⟩
  · rw [World.collected, World.collected, h.store, h.runner]
  · rw [World.collected, World.collected, h.store, h.runner]
  · rw [collected_collections, collected_collections, h.collections]
  · rw [collected_profiles (collected_store_of_skips hr hk' u),
      collected_profiles (collected_store_of_skips hr hk u), h.profiles]

theorem World.Alike.settled (hr : s.runner.Confined) (h : Alike w w') :
    Alike (w.settled s v) (w'.settled s v) := by
  by_cases hw : Wants s v w
  · have hw' := (wants_congr h).mpr hw
    have hstore : (w'.collected s v).store = (w.collected s v).store := by
      rw [World.collected, World.collected, h.store, h.runner]
    refine ⟨?_, ?_, ?_, fun u => ?_⟩
    · rw [World.settled, World.settled, if_pos hw, if_pos hw', cached_store, cached_store, hstore]
    · rw [World.settled, World.settled, if_pos hw, if_pos hw', cached_runner, cached_runner,
        World.collected, World.collected, h.store, h.runner]
    · rw [World.settled, World.settled, if_pos hw, if_pos hw', cached_collections,
        cached_collections, collected_collections, collected_collections, h.collections]
    · by_cases hu : u = v.checksum
      · subst hu
        rw [World.settled, World.settled, if_pos hw, if_pos hw', cached_profiles_self,
          cached_profiles_self, hstore]
      · rw [settled_profiles_of_ne hr hu, settled_profiles_of_ne hr hu, h.profiles]
  · rw [World.settled, World.settled, if_neg hw, if_neg fun hw' => hw ((wants_congr h).mp hw')]
    exact h

theorem records_alike (hr : s.runner.Confined) (h : Alike w w') :
    w'.records s v = w.records s v := by
  have hsettled : Alike (w.settled s v) (w'.settled s v) := h.settled hr
  rw [World.records, World.records, funext hsettled.profiles]

/-- A check gives the same in worlds that cannot be told apart. They may differ afterwards,
where a collection that does not come to an end has changed what one of them has cached. -/
theorem inMinor_result_alike (hs : s.Reliable) (hb : s.history.Built) (hr : s.runner.Confined)
    (h : Alike w w') (c : String) :
    ((inMinor s c).perform w').1 = ((inMinor s c).perform w).1 := by
  cases hv : s.history.version c with
  | error e => rw [inMinor_unknown hs hv w, inMinor_unknown hs hv w']
  | ok v =>
    obtain rfl := hb.checksum_eq hv
    by_cases hk : Skips s v w
    · obtain ⟨w₁, hw₁, -⟩ := inMinor_skipped hs hv hk
      obtain ⟨w₁', hw₁', -⟩ := inMinor_skipped hs hv ((skips_congr h).mpr hk)
      rw [hw₁, hw₁']
    · obtain ⟨w₁, hw₁, -⟩ := inMinor_completed hs hv hk
      obtain ⟨w₁', hw₁', -⟩ := inMinor_completed hs hv (mt (skips_congr h).mp hk)
      rw [hw₁, hw₁', records_alike hr h]

/-- A check does the same in worlds that cannot be told apart. -/
theorem inMinor_alike (hs : s.Reliable) (hb : s.history.Built) (hr : s.runner.Local)
    (h : Alike w w') (c : String) :
    ((inMinor s c).perform w').1 = ((inMinor s c).perform w).1 ∧
      Alike ((inMinor s c).perform w).2 ((inMinor s c).perform w').2 := by
  refine ⟨inMinor_result_alike hs hb hr.toConfined h c, ?_⟩
  cases hv : s.history.version c with
  | error e =>
    rw [inMinor_unknown hs hv w, inMinor_unknown hs hv w']
    exact h
  | ok v =>
    obtain rfl := hb.checksum_eq hv
    by_cases hk : Skips s v w
    · obtain ⟨w₁, hw₁, ha₁, -⟩ := inMinor_skipped hs hv hk
      obtain ⟨w₁', hw₁', ha₁', -⟩ := inMinor_skipped hs hv ((skips_congr h).mpr hk)
      rw [hw₁, hw₁']
      exact ha₁.symm.trans ((h.collected_of_skips hr hk).trans ha₁')
    · obtain ⟨w₁, hw₁, ha₁⟩ := inMinor_completed hs hv hk
      obtain ⟨w₁', hw₁', ha₁'⟩ := inMinor_completed hs hv (mt (skips_congr h).mp hk)
      rw [records_alike hr.toConfined h] at ha₁'
      rw [hw₁, hw₁']
      exact ha₁.symm.trans (((h.settled hr.toConfined).recorded _ _).trans ha₁')

end Check
end PerfDrift
