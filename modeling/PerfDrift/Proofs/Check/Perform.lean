import PerfDrift.Check.Run

/-! What actions do.

`perform` is taken apart the way actions are put together, and each request of a setting
that refuses none (`Setting.Reliable`) is said to give its answer and to change the world
in its own way only. What a check sees of a version is `World.profiles`: the profiles in
the cache, and in the store if it has none. Looking profiles up keeps a world `Alike`:
the store, the runner, the collections and what any look-up finds; all it leaves behind is in
the cache (`LookedUp`). -/
namespace PerfDrift.Check
variable {ρ α β : Type}

/-! ### Actions and their parts -/

namespace Action

@[simp] theorem perform_pure (x : α) (w : World ρ) :
    (pure x : Action ρ α).perform w = (.ok x, w) := rfl

@[simp] theorem perform_throw (e : Failure) (w : World ρ) :
    (throw e : Action ρ α).perform w = (.error e, w) := rfl

theorem perform_get (w : World ρ) : (get : Action ρ (World ρ)).perform w = (.ok w, w) := rfl

/-- An action that comes to an end goes on with its result. -/
theorem perform_bind_ok {a : Action ρ α} {x : α} {w w' : World ρ}
    (h : a.perform w = (.ok x, w')) (f : α → Action ρ β) :
    (a >>= f).perform w = (f x).perform w' := by
  have hb : (a >>= f).perform w = (ExceptT.bindCont f (a.perform w).1).run (a.perform w).2 := rfl
  rw [hb, h]
  rfl

/-- An action that fails is where it all ends. -/
theorem perform_bind_error {a : Action ρ α} {e : Failure} {w w' : World ρ}
    (h : a.perform w = (.error e, w')) (f : α → Action ρ β) :
    (a >>= f).perform w = (.error e, w') := by
  have hb : (a >>= f).perform w = (ExceptT.bindCont f (a.perform w).1).run (a.perform w).2 := rfl
  rw [hb, h]
  rfl

/-- What is done with the result of an action changes the result only. -/
theorem perform_bind_pure (a : Action ρ α) (f : α → β) (w : World ρ) :
    (a >>= fun x => pure (f x)).perform w = ((a.perform w).1.map f, (a.perform w).2) := by
  rcases h : a.perform w with ⟨_ | x, w'⟩
  · rw [perform_bind_error h]
    rfl
  · rw [perform_bind_ok h, perform_pure]
    rfl

end Action
open Check.Action

/-! ### Worlds -/

/-- The version that is to be collected. -/
def Request.collected? : Request → Option String
  | .collect version => some version
  | _ => none

namespace World

/-- The world after a request. -/
def asked (w : World ρ) (r : Request) : World ρ := {w with requests := w.requests ++ [r]}

/-- The world with the profiles of a version in the cache. -/
def cached (w : World ρ) (version : String) (ps : List (StoredProfile Float)) : World ρ :=
  {w with cache := w.cache.insert version ps}

/-- The world with the records of a version replaced. -/
def recorded (w : World ρ) (version : String) (rs : List (Record Float)) : World ρ :=
  {w with store := w.store.putRecords version rs}

/-- The versions that were to be collected, in order. -/
def collections (w : World ρ) : List String := w.requests.filterMap Request.collected?

/-- The profiles that a check sees of a version: those in the cache, else those in the
store. -/
def profiles (w : World ρ) (version : String) : List (StoredProfile Float) :=
  (w.cache.get? version).getD (w.store.profilesOf version)

variable {w : World ρ} {u v : String}

@[simp] theorem asked_cache (r : Request) : (w.asked r).cache = w.cache := rfl

@[simp] theorem asked_profiles (r : Request) : (w.asked r).profiles u = w.profiles u := rfl

theorem asked_collections (r : Request) :
    (w.asked r).collections = w.collections ++ r.collected?.toList := by
  rw [collections, asked, List.filterMap_append]
  cases h : r.collected? <;> simp [h, collections]

@[simp] theorem cached_store (ps : List (StoredProfile Float)) :
    (w.cached v ps).store = w.store := rfl

@[simp] theorem cached_runner (ps : List (StoredProfile Float)) :
    (w.cached v ps).runner = w.runner := rfl

@[simp] theorem cached_collections (ps : List (StoredProfile Float)) :
    (w.cached v ps).collections = w.collections := rfl

@[simp] theorem cached_profiles_self (ps : List (StoredProfile Float)) :
    (w.cached v ps).profiles v = ps := by
  simp [profiles, cached]

theorem cached_profiles_of_ne (h : u ≠ v) (ps : List (StoredProfile Float)) :
    (w.cached v ps).profiles u = w.profiles u := by
  simp [profiles, cached, KeyMap.get?_insert_of_ne _ h]

theorem profiles_of_get? {ps : List (StoredProfile Float)} (h : w.cache.get? v = some ps) :
    w.profiles v = ps := by
  simp [profiles, h]

theorem profiles_of_get?_none (h : w.cache.get? v = none) :
    w.profiles v = w.store.profilesOf v := by
  simp [profiles, h]

/-- Two worlds that a check cannot tell apart. -/
structure Alike (w w' : World ρ) : Prop where
  store : w'.store = w.store
  runner : w'.runner = w.runner
  collections : w'.collections = w.collections
  profiles : ∀ u, w'.profiles u = w.profiles u

theorem Alike.refl (w : World ρ) : Alike w w := ⟨rfl, rfl, rfl, fun _ => rfl⟩

theorem Alike.symm {w w' : World ρ} (h : Alike w w') : Alike w' w :=
  ⟨h.store.symm, h.runner.symm, h.collections.symm, fun u => (h.profiles u).symm⟩

theorem Alike.trans {w₁ w₂ w₃ : World ρ} (h : Alike w₁ w₂) (h' : Alike w₂ w₃) : Alike w₁ w₃ :=
  ⟨h'.store.trans h.store, h'.runner.trans h.runner, h'.collections.trans h.collections,
    fun u => (h'.profiles u).trans (h.profiles u)⟩

/-- A request that collects nothing cannot be told. -/
theorem alike_asked (w : World ρ) {r : Request} (h : r.collected? = none) : Alike w (w.asked r) :=
  ⟨rfl, rfl, by simp [asked_collections, h], fun _ => rfl⟩

/-- What was found may as well be kept. -/
theorem alike_cached {ps : List (StoredProfile Float)} (h : ps = w.profiles v) :
    Alike w (w.cached v ps) := by
  refine ⟨rfl, rfl, rfl, fun u => ?_⟩
  by_cases hu : u = v
  · subst hu
    rw [cached_profiles_self, h]
  · exact cached_profiles_of_ne hu ps

theorem Alike.cached {w w' : World ρ} (h : Alike w w') (v : String)
    {ps ps' : List (StoredProfile Float)} (hps : ps' = ps) :
    Alike (w.cached v ps) (w'.cached v ps') := by
  subst hps
  refine ⟨h.store, h.runner, h.collections, fun u => ?_⟩
  by_cases hu : u = v
  · subst hu
    rw [cached_profiles_self, cached_profiles_self]
  · rw [cached_profiles_of_ne hu, cached_profiles_of_ne hu]
    exact h.profiles u

theorem Alike.recorded {w w' : World ρ} (h : Alike w w') (v : String)
    (rs : List (Record Float)) : Alike (w.recorded v rs) (w'.recorded v rs) :=
  ⟨congrArg (·.putRecords v rs) h.store, h.runner, h.collections, h.profiles⟩

/-- The world after the profiles of some versions were looked up, which are in the cache since. -/
structure LookedUp (versions : List String) (w w' : World ρ) : Prop extends Alike w w' where
  cache : ∀ u, w'.cache.get? u = if u ∈ versions then some (w.profiles u) else w.cache.get? u

namespace LookedUp
variable {w' w'' : World ρ} {us us' : List String}

theorem none (h : Alike w w') (hc : w'.cache = w.cache) : LookedUp [] w w' where
  toAlike := h
  cache u := by rw [hc, if_neg List.not_mem_nil]

theorem of_get? {ps : List (StoredProfile Float)} (h : w.cache.get? v = some ps) :
    LookedUp [v] w w where
  toAlike := .refl w
  cache u := by
    by_cases hu : u = v
    · subst hu
      simp [h, profiles_of_get? h]
    · simp [hu]

theorem of_cached {ps : List (StoredProfile Float)} (h : ps = w.profiles v) :
    LookedUp [v] w (w.cached v ps) where
  toAlike := alike_cached h
  cache u := by
    by_cases hu : u = v
    · subst hu
      simp [World.cached, h]
    · simp [World.cached, KeyMap.get?_insert_of_ne _ hu, hu]

theorem trans (h : LookedUp us w w') (h' : LookedUp us' w' w'') :
    LookedUp (us ++ us') w w'' where
  toAlike := h.toAlike.trans h'.toAlike
  cache u := by
    rw [h'.cache, h.profiles, h.cache]
    by_cases hu : u ∈ us' <;> simp [hu]

end LookedUp

end World
open World

/-! ### Requests that are never refused -/

/-- No request is refused. -/
def Setting.Reliable (s : Setting ρ) : Prop := s.faults = .none

theorem note_perform (r : Request) (w : World ρ) : (note r).perform w = (.ok (), w.asked r) := rfl

theorem remember_perform (version : String) (ps : List (StoredProfile Float)) (w : World ρ) :
    (remember version ps).perform w = (.ok (), w.cached version ps) := rfl

theorem forget_perform (w : World ρ) :
    (forget : Action ρ Unit).perform w = (.ok (), {w with cache := .empty}) := rfl

variable {s : Setting ρ}

theorem version_perform (hs : s.Reliable) {c : String} {v : Version}
    (hv : s.history.version c = .ok v) (w : World ρ) : (version s c).perform w = (.ok v, w) := by
  rw [version, hs, hv]
  rfl

theorem version_perform_error (hs : s.Reliable) {c : String} {e : HistoryError}
    (hv : s.history.version c = .error e) (w : World ρ) :
    (version s c).perform w = (.error (.history e), w) := by
  rw [version, hs, hv]
  rfl

theorem head_perform (hs : s.Reliable) {c : String} (hc : s.history.headVersion = .ok c)
    (w : World ρ) : (head s).perform w = (.ok c, w) := by
  rw [head, hs, hc]
  rfl

theorem head_perform_error (hs : s.Reliable) {e : HistoryError}
    (hc : s.history.headVersion = .error e) (w : World ρ) :
    (head s).perform w = (.error (.history e), w) := by
  rw [head, hs, hc]
  rfl

theorem walk_perform (hs : s.Reliable) {c : String} {vs : List Version}
    (hv : s.history.walk c = .ok vs) (w : World ρ) : (walk s c).perform w = (.ok vs, w) := by
  rw [History.walk] at hv
  rw [walk, walkWithin, hs, hv]
  rfl

theorem walk_perform_error (hs : s.Reliable) {c : String} {e : HistoryError}
    (hv : s.history.walk c = .error e) (w : World ρ) :
    (walk s c).perform w = (.error (.history e), w) := by
  rw [History.walk] at hv
  rw [walk, walkWithin, hs, hv]
  rfl

theorem loadProfiles_perform (hs : s.Reliable) (v : String) (w : World ρ) :
    (loadProfiles s v).perform w = (.ok (w.store.profilesOf v), w.asked (.load v)) := by
  rw [loadProfiles, hs]
  rfl

theorem loadRecords_perform (hs : s.Reliable) (v : String) (w : World ρ) :
    (loadRecords s v).perform w = (.ok (w.store.recordsOf v), w) := by
  rw [loadRecords, hs]
  rfl

theorem storeRecords_perform (hs : s.Reliable) (v : String) (rs : List (Record Float))
    (w : World ρ) :
    (storeRecords s v rs).perform w = (.ok (), (w.asked (.store v)).recorded v rs) := by
  rw [storeRecords, hs]
  rfl

theorem recallOrLoad_perform (hs : s.Reliable) (v : String) (w : World ρ) :
    ∃ w', (recallOrLoad s v).perform w = (.ok (w.profiles v), w') ∧ Alike w w' ∧
      w'.cache = w.cache := by
  cases h : w.cache.get? v with
  | some ps =>
    refine ⟨w, ?_, .refl w, rfl⟩
    have hb : (recallOrLoad s v).perform w = (pure ps : Action ρ _).perform w := by
      rw [recallOrLoad, perform_bind_ok (perform_get w), h]
    rw [hb, perform_pure, profiles_of_get? h]
  | none =>
    refine ⟨w.asked (.load v), ?_, alike_asked w rfl, rfl⟩
    have hb : (recallOrLoad s v).perform w = (loadProfiles s v).perform w := by
      rw [recallOrLoad, perform_bind_ok (perform_get w), h]
    rw [hb, loadProfiles_perform hs, profiles_of_get?_none h]

/-- What a collection of a version leaves behind. -/
def World.collected (s : Setting ρ) (v : Version) (w : World ρ) : World ρ :=
  {w.asked (.collect v.checksum) with
    store := (s.runner.collect v w.store w.runner).2.1
    runner := (s.runner.collect v w.store w.runner).2.2}

/-- Worlds with one cache that cannot be told apart still cannot after a collection. -/
theorem World.Alike.collected {w w' : World ρ} (h : Alike w w') (hc : w'.cache = w.cache)
    (s : Setting ρ) (v : Version) : Alike (w.collected s v) (w'.collected s v) := by
  refine ⟨?_, ?_, ?_, fun u => ?_⟩
  · simp only [World.collected, h.store, h.runner]
  · simp only [World.collected, h.store, h.runner]
  · have hcollections := h.collections
    simp only [World.collections, World.collected, asked, List.filterMap_append] at *
    rw [hcollections]
  · simp only [World.profiles, World.collected, asked_cache, h.store, h.runner, hc]

theorem World.collected_collections (s : Setting ρ) (v : Version) (w : World ρ) :
    (w.collected s v).collections = w.collections ++ [v.checksum] :=
  asked_collections (.collect v.checksum)

theorem collect_perform (s : Setting ρ) (v : Version) (w : World ρ) :
    (collect s v).perform w =
      (.ok (s.runner.collect v w.store w.runner).1, w.collected s v) := rfl

theorem ancestorProfiles_perform (hs : s.Reliable) (v : String) (w : World ρ) :
    ∃ w', (ancestorProfiles s v).perform w = (.ok (w.profiles v), w') ∧ LookedUp [v] w w' := by
  cases h : w.cache.get? v with
  | some ps =>
    refine ⟨w, ?_, .of_get? h⟩
    have hb : (ancestorProfiles s v).perform w = (pure ps : Action ρ _).perform w := by
      rw [ancestorProfiles, perform_bind_ok (perform_get w), h]
    rw [hb, perform_pure, profiles_of_get? h]
  | none =>
    have hp := profiles_of_get?_none h
    have hloaded : LookedUp [] w (w.asked (.load v)) := .none (alike_asked w rfl) rfl
    refine ⟨(w.asked (.load v)).cached v (w.store.profilesOf v), ?_,
      hloaded.trans (.of_cached hp.symm)⟩
    rw [ancestorProfiles, perform_bind_ok (perform_get w), h,
      perform_bind_ok (loadProfiles_perform hs v w), perform_bind_ok (remember_perform ..),
      perform_pure, hp]

end PerfDrift.Check
