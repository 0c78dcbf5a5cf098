import PerfDrift.Proofs.Check.Perform
import PerfDrift.Proofs.History.Walk

/-! What a check of one version does, whatever is in the cache and whatever the runner does.

A check is skipped (`Skips`) when no profile it sees is of interest, profiles are to be
collected and the collection does not come to an end. `inMinor_skipped` says what it leaves
behind then, `inMinor_completed` what it does otherwise: its result and the records it
stores are `recordsFor` what it sees after the collection, and the profiles that it looked up
for them are in the cache (`inMinor_lookedUp`). `inMinor_unknown` is the one way to fail, and
`inMinor_cases` puts the three together. -/
namespace PerfDrift.Check
open Check.Action World
variable {ρ : Type} {s : Setting ρ}

/-! ### The records a check comes to -/

/-- What a policy keeps of the ancestors that come into question, the nearest first. -/
def keep {α : Type} (policy : Policy) (xs : List α) : List α :=
  match policy with
  | .first => xs.take 1
  | .all => xs

theorem keep_map {α β : Type} (policy : Policy) (f : α → β) (xs : List α) :
    keep policy (xs.map f) = (keep policy xs).map f := by
  cases policy
  · exact List.map_take.symm
  · rfl

/-- The ancestors to compare with, given the profiles of each version. -/
def chosen (policy : Policy) (cs : List Candidate)
    (profiles : String → List (StoredProfile Float)) (ancestors : List String) : List Baseline :=
  keep policy ((ancestors.map fun a => ⟨a, profiles a⟩).filter fun b => pairable b.profiles cs)

/-- What the comparison of one candidate at one ancestor comes to. -/
def compareAt (t : Thresholds Float) (b : Baseline) (c : Candidate) : List (Record Float) :=
  match partner? b.profiles c with
  | none => []
  | some p =>
    recordsOf b.checksum c.stored.path
      (Detection.runAll t p.profile c.stored.profile c.methods)

/-- What the comparisons of all candidates at all ancestors come to. -/
def compareAll (t : Thresholds Float) (bs : List Baseline) (cs : List Candidate) :
    List (Record Float) :=
  bs.flatMap fun b => cs.flatMap fun c => compareAt t b c

/-- The records of a version, given the profiles of each version. -/
def recordsFor (config : Config) (profiles : String → List (StoredProfile Float))
    (version : String) (ancestors : List String) : List (Record Float) :=
  let cs := candidates config.rules (profiles version)
  compareAll config.thresholds (chosen config.policy cs profiles ancestors) cs

/-- The records depend on the profiles of the version and its ancestors only. -/
theorem recordsFor_congr {config : Config} {p q : String → List (StoredProfile Float)}
    {version : String} {as : List String} (hv : p version = q version)
    (has : ∀ a ∈ as, p a = q a) :
    recordsFor config p version as = recordsFor config q version as := by
  have hbs : (as.map fun a => (⟨a, p a⟩ : Baseline)) = as.map fun a => ⟨a, q a⟩ :=
    List.map_congr_left fun a ha => by rw [has a ha]
  simp only [recordsFor, chosen, hv, hbs]

/-- The ancestors that are looked at for `chosen`: none behind the first one that is enough. -/
def visited (policy : Policy) (cs : List Candidate)
    (profiles : String → List (StoredProfile Float)) : List String → List String
  | [] => []
  | a :: rest =>
    if policy = .first ∧ pairable (profiles a) cs then [a]
    else a :: visited policy cs profiles rest

/-- The ancestors that a check looks at, given the profiles of each version: those that are
visited, if any profile of the version is of interest. -/
def lookedAt (config : Config) (profiles : String → List (StoredProfile Float))
    (version : String) (ancestors : List String) : List String :=
  let cs := candidates config.rules (profiles version)
  if cs.isEmpty then [] else visited config.policy cs profiles ancestors

theorem chosen_no_candidates (policy : Policy) (profiles : String → List (StoredProfile Float))
    (as : List String) : chosen policy [] profiles as = [] := by
  have h : ∀ b : Baseline, pairable b.profiles [] = false := by simp [pairable]
  cases policy <;> simp [chosen, keep, h]

/-! ### Comparisons do not fail -/

/-- Profiles of one configuration can be compared. -/
theorem compatible_of_partner? {ps : List (StoredProfile Float)} {c : Candidate}
    {p : StoredProfile Float} (h : partner? ps c = some p) :
    p.profile.Compatible c.stored.profile := by
  have hsame : p.profile.SameConfiguration c.stored.profile := by
    simpa using List.find?_some h
  exact hsame.1

theorem attemptAt_eq (t : Thresholds Float) (b : Baseline) (c : Candidate) :
    attemptAt t b c = .ok (compareAt t b c) := by
  rw [attemptAt, compareAt]
  cases h : partner? b.profiles c with
  | none => rfl
  | some p =>
    have hok : requireCompatible p.profile c.stored.profile = .ok () :=
      if_pos (compatible_of_partner? h)
    simp only [hok]
    rfl

theorem mapM_ok {α β : Type} {f : α → Except Failure β} {g : α → β}
    (h : ∀ x, f x = .ok (g x)) (xs : List α) : xs.mapM f = .ok (xs.map g) := by
  induction xs with
  | nil => rfl
  | cons x rest ih =>
    rw [List.mapM_cons, h, ih]
    rfl

/-- Pairing sees to it that the comparisons come to an end. -/
theorem attemptAll_eq (t : Thresholds Float) (bs : List Baseline) (cs : List Candidate) :
    attemptAll t bs cs = .ok (compareAll t bs cs) := by
  have hround : ∀ b, (cs.mapM fun c => attemptAt t b c) = .ok (cs.map fun c => compareAt t b c) :=
    fun b => mapM_ok (attemptAt_eq t b) cs
  rw [attemptAll, mapM_ok hround bs, compareAll]
  simp only [List.flatMap_def, List.flatten_flatten, List.map_map, bind, Except.bind]
  rfl

/-! ### Looking for baselines -/

section Chosen
variable {policy : Policy} {cs : List Candidate}
  {profiles : String → List (StoredProfile Float)} {a : String} {as : List String}

theorem chosen_cons_of_not (h : pairable (profiles a) cs = false) :
    chosen policy cs profiles (a :: as) = chosen policy cs profiles as := by
  simp [chosen, h]

theorem chosen_first_cons (h : pairable (profiles a) cs = true) :
    chosen .first cs profiles (a :: as) = [⟨a, profiles a⟩] := by
  simp [chosen, keep, h]

theorem chosen_all_cons (h : pairable (profiles a) cs = true) :
    chosen .all cs profiles (a :: as) = ⟨a, profiles a⟩ :: chosen .all cs profiles as := by
  simp [chosen, keep, h]

theorem visited_cons_of_not (h : pairable (profiles a) cs = false) :
    visited policy cs profiles (a :: as) = a :: visited policy cs profiles as := by
  simp [visited, h]

theorem visited_first_cons (h : pairable (profiles a) cs = true) :
    visited .first cs profiles (a :: as) = [a] := by
  simp [visited, h]

theorem visited_all_cons :
    visited .all cs profiles (a :: as) = a :: visited .all cs profiles as := by
  simp [visited]

end Chosen

/-- Going through a walk finds the chosen ancestors, and looks up the visited ones. -/
theorem baselinesAmong_perform (hs : s.Reliable) (target : String) (cs : List Candidate)
    (vs : List Version) (w : World ρ) :
    let ancestors := (vs.map (·.checksum)).filter (· ≠ target)
    ∃ w', (baselinesAmong s target cs vs).perform w =
      (.ok (chosen s.config.policy cs w.profiles ancestors), w') ∧
        LookedUp (visited s.config.policy cs w.profiles ancestors) w w' := by
  induction vs generalizing w with
  | nil =>
    refine ⟨w, ?_, .none (.refl w) rfl⟩
    cases hp : s.config.policy <;> simp [baselinesAmong, chosen, keep]
  | cons v rest ih =>
    have hvisit : LookedUp [] w (w.asked (.visit v.checksum)) := .none (alike_asked w rfl) rfl
    rw [baselinesAmong, perform_bind_ok (note_perform ..), List.map_cons]
    by_cases ht : v.checksum = target
    · obtain ⟨w', hw', ha⟩ := ih (w.asked (.visit v.checksum))
      refine ⟨w', ?_, ?_⟩
      · rw [if_pos ht, hw', List.filter_cons_of_neg (by simpa using ht)]
        rfl
      · rw [List.filter_cons_of_neg (by simpa using ht)]
        exact hvisit.trans ha
    · rw [if_neg ht, List.filter_cons_of_pos (by simpa using ht)]
      obtain ⟨w₁, hw₁, ha₁⟩ :=
        ancestorProfiles_perform hs v.checksum (w.asked (.visit v.checksum))
      have ha₁ : LookedUp [v.checksum] w w₁ := hvisit.trans ha₁
      obtain ⟨w', hw', ha⟩ := ih w₁
      rw [show w₁.profiles = w.profiles from funext ha₁.profiles] at hw' ha
      rw [perform_bind_ok hw₁, asked_profiles]
      cases hpair : pairable (w.profiles v.checksum) cs with
      | false =>
        refine ⟨w', ?_, ?_⟩
        · rw [if_neg (by decide), hw', chosen_cons_of_not hpair]
        · rw [visited_cons_of_not hpair]
          exact ha₁.trans ha
      | true =>
        rw [if_pos rfl]
        cases hp : s.config.policy with
        | first =>
          refine ⟨w₁, by rw [perform_pure, chosen_first_cons hpair], ?_⟩
          rw [visited_first_cons hpair]
          exact ha₁
        | all =>
          rw [hp] at hw' ha
          refine ⟨w', ?_, ?_⟩
          · rw [perform_bind_ok hw', perform_pure, chosen_all_cons hpair]
          · rw [visited_all_cons]
            exact ha₁.trans ha

theorem baselines_perform (hs : s.Reliable) {v : Version}
    (hv : s.history.version v.checksum = .ok v) (cs : List Candidate) (w : World ρ) :
    ∃ w', (baselines s v.checksum cs).perform w =
      (.ok (chosen s.config.policy cs w.profiles (s.history.ancestors v)), w') ∧
        LookedUp (if cs.isEmpty then [] else
          visited s.config.policy cs w.profiles (s.history.ancestors v)) w w' := by
  by_cases hcs : cs = []
  · subst hcs
    refine ⟨w, ?_, .none (.refl w) rfl⟩
    simp [baselines, chosen_no_candidates]
  · have hwalk : s.history.walk v.checksum =
        .ok (s.history.walkFrom s.history.versions.size v) := by
      rw [History.walk, History.walkWithin, hv]
      rfl
    obtain ⟨w', hw', ha⟩ := baselinesAmong_perform hs v.checksum cs
      (s.history.walkFrom s.history.versions.size v) w
    have hne : cs.isEmpty = false := by simpa using hcs
    refine ⟨w', ?_, ?_⟩
    · rw [baselines, hne, if_neg (by decide), perform_bind_ok (walk_perform hs hwalk w), hw']
      rfl
    · rw [hne, if_neg (by decide)]
      exact ha

/-! ### The profiles of the version -/

/-- The check has profiles of the version collected first. -/
def Wants (s : Setting ρ) (v : Version) (w : World ρ) : Prop :=
  s.config.collects = true ∧ ∀ p ∈ w.profiles v.checksum, ¬Matched s.config.rules p

/-- The check has profiles of the version collected, and that does not come to an end. -/
def Skips (s : Setting ρ) (v : Version) (w : World ρ) : Prop :=
  Wants s v w ∧ ∃ e, (s.runner.collect v w.store w.runner).1 = .error e

instance (s : Setting ρ) (v : Version) (w : World ρ) : Decidable (Wants s v w) :=
  inferInstanceAs (Decidable (_ ∧ _))

instance (r : Except CollectionError Unit) : Decidable (∃ e, r = .error e) :=
  match r with
  | .error e => isTrue ⟨e, rfl⟩
  | .ok _ => isFalse fun ⟨_, h⟩ => nomatch h

instance (s : Setting ρ) (v : Version) (w : World ρ) : Decidable (Skips s v w) :=
  inferInstanceAs (Decidable (_ ∧ _))

/-- The world in which a version that is not skipped is compared: its profiles are
collected, if the check wants them to be. -/
def World.settled (s : Setting ρ) (v : Version) (w : World ρ) : World ρ :=
  if Wants s v w then
    (w.collected s v).cached v.checksum ((w.collected s v).store.profilesOf v.checksum)
  else w

/-- A version is compared as it is when there is nothing to collect. -/
theorem settled_of_not_wants {v : Version} {w : World ρ} (h : ¬Wants s v w) : w.settled s v = w :=
  if_neg h

theorem wants_iff {v : Version} {w : World ρ} :
    (s.config.collects && !(w.profiles v.checksum).any fun p => Matched s.config.rules p) = true ↔
      Wants s v w := by
  simp [Wants]

theorem targetProfiles_skipped (hs : s.Reliable) {v : Version} {w : World ρ}
    (hk : Skips s v w) :
    ∃ w', (targetProfiles s v).perform w = (.ok none, w') ∧ Alike (w.collected s v) w' ∧
      w'.cache = w.cache := by
  obtain ⟨hwants, e, he⟩ := hk
  obtain ⟨w₁, hw₁, ha, hc⟩ := recallOrLoad_perform hs v.checksum w
  refine ⟨w₁.collected s v, ?_, ha.collected hc s v, hc⟩
  rw [← ha.store, ← ha.runner] at he
  rw [targetProfiles, perform_bind_ok hw₁, if_pos (wants_iff.mpr hwants),
    perform_bind_ok (collect_perform s v w₁), he]
  rfl

theorem targetProfiles_completed (hs : s.Reliable) {v : Version} {w : World ρ}
    (hk : ¬Skips s v w) :
    ∃ w', (targetProfiles s v).perform w =
      (.ok (some ((w.settled s v).profiles v.checksum)), w') ∧
        LookedUp [v.checksum] (w.settled s v) w' := by
  obtain ⟨w₁, hw₁, ha, hc⟩ := recallOrLoad_perform hs v.checksum w
  by_cases hwants : Wants s v w
  · have hok : (s.runner.collect v w₁.store w₁.runner).1 = .ok () := by
      rw [ha.store, ha.runner]
      cases he : (s.runner.collect v w.store w.runner).1 with
      | ok => rfl
      | error e => exact absurd ⟨hwants, e, he⟩ hk
    have hcollected := ha.collected hc s v
    refine ⟨((w₁.collected s v).asked (.load v.checksum)).cached v.checksum
      ((w₁.collected s v).store.profilesOf v.checksum), ?_, ?_⟩
    · rw [targetProfiles, perform_bind_ok hw₁, if_pos (wants_iff.mpr hwants),
        perform_bind_ok (collect_perform s v w₁), hok]
      simp only [perform_bind_ok (loadProfiles_perform hs _ _),
        perform_bind_ok (remember_perform ..), perform_pure, World.settled, if_pos hwants,
        cached_profiles_self, hcollected.store]
    · rw [World.settled, if_pos hwants, hcollected.store]
      generalize (w.collected s v).store.profilesOf v.checksum = ps
      have hkept : ((w.collected s v).cached v.checksum ps).cache.get? v.checksum = some ps :=
        KeyMap.get?_insert_self ..
      have hcache : w₁.cache.insert v.checksum ps = w.cache.insert v.checksum ps := by rw [hc]
      exact (LookedUp.of_get? hkept).trans
        (.none ((hcollected.trans (alike_asked _ rfl)).cached _ rfl) hcache)
  · refine ⟨w₁.cached v.checksum (w.profiles v.checksum), ?_, ?_⟩
    · rw [targetProfiles, perform_bind_ok hw₁, if_neg (fun h => hwants (wants_iff.mp h)),
        perform_bind_ok (remember_perform ..), perform_pure, settled_of_not_wants hwants]
    · have hrecalled : LookedUp [] w w₁ := .none ha hc
      rw [settled_of_not_wants hwants]
      exact hrecalled.trans (.of_cached (ha.profiles _).symm)

/-! ### The check -/

theorem inMinor_unknown (hs : s.Reliable) {c : String} {e : HistoryError}
    (hv : s.history.version c = .error e) (w : World ρ) :
    (inMinor s c).perform w = (.error (.history e), w) := by
  rw [inMinor, perform_bind_error (version_perform_error hs hv w)]

/-- A check that is skipped has no records and stores none; the cache stays as it is. -/
theorem inMinor_skipped (hs : s.Reliable) {v : Version}
    (hv : s.history.version v.checksum = .ok v) {w : World ρ} (hk : Skips s v w) :
    ∃ w', (inMinor s v.checksum).perform w = (.ok [], w') ∧ Alike (w.collected s v) w' ∧
      w'.cache = w.cache := by
  obtain ⟨w', hw', ha⟩ := targetProfiles_skipped hs hk
  refine ⟨w', ?_, ha⟩
  rw [inMinor, perform_bind_ok (version_perform hs hv w), perform_bind_ok hw', perform_pure]

/-- The records of a check that is not skipped, given what it sees when it compares. -/
def World.records (s : Setting ρ) (v : Version) (w : World ρ) : List (Record Float) :=
  recordsFor s.config (w.settled s v).profiles v.checksum (s.history.ancestors v)

/-- A check that is not skipped looks profiles up, of the version and of its ancestors, and
stores its records. -/
theorem inMinor_lookedUp (hs : s.Reliable) {v : Version}
    (hv : s.history.version v.checksum = .ok v) {w : World ρ} (hk : ¬Skips s v w) :
    ∃ w', (inMinor s v.checksum).perform w =
      (.ok (w.records s v), (w'.asked (.store v.checksum)).recorded v.checksum (w.records s v)) ∧
        LookedUp (v.checksum ::
          lookedAt s.config (w.settled s v).profiles v.checksum (s.history.ancestors v))
          (w.settled s v) w' := by
  obtain ⟨w₁, hw₁, ha₁⟩ := targetProfiles_completed hs hk
  obtain ⟨w₂, hw₂, ha₂⟩ := baselines_perform hs hv
    (candidates s.config.rules ((w.settled s v).profiles v.checksum)) w₁
  have hp : w₁.profiles = (w.settled s v).profiles := funext ha₁.profiles
  rw [hp] at hw₂ ha₂
  refine ⟨w₂, ?_, ha₁.trans ha₂⟩
  rw [inMinor, perform_bind_ok (version_perform hs hv w), perform_bind_ok hw₁,
    perform_bind_ok hw₂, attemptAll_eq]
  exact perform_bind_ok (storeRecords_perform hs _ _ _) _

/-- A check that is not skipped comes to an end and stores its records. -/
theorem inMinor_completed (hs : s.Reliable) {v : Version}
    (hv : s.history.version v.checksum = .ok v) {w : World ρ} (hk : ¬Skips s v w) :
    ∃ w', (inMinor s v.checksum).perform w = (.ok (w.records s v), w') ∧
      Alike ((w.settled s v).recorded v.checksum (w.records s v)) w' := by
  obtain ⟨w₁, hw₁, ha⟩ := inMinor_lookedUp hs hv hk
  exact ⟨_, hw₁, (ha.toAlike.trans (alike_asked _ rfl)).recorded _ _⟩

/-- The check of a version that is known comes to an end, skipped or not. -/
theorem inMinor_known (hs : s.Reliable) {v : Version}
    (hv : s.history.version v.checksum = .ok v) (w : World ρ) :
    ∃ rs w', (inMinor s v.checksum).perform w = (.ok rs, w') := by
  by_cases hk : Skips s v w
  · obtain ⟨w', hw', -⟩ := inMinor_skipped hs hv hk
    exact ⟨[], w', hw'⟩
  · obtain ⟨w', hw', -⟩ := inMinor_completed hs hv hk
    exact ⟨w.records s v, w', hw'⟩

/-- All that a check can do: it fails on a version that is not known, is skipped, or comes to
an end. -/
@[elab_as_elim]
theorem inMinor_cases {motive : Except Failure (List (Record Float)) × World ρ → Prop}
    (hs : s.Reliable) (hb : s.history.Built) (c : String) (w : World ρ)
    (unknown : ∀ e, s.history.version c = .error e → motive (.error (.history e), w))
    (skipped : ∀ v w', c = v.checksum → s.history.version v.checksum = .ok v → Skips s v w →
      Alike (w.collected s v) w' → w'.cache = w.cache → motive (.ok [], w'))
    (completed : ∀ v w', c = v.checksum → s.history.version v.checksum = .ok v → ¬Skips s v w →
      Alike ((w.settled s v).recorded v.checksum (w.records s v)) w' →
        motive (.ok (w.records s v), w')) :
    motive ((inMinor s c).perform w) := by
  cases hv : s.history.version c with
  | error e =>
    rw [inMinor_unknown hs hv w]
    exact unknown e hv
  | ok v =>
    obtain rfl := hb.checksum_eq hv
    by_cases hk : Skips s v w
    · obtain ⟨w', hw', ha, hc⟩ := inMinor_skipped hs hv hk
      rw [hw']
      exact skipped v w' rfl hv hk ha hc
    · obtain ⟨w', hw', ha⟩ := inMinor_completed hs hv hk
      rw [hw']
      exact completed v w' rfl hv hk ha

/-! ### Two given profiles -/

section Given
variable {baseline target : StoredProfile Float} {selection : Selection}

theorem checkProfiles_refused {e : Failure}
    (he : compareProfiles s.config.thresholds baseline.profile target.profile selection = .error e)
    (version : String) (w : World ρ) :
    (checkProfiles s baseline target version selection).perform w = (.error e, w) := by
  rw [checkProfiles, he, perform_throw]

theorem checkProfiles_completed (hs : s.Reliable) {fs : List (Finding Float)}
    (hf : compareProfiles s.config.thresholds baseline.profile target.profile selection = .ok fs)
    (version : String) (w : World ρ) :
    let rs := recordsOf baseline.profile.origin target.path fs
    (checkProfiles s baseline target version selection).perform w =
      (.ok rs, (w.asked (.store version)).recorded version rs) := by
  intro rs
  rw [checkProfiles, hf]
  exact perform_bind_ok (storeRecords_perform hs version rs w) _

end Given

end PerfDrift.Check
