import PerfDrift.Proofs.Check.Mirror
import PerfDrift.Proofs.Check.Operation

/-! The records a check should have.

`expectedRecords` says it from the stored profiles, the rules and the ancestors alone: for
every selected ancestor, for every profile of the version that a rule applies to, the
findings of the methods that those rules name, on the first profile of the same
configuration. A check that is not skipped comes to exactly these (`inMinor_expected`). -/
namespace PerfDrift.Check
open World

/-! ### From the stored profiles -/

section Expected
variable (config : Config) (stored : String → List (StoredProfile Float)) (version : String)

/-- Some rule applies to the profile. -/
def Ruled (rules : List Rule) (p : StoredProfile Float) : Prop := ∃ r ∈ rules, r.Applies p.profile

instance (rules : List Rule) (p : StoredProfile Float) : Decidable (Ruled rules p) :=
  inferInstanceAs (Decidable (∃ r ∈ rules, r.Applies p.profile))

/-- The methods that are named by the rules that apply to a profile, each once. -/
def namedMethods (rules : List Rule) (p : StoredProfile Float) : List Method :=
  Method.all.filter fun m => ∃ r ∈ rules, r.Applies p.profile ∧ r.method = m

/-- The ancestor has a profile of the same configuration as a profile of the version that
some rule applies to. -/
def Carries (ancestor : String) : Prop :=
  ∃ b ∈ stored ancestor, ∃ p ∈ stored version,
    Ruled config.rules p ∧ b.profile.SameConfiguration p.profile

instance (ancestor : String) : Decidable (Carries config stored version ancestor) :=
  inferInstanceAs (Decidable (∃ b ∈ stored ancestor, ∃ p ∈ stored version, _))

/-- The records of a profile of the version at an ancestor: of the first profile there of
the same configuration, and none without one. -/
def expectedAt (ancestor : String) (p : StoredProfile Float) : List (Record Float) :=
  match (stored ancestor).find? fun b => b.profile.SameConfiguration p.profile with
  | none => []
  | some b =>
    (Detection.runAll config.thresholds b.profile p.profile (namedMethods config.rules p)).map
      fun f => {finding := f, baseline := ancestor, profile := p.path}

/-- The records of the version, given its ancestors, the nearest first. -/
def expectedRecords (ancestors : List String) : List (Record Float) :=
  (keep config.policy (ancestors.filter fun a => Carries config stored version a)).flatMap fun a =>
    ((stored version).filter fun p => Ruled config.rules p).flatMap fun p =>
      expectedAt config stored a p

end Expected

/-! ### What a check finds -/

theorem matched_iff {rules : List Rule} {p : StoredProfile Float} :
    Matched rules p ↔ Ruled rules p := by
  simp [Matched, Ruled, Rule.applicable]

theorem methodsFor_eq (rules : List Rule) (p : StoredProfile Float) :
    Rule.methodsFor rules p.profile = namedMethods rules p := by
  rw [Rule.methodsFor, Method.select_eq_filter, namedMethods]
  apply List.filter_congr
  intro m _
  simp [Rule.applicable, and_assoc]

theorem candidates_eq (rules : List Rule) (ps : List (StoredProfile Float)) :
    candidates rules ps =
      (ps.filter fun p => Ruled rules p).map fun p => ⟨p, namedMethods rules p⟩ := by
  simp only [candidates, matched_iff, methodsFor_eq]

variable {config : Config} {stored : String → List (StoredProfile Float)} {version : String}

theorem pairable_iff {a : String} :
    pairable (stored a) (candidates config.rules (stored version)) = true ↔
      Carries config stored version a := by
  simp only [candidates_eq, pairable, Carries, List.any_eq_true, List.mem_map, List.mem_filter,
    decide_eq_true_eq]
  constructor
  · rintro ⟨b, hb, -, ⟨p, ⟨hp, hr⟩, rfl⟩, hc⟩
    exact ⟨b, hb, p, hp, hr, hc⟩
  · rintro ⟨b, hb, p, hp, hr, hc⟩
    exact ⟨b, hb, _, ⟨p, ⟨hp, hr⟩, rfl⟩, hc⟩

theorem compareAt_eq (a : String) (p : StoredProfile Float) :
    compareAt config.thresholds ⟨a, stored a⟩ ⟨p, namedMethods config.rules p⟩ =
      expectedAt config stored a p := rfl

theorem chosen_eq (as : List String) :
    chosen config.policy (candidates config.rules (stored version)) stored as =
      (keep config.policy (as.filter fun a => Carries config stored version a)).map
        fun a => ⟨a, stored a⟩ := by
  rw [chosen, List.filter_map, keep_map]
  congr 2
  apply List.filter_congr
  intro a _
  simp [← pairable_iff]

theorem recordsFor_eq (as : List String) :
    recordsFor config stored version as = expectedRecords config stored version as := by
  rw [recordsFor, compareAll, chosen_eq, candidates_eq, List.flatMap_map, expectedRecords]
  simp only [List.flatMap_map, compareAt_eq]

/-! ### Checks -/

variable {ρ : Type} {s : Setting ρ} {v : Version} {w : World ρ}

/-- The store with which a version is compared: the one after a collection, if no stored
profile of the version is of interest and the configuration wants one then. -/
def storeFor (s : Setting ρ) (v : Version) (w : World ρ) : Store :=
  if s.config.collects = true ∧ ∀ p ∈ w.store.profilesOf v.checksum, ¬Ruled s.config.rules p then
    (s.runner.collect v w.store w.runner).2.1
  else w.store

/-- With a mirror a collection is wanted for what the store lacks. -/
theorem wants_stored (hm : w.Mirrored) : Wants s v w ↔
    s.config.collects = true ∧ ∀ p ∈ w.store.profilesOf v.checksum, ¬Ruled s.config.rules p := by
  simp only [Wants, matched_iff, mirrored_iff.mp hm]

theorem settled_store (hm : w.Mirrored) : (w.settled s v).store = storeFor s v w := by
  by_cases h : Wants s v w
  · rw [World.settled, storeFor, if_pos h, if_pos ((wants_stored hm).mp h)]
    rfl
  · rw [World.settled, storeFor, if_neg h, if_neg (mt (wants_stored hm).mpr h)]

/-- What a check compares with is what is stored then. -/
theorem settled_profiles (hr : s.runner.Confined) (hm : w.Mirrored) :
    (w.settled s v).profiles = (storeFor s v w).profilesOf := by
  funext u
  rw [mirrored_iff.mp (settled_mirrored hr hm) u, settled_store hm]

theorem records_expected (hb : s.history.Built) (hr : s.runner.Confined)
    (hv : s.history.version v.checksum = .ok v) {ancestors : List Version}
    (hc : s.history.Chain v (v :: ancestors)) (hm : w.Mirrored) :
    w.records s v = expectedRecords s.config (storeFor s v w).profilesOf v.checksum
      (ancestors.map (·.checksum)) := by
  rw [World.records, settled_profiles hr hm, hc.ancestors_eq hb hv, recordsFor_eq]

/-- **A check comes to the records it should have.** With a cache that mirrors the store and
a runner that keeps to the version it is asked for, a check of a version whose walk ends and
that is not skipped gives the records that are expected of the profiles stored when it is
compared. -/
theorem inMinor_expected (hs : s.Reliable) (hb : s.history.Built) (hr : s.runner.Confined)
    {checksum : String} (hv : s.history.version checksum = .ok v) {ancestors : List Version}
    (hc : s.history.Chain v (v :: ancestors)) (hm : w.Mirrored) (hk : ¬Skips s v w) :
    ((inMinor s checksum).perform w).1 =
      .ok (expectedRecords s.config (storeFor s v w).profilesOf checksum
        (ancestors.map (·.checksum))) ∧
      ∀ u, ((inMinor s checksum).perform w).2.store.profilesOf u =
        (storeFor s v w).profilesOf u := by
  obtain rfl := hb.checksum_eq hv
  obtain ⟨w', hw', ha⟩ := inMinor_completed hs hv hk
  refine ⟨by rw [hw', records_expected hb hr hv hc hm], fun u => ?_⟩
  rw [hw', ha.store, ← settled_store hm]
  rfl

/-- A version whose profiles are collected first. -/
theorem inMinor_expected_trial :
    let w := Trial.world (.produce [Trial.timed "b" 90])
    let store := storeFor Trial.setting Trial.middle w
    (Trial.setting.Reliable ∧ Trial.setting.history.Built ∧ Trial.setting.runner.Confined ∧
        Trial.setting.history.version "b" = .ok Trial.middle ∧
        Trial.setting.history.Chain Trial.middle [Trial.middle, Trial.oldest] ∧ w.Mirrored ∧
        ¬Skips Trial.setting Trial.middle w) ∧
      store.profilesOf "b" = [Trial.timed "b" 90] ∧
      ((inMinor Trial.setting "b").perform w).1 =
        .ok (expectedRecords Trial.setting.config store.profilesOf "b" ["a"]) := by
  intro w store
  have hr : Trial.setting.runner.Confined := Runner.scripted_adds.isLocal.toConfined
  have hm : w.Mirrored := mirrored_of_empty rfl
  have hk : ¬Skips Trial.setting Trial.middle w := by decide +kernel
  have hv : Trial.setting.history.version "b" = .ok Trial.middle := rfl
  have h := inMinor_expected Trial.reliable Trial.built hr hv Trial.chain_middle hm hk
  exact ⟨⟨Trial.reliable, Trial.built, hr, hv, Trial.chain_middle, hm, hk⟩, rfl, h.1⟩

end PerfDrift.Check
