import PerfDrift.Proofs.Check.Expected

/-! The nearest baseline and all of them.

From one world a check is made under either policy. Both fail alike or are both skipped, and
otherwise what the nearest baseline gives is where the records of all baselines begin: those
of the nearest ancestor that has something to compare with, and no others, even if it gives
no record at all (`inMinor_first_refines_all`). -/
namespace PerfDrift.Check
open World
variable {ρ : Type}

/-- The setting with another policy. -/
def Setting.withPolicy (s : Setting ρ) (p : Policy) : Setting ρ :=
  {s with config := {s.config with policy := p}}

/-! ### From the stored profiles -/

section Nearest
variable (config : Config) (stored : String → List (StoredProfile Float)) (version : String)

/-- The nearest ancestor with a profile of the same configuration as a profile of the version
that some rule applies to. -/
def nearest? (ancestors : List String) : Option String :=
  ancestors.find? fun a => Carries config stored version a

/-- The records that are those of one baseline among the records of all: none others, and at
their beginning. Without a baseline there are none at all. -/
structure Refines (nearest : Option String) (first all : List (Record Float)) : Prop where
  selected : first = all.filter fun r => nearest = some r.baseline
  begins : first <+: all
  without : nearest = none → first = [] ∧ all = []

variable {config stored version}

theorem baseline_of_mem_expectedAt {a : String} {p : StoredProfile Float} {r : Record Float}
    (h : r ∈ expectedAt config stored a p) : r.baseline = a := by
  rw [expectedAt] at h
  split at h
  · cases h
  · obtain ⟨f, -, rfl⟩ := List.mem_map.mp h
    rfl

/-- Where every record names the baseline that it comes from, the records of the first one of
several baselines are known by its name. -/
theorem refines_flatMap {bs : List String} (hn : bs.Nodup) {records : String → List (Record Float)}
    (hr : ∀ b, ∀ r ∈ records b, r.baseline = b) :
    Refines bs.head? ((bs.take 1).flatMap records) (bs.flatMap records) := by
  cases bs with
  | nil => exact ⟨rfl, List.prefix_refl _, fun _ => ⟨rfl, rfl⟩⟩
  | cons b rest =>
    have hfirst : ([b] : List String).flatMap records = records b := by simp
    rw [List.take_succ_cons, List.take_zero, hfirst, List.flatMap_cons, List.head?_cons]
    refine ⟨?_, List.prefix_append _ _, fun h => by cases h⟩
    have hown : ∀ r ∈ records b, some b = some r.baseline := fun r hmem => by rw [hr b r hmem]
    have hothers : ∀ r ∈ rest.flatMap records, ¬some b = some r.baseline := by
      intro r hmem he
      obtain ⟨b', hb', hr'⟩ := List.mem_flatMap.mp hmem
      rw [Option.some.injEq, hr b' r hr'] at he
      exact (List.nodup_cons.mp hn).1 (he ▸ hb')
    rw [List.filter_append, List.filter_eq_self.mpr (by simpa using hown),
      List.filter_eq_nil_iff.mpr (by simpa using hothers), List.append_nil]

/-- The records expected of the nearest baseline refine those expected of all. -/
theorem expectedRecords_refines {as : List String} (hn : as.Nodup) :
    Refines (nearest? config stored version as)
      (expectedRecords {config with policy := .first} stored version as)
      (expectedRecords {config with policy := .all} stored version as) := by
  rw [nearest?, ← List.head?_filter]
  refine refines_flatMap (hn.filter _) fun a r hr => ?_
  obtain ⟨p, -, hp⟩ := List.mem_flatMap.mp hr
  exact baseline_of_mem_expectedAt hp

end Nearest

/-! ### Checks -/

section Policies
variable {s : Setting ρ} {v : Version} {w : World ρ} (p : Policy)

/-- A check is skipped under one policy when it is skipped under the other. -/
theorem inMinor_skipped_withPolicy (hs : s.Reliable)
    (hv : s.history.version v.checksum = .ok v) (hk : Skips s v w) :
    Skips (s.withPolicy p) v w ∧ ((inMinor (s.withPolicy p) v.checksum).perform w).1 = .ok [] := by
  have hk' : Skips (s.withPolicy p) v w := hk
  have hs' : (s.withPolicy p).Reliable := hs
  obtain ⟨w', hw', -⟩ := inMinor_skipped hs' hv hk'
  exact ⟨hk', by rw [hw']⟩

/-- The policy has a say only in which of the ancestors are selected. -/
theorem inMinor_completed_withPolicy (hs : s.Reliable) (hb : s.history.Built)
    (hr : s.runner.Confined) (hv : s.history.version v.checksum = .ok v) {ancestors : List Version}
    (hc : s.history.Chain v (v :: ancestors)) (hm : w.Mirrored) (hk : ¬Skips s v w) :
    ¬Skips (s.withPolicy p) v w ∧ ((inMinor (s.withPolicy p) v.checksum).perform w).1 =
      .ok (expectedRecords {s.config with policy := p} (storeFor s v w).profilesOf v.checksum
        (ancestors.map (·.checksum))) := by
  have hk' : ¬Skips (s.withPolicy p) v w := hk
  have hs' : (s.withPolicy p).Reliable := hs
  have hrecords := records_expected (s := s.withPolicy p) hb hr hv hc hm
  obtain ⟨w', hw', -⟩ := inMinor_completed hs' hv hk'
  rw [hrecords] at hw'
  exact ⟨hk', congrArg Prod.fst hw'⟩

end Policies

/-- **The nearest baseline refines all of them.** Under both policies a check from one world,
whose cache is a mirror, fails with one and the same error, is skipped, or comes to an end.
Then the records of the nearest baseline are those among the records of all that name the
nearest ancestor carrying a profile of a configuration to be compared, they stand at the
beginning, and without such an ancestor there are no records either way. -/
theorem inMinor_first_refines_all {s : Setting ρ} {w : World ρ} (hs : s.Reliable)
    (hb : s.history.Built) (hr : s.runner.Confined) {c : String} (hends : s.history.Ends c)
    (hm : w.Mirrored) :
    let first := ((inMinor (s.withPolicy .first) c).perform w).1
    let all := ((inMinor (s.withPolicy .all) c).perform w).1
    (∃ e, first = .error e ∧ all = .error e) ∨
      ∃ v, s.history.version c = .ok v ∧
        ((Skips (s.withPolicy .first) v w ∧ Skips (s.withPolicy .all) v w ∧
            first = .ok [] ∧ all = .ok []) ∨
          ∃ ancestors rs rs', ¬Skips (s.withPolicy .first) v w ∧ ¬Skips (s.withPolicy .all) v w ∧
            s.history.Chain v (v :: ancestors) ∧ first = .ok rs ∧ all = .ok rs' ∧
            Refines (nearest? s.config (storeFor s v w).profilesOf c
              (ancestors.map (·.checksum))) rs rs') := by
  intro first all
  have hs' : ∀ p, (s.withPolicy p).Reliable := fun _ => hs
  cases hv : s.history.version c with
  | error e =>
    exact .inl ⟨.history e, congrArg Prod.fst (inMinor_unknown (hs' .first) hv w),
      congrArg Prod.fst (inMinor_unknown (hs' .all) hv w)⟩
  | ok v =>
    obtain rfl := hb.checksum_eq hv
    refine .inr ⟨v, rfl, ?_⟩
    by_cases hk : Skips s v w
    · obtain ⟨hk₁, hfirst⟩ := inMinor_skipped_withPolicy .first hs hv hk
      obtain ⟨hk₂, hall⟩ := inMinor_skipped_withPolicy .all hs hv hk
      exact .inl ⟨hk₁, hk₂, hfirst, hall⟩
    · obtain ⟨vs, hc⟩ := hends v hv
      obtain ⟨ancestors, rfl⟩ := hc.eq_cons
      have hn := hc.nodup hb hv
      rw [List.map_cons, List.nodup_cons] at hn
      obtain ⟨hk₁, hfirst⟩ := inMinor_completed_withPolicy .first hs hb hr hv hc hm hk
      obtain ⟨hk₂, hall⟩ := inMinor_completed_withPolicy .all hs hb hr hv hc hm hk
      exact .inr ⟨ancestors, _, _, hk₁, hk₂, hc, hfirst, hall, expectedRecords_refines hn.2⟩

/-- Both ancestors have something to compare with, and the nearer one is kept. -/
theorem inMinor_first_refines_all_trial :
    let empty := Trial.world (.abort .cancelled)
    let w := {empty with store := empty.store.addProfile "b" (Trial.timed "b" 90)}
    (Trial.setting.Reliable ∧ Trial.setting.history.Built ∧ Trial.setting.runner.Confined ∧
        Trial.setting.history.Ends "c" ∧ w.Mirrored) ∧
      ∃ rs rs',
        ((inMinor (Trial.setting.withPolicy .first) "c").perform w).1 = .ok rs ∧
        ((inMinor (Trial.setting.withPolicy .all) "c").perform w).1 = .ok rs' ∧
        Refines (some "b") rs rs' := by
  intro empty w
  have hr : Trial.setting.runner.Confined := Runner.scripted_adds.isLocal.toConfined
  have hm : w.Mirrored := mirrored_of_empty rfl
  have hv : Trial.setting.history.version "c" = .ok Trial.newest := rfl
  have hk : ¬Skips (Trial.setting.withPolicy .first) Trial.newest w := by decide +kernel
  have hstore : storeFor Trial.setting Trial.newest w = w.store := if_neg (by decide +kernel)
  have hnearest : nearest? Trial.setting.config w.store.profilesOf "c" ["b", "a"] = some "b" := by
    decide +kernel
  refine ⟨⟨Trial.reliable, Trial.built, hr, Trial.ends "c", hm⟩, ?_⟩
  obtain ⟨e, he, -⟩ | ⟨v, hv', hcase⟩ :=
    inMinor_first_refines_all Trial.reliable Trial.built hr (Trial.ends "c") hm
  · obtain ⟨rs, w', hw'⟩ :=
      inMinor_known (s := Trial.setting.withPolicy .first) Trial.reliable (v := Trial.newest) hv w
    rw [show ("c" : String) = Trial.newest.checksum from rfl, hw'] at he
    cases he
  · obtain rfl : Trial.newest = v := Except.ok.inj (hv.symm.trans hv')
    obtain ⟨hk', -⟩ | ⟨ancestors, rs, rs', -, -, hc, hfirst, hall, hrefines⟩ := hcase
    · exact absurd hk' hk
    · obtain rfl : [Trial.middle, Trial.oldest] = ancestors :=
        List.tail_eq_of_cons_eq (Trial.chain_newest.unique hc)
      have hnames : [Trial.middle, Trial.oldest].map (·.checksum) = ["b", "a"] := rfl
      rw [hstore, hnames, hnearest] at hrefines
      exact ⟨rs, rs', hfirst, hall, hrefines⟩

end PerfDrift.Check
