import PerfDrift.Proofs.Check.Mirror
import PerfDrift.Proofs.Check.Simulation

/-! A collection shows in its own version only.

Two walks go through one history with runners that differ in what they do for one version.
Up to that version the stores `Agree` on everything; from there on they agree on every
other version, and no other is an ancestor of what is left of the walk. So each check of
another version finds the same on both sides (`inMinor_agree`), and both walks report the
same of it (`inHistory_isolates`). -/
namespace PerfDrift

/-! ### Runners that follow a plan -/

/-- What collections come to, version by version: a failure, or a change of the profiles of
the version. -/
abbrev Plan :=
  Version → Except CollectionError (List (StoredProfile Float) → List (StoredProfile Float))

namespace Runner

/-- In some states, which it does not leave, a collection does what the plan says of its
version, and touches nothing else. -/
structure Follows {ρ : Type} (r : Runner ρ) (states : ρ → Prop) (plan : Plan) : Prop
    extends Local r where
  keepsRecords : r.KeepsRecords
  keepsState : ∀ v store x, states x → states (r.collect v store x).2.2
  result : ∀ v store x, states x → (r.collect v store x).1 = (plan v).map fun _ => ()
  profiles : ∀ v store x f, states x → plan v = .ok f →
    (r.collect v store x).2.1.profilesOf v.checksum = f (store.profilesOf v.checksum)

/-- The plan of a script. -/
def planOf (script : KeyMap Outcome) : Plan := fun v =>
  match script.get? v.checksum with
  | some (.produce ps) => .ok (· ++ ps)
  | some (.abort e) => .error e
  | none => .error (.failed "no script")

theorem scripted_follows (script : KeyMap Outcome) :
    scripted.Follows (· = script) (planOf script) where
  toLocal := scripted_adds.isLocal
  keepsRecords := scripted_adds.keepsRecords
  keepsState := by
    rintro v store x rfl
    cases h : x.get? v.checksum with
    | none => simp only [scripted, h]
    | some o => cases o <;> simp only [scripted, h]
  result := by
    rintro v store x rfl
    cases h : x.get? v.checksum with
    | none => simp only [scripted, planOf, h, Except.map]
    | some o => cases o <;> simp only [scripted, planOf, h, Except.map]
  profiles := by
    rintro v store x f rfl hf
    cases h : x.get? v.checksum with
    | none => simp [planOf, h] at hf
    | some o =>
      cases o with
      | produce ps =>
        simp only [planOf, h, Except.ok.injEq] at hf
        subst hf
        simp only [scripted, h, store.profilesOf_addProfiles_self]
      | abort e => simp [planOf, h] at hf

end Runner

namespace Check
open Check.Action World Runner
variable {ρ σ : Type}

/-! ### Runners that stay in their states -/

section States
variable {s : Setting ρ} {states : ρ → Prop} {plan : Plan} {v : Version} {w : World ρ}

theorem settled_state (hf : s.runner.Follows states plan) (h : states w.runner) :
    states (w.settled s v).runner := by
  rw [World.settled]
  split
  · exact hf.keepsState v w.store w.runner h
  · exact h

theorem inMinor_state (hs : s.Reliable) (hb : s.history.Built)
    (hf : s.runner.Follows states plan) (h : states w.runner) (c : String) :
    states ((inMinor s c).perform w).2.runner := by
  refine inMinor_cases hs hb c w ?unknown ?skipped ?completed
  case unknown => exact fun _ _ => h
  case skipped =>
    intro v w' _ _ _ ha _
    rw [ha.runner]
    exact hf.keepsState v w.store w.runner h
  case completed =>
    intro v w' _ _ _ ha
    rw [ha.runner]
    exact settled_state hf h

end States

/-! ### Worlds that agree on some versions -/

/-- The stores agree on some versions, both caches are mirrors, and both runners are in a
state in which they follow their plans. -/
structure Agree (states : ρ → Prop) (states' : σ → Prop) (near : String → Prop) (w : World ρ)
    (w' : World σ) : Prop where
  runner : states w.runner
  runner' : states' w'.runner
  profiles : ∀ u, near u → w'.store.profilesOf u = w.store.profilesOf u
  records : ∀ u, near u → w'.store.recordsOf u = w.store.recordsOf u
  left : w.Mirrored
  right : w'.Mirrored

section Agree
variable {states : ρ → Prop} {states' : σ → Prop} {near : String → Prop} {w : World ρ}
  {w' : World σ}

theorem Agree.seen (h : Agree states states' near w w') {u : String} (hu : near u) :
    w'.profiles u = w.profiles u := by
  rw [mirrored_iff.mp h.left, mirrored_iff.mp h.right, h.profiles u hu]

theorem Agree.mono {near' : String → Prop} (h : Agree states states' near w w')
    (hnear : ∀ u, near' u → near u) : Agree states states' near' w w' :=
  ⟨h.runner, h.runner', fun u hu => h.profiles u (hnear u hu),
    fun u hu => h.records u (hnear u hu), h.left, h.right⟩

theorem Agree.of_alike {w₁ : World ρ} {w₁' : World σ} (h : Agree states states' near w w')
    (ha : Alike w w₁) (ha' : Alike w' w₁') : Agree states states' near w₁ w₁' := by
  refine ⟨?_, ?_, fun u hu => ?_, fun u hu => ?_, ha.mirrored h.left, ha'.mirrored h.right⟩
  · rw [ha.runner]
    exact h.runner
  · rw [ha'.runner]
    exact h.runner'
  · rw [ha.store, ha'.store, h.profiles u hu]
  · rw [ha.store, ha'.store, h.records u hu]

theorem Agree.recorded (h : Agree states states' near w w') (v : String)
    (rs : List (Record Float)) :
    Agree states states' near (w.recorded v rs) (w'.recorded v rs) := by
  refine ⟨h.runner, h.runner', h.profiles, fun u hu => ?_, h.left, h.right⟩
  by_cases huv : u = v
  · subst huv
    exact (Store.recordsOf_putRecords_self ..).trans (Store.recordsOf_putRecords_self ..).symm
  · exact (Store.recordsOf_putRecords_of_ne _ huv _).trans
      ((h.records u hu).trans (Store.recordsOf_putRecords_of_ne _ huv _).symm)

end Agree

/-! ### Checks of versions on which the plans agree -/

section Plans
variable {s : Setting ρ} {r : Runner σ} {states : ρ → Prop} {states' : σ → Prop}
  {plan plan' : Plan} {near : String → Prop} {v : Version} {w : World ρ} {w' : World σ}

theorem wants_agree (h : Agree states states' near w w') (hv : near v.checksum) :
    Wants (s.withRunner r) v w' ↔ Wants s v w := by
  rw [Wants, Wants, h.seen hv]
  rfl

theorem skips_agree (hf : s.runner.Follows states plan) (hf' : r.Follows states' plan')
    (hp : plan' v = plan v) (h : Agree states states' near w w') (hv : near v.checksum) :
    Skips (s.withRunner r) v w' ↔ Skips s v w := by
  have hresult : (r.collect v w'.store w'.runner).1 = (s.runner.collect v w.store w.runner).1 := by
    rw [hf.result _ _ _ h.runner, hf'.result _ _ _ h.runner', hp]
  rw [Skips, Skips, wants_agree h hv, ← hresult]
  rfl

theorem collected_agree (hf : s.runner.Follows states plan) (hf' : r.Follows states' plan')
    (h : Agree states states' near w w') (hk : Skips s v w) (hk' : Skips (s.withRunner r) v w') :
    Agree states states' near (w.collected s v) (w'.collected (s.withRunner r) v) := by
  refine ⟨hf.keepsState v w.store w.runner h.runner, hf'.keepsState v w'.store w'.runner h.runner',
    fun u hu => ?_, fun u hu => ?_, collected_mirrored hf.toLocal h.left hk,
    collected_mirrored hf'.toLocal h.right hk'⟩
  · rw [collected_store_of_skips hf.toLocal hk, collected_store_of_skips hf'.toLocal hk',
      h.profiles u hu]
  · rw [collected_recordsOf hf.keepsRecords, collected_recordsOf hf'.keepsRecords,
      h.records u hu]

theorem settled_agree (hf : s.runner.Follows states plan) (hf' : r.Follows states' plan')
    (hp : plan' v = plan v) (h : Agree states states' near w w') (hv : near v.checksum)
    (hk : ¬Skips s v w) :
    Agree states states' near (w.settled s v) (w'.settled (s.withRunner r) v) := by
  refine ⟨settled_state hf h.runner, settled_state hf' h.runner', fun u hu => ?_,
    fun u hu => ?_, settled_mirrored hf.toConfined h.left, settled_mirrored hf'.toConfined h.right⟩
  · by_cases huv : u = v.checksum
    · subst huv
      by_cases hw : Wants s v w
      · have hw' := (wants_agree (r := r) h hv).mpr hw
        rw [World.settled, World.settled, if_pos hw, if_pos hw', cached_store, cached_store]
        -- the version was collected on both sides, so the plan has a change for it
        cases hplan : plan v with
        | error e => exact absurd ⟨hw, e, by rw [hf.result _ _ _ h.runner, hplan]; rfl⟩ hk
        | ok f =>
          have hleft := hf.profiles v w.store w.runner f h.runner hplan
          have hright := hf'.profiles v w'.store w'.runner f h.runner' (hp.trans hplan)
          rw [h.profiles _ hu, ← hleft] at hright
          exact hright
      · have hw' := mt (wants_agree (r := r) h hv).mp hw
        rw [World.settled, World.settled, if_neg hw, if_neg hw', h.profiles _ hu]
    · rw [settled_store_of_ne hf.toConfined huv, settled_store_of_ne hf'.toConfined huv,
        h.profiles u hu]
  · rw [settled_recordsOf hf.keepsRecords, settled_recordsOf hf'.keepsRecords, h.records u hu]

/-- A check does the same where the worlds agree on its version and the ancestors. -/
theorem inMinor_agree (hs : s.Reliable) (hf : s.runner.Follows states plan)
    (hf' : r.Follows states' plan') (hp : plan' v = plan v)
    (hv : s.history.version v.checksum = .ok v) (hnear : near v.checksum)
    (has : ∀ a ∈ s.history.ancestors v, near a) :
    Simulates (Agree states states' near) (inMinor s v.checksum)
      (inMinor (s.withRunner r) v.checksum) := by
  intro w w' h
  have hs' : (s.withRunner r).Reliable := hs
  have hv' : (s.withRunner r).history.version v.checksum = .ok v := hv
  by_cases hk : Skips s v w
  · have hk' := (skips_agree hf hf' hp h hnear).mpr hk
    obtain ⟨w₁, hw₁, ha₁, -⟩ := inMinor_skipped hs hv hk
    obtain ⟨w₁', hw₁', ha₁', -⟩ := inMinor_skipped hs' hv' hk'
    rw [hw₁, hw₁']
    exact ⟨rfl, (collected_agree hf hf' h hk hk').of_alike ha₁ ha₁'⟩
  · have hk' := mt (skips_agree hf hf' hp h hnear).mp hk
    obtain ⟨w₁, hw₁, ha₁⟩ := inMinor_completed hs hv hk
    obtain ⟨w₁', hw₁', ha₁'⟩ := inMinor_completed hs' hv' hk'
    have hsettled := settled_agree hf hf' hp h hnear hk
    have hrecords : w'.records (s.withRunner r) v = w.records s v :=
      recordsFor_congr (hsettled.seen hnear) fun a ha => hsettled.seen (has a ha)
    rw [hrecords] at hw₁' ha₁'
    rw [hw₁, hw₁']
    exact ⟨rfl, (hsettled.recorded _ _).of_alike ha₁ ha₁'⟩

theorem visit_agree (c : String) :
    Simulates (Agree states states' near) (note (ρ := ρ) (.visit c)) (note (ρ := σ) (.visit c)) :=
  fun _ _ h => ⟨rfl, h.runner, h.runner', h.profiles, h.records, h.left, h.right⟩

/-- Checks do the same where the worlds and the plans agree on their versions, and the worlds
on the ancestors. -/
theorem inEach_agree (hs : s.Reliable) (hf : s.runner.Follows states plan)
    (hf' : r.Follows states' plan') {vs : List Version}
    (hknown : ∀ u ∈ vs, s.history.version u.checksum = .ok u)
    (hvs : ∀ u ∈ vs, plan' u = plan u ∧ near u.checksum ∧ ∀ a ∈ s.history.ancestors u, near a) :
    Simulates (Agree states states' near) (inEach s vs) (inEach (s.withRunner r) vs) := by
  rw [inEach_eq, inEach_eq]
  refine inEachBy_simulates visit_agree fun u hu => ?_
  obtain ⟨hp, hnear, has⟩ := hvs u hu
  exact inMinor_agree hs hf hf' hp (hknown u hu) hnear has

/-- A check keeps what worlds agree on in other versions. -/
theorem inMinor_agree_elsewhere (hs : s.Reliable) (hb : s.history.Built)
    (hf : s.runner.Follows states plan) (hf' : r.Follows states' plan') {x : String}
    (h : Agree states states' (· ≠ x) w w') :
    Agree states states' (· ≠ x) ((inMinor s x).perform w).2
      ((inMinor (s.withRunner r) x).perform w').2 := by
  have hs' : (s.withRunner r).Reliable := hs
  have hb' : (s.withRunner r).history.Built := hb
  refine ⟨inMinor_state hs hb hf h.runner x, inMinor_state hs' hb' hf' h.runner' x,
    fun u hu => ?_, fun u hu => ?_, inMinor_mirrored hs hb hf.toLocal h.left x,
    inMinor_mirrored hs' hb' hf'.toLocal h.right x⟩
  · rw [inMinor_profilesOf_of_ne hs hb hf.toConfined hu,
      inMinor_profilesOf_of_ne hs' hb' hf'.toConfined hu, h.profiles u hu]
  · rw [inMinor_recordsOf_of_ne hs hb hf.keepsRecords hu,
      inMinor_recordsOf_of_ne hs' hb' hf'.keepsRecords hu, h.records u hu]

end Plans

/-! ### Walks -/

/-- The entries of all versions but one. -/
def entriesBut (x : String) (es : List (Entry Float)) : List (Entry Float) :=
  es.filter fun e => e.target ≠ x

theorem entriesBut_own (x : String) (rs : List (Record Float)) :
    entriesBut x (rs.map fun r => ⟨x, r⟩) = [] := by
  simp [entriesBut]

theorem map_entriesBut_append {x : String} {fs fs' : List (Entry Float)}
    {a b : Except Failure (List (Entry Float))} (hf : entriesBut x fs = entriesBut x fs')
    (h : a.map (entriesBut x) = b.map (entriesBut x)) :
    (a.map (fs ++ ·)).map (entriesBut x) = (b.map (fs' ++ ·)).map (entriesBut x) := by
  have happend : ∀ (gs : List (Entry Float)) (c : Except Failure (List (Entry Float))),
      (c.map (gs ++ ·)).map (entriesBut x) = (c.map (entriesBut x)).map (entriesBut x gs ++ ·) := by
    intro gs c
    cases c with
    | error => rfl
    | ok es => exact congrArg Except.ok (List.filter_append ..)
  rw [happend, happend, hf, h]

section Walks
variable {s : Setting ρ} {r : Runner σ} {states : ρ → Prop} {states' : σ → Prop}
  {plan plan' : Plan} {w : World ρ} {w' : World σ}

/-- From worlds that agree on everything, checks of which none is of an ancestor of a later
one report the same of every other version, and agree on those in the end. -/
theorem inEach_isolates (hs : s.Reliable) (hb : s.history.Built) (hf : s.runner.Follows states plan)
    (hf' : r.Follows states' plan') {x : String} (hsame : ∀ v, v.checksum ≠ x → plan' v = plan v)
    {vs : List Version} (hknown : ∀ u ∈ vs, s.history.version u.checksum = .ok u)
    (hvs : vs.Pairwise fun u a => a.checksum ≠ u.checksum ∧ u.checksum ∉ s.history.ancestors a)
    (h : Agree states states' (fun _ => True) w w') :
    let left := (inEach s vs).perform w
    let right := (inEach (s.withRunner r) vs).perform w'
    left.1.map (entriesBut x) = right.1.map (entriesBut x) ∧
      Agree states states' (· ≠ x) left.2 right.2 := by
  induction vs generalizing w w' with
  | nil => exact ⟨rfl, h.mono fun _ _ => trivial⟩
  | cons v rest ih =>
    have hs' : (s.withRunner r).Reliable := hs
    obtain ⟨hv, hknown'⟩ := List.forall_mem_cons.mp hknown
    have hv' : (s.withRunner r).history.version v.checksum = .ok v := hv
    obtain ⟨hlater, hrest⟩ := List.pairwise_cons.mp hvs
    have hvisit : Agree states states' (fun _ => True) (w.asked (.visit v.checksum))
        (w'.asked (.visit v.checksum)) := (visit_agree v.checksum w w' h).2
    obtain ⟨rs, w₁, hw₁⟩ := inMinor_known hs hv (w.asked (.visit v.checksum))
    obtain ⟨rs', w₁', hw₁'⟩ := inMinor_known hs' hv' (w'.asked (.visit v.checksum))
    intro left right
    rw [show left = _ from inEach_cons_perform hw₁ rest,
      show right = _ from inEach_cons_perform hw₁' rest]
    by_cases hx : v.checksum = x
    · -- the runs part here, and what is left of the walk does not look back
      subst hx
      have hother : Agree states states' (· ≠ v.checksum) (w.asked (.visit v.checksum))
          (w'.asked (.visit v.checksum)) := hvisit.mono fun _ _ => trivial
      have hagree := inMinor_agree_elsewhere hs hb hf hf' hother
      rw [hw₁, hw₁'] at hagree
      have hnear : ∀ u ∈ rest, plan' u = plan u ∧ u.checksum ≠ v.checksum ∧
          ∀ a ∈ s.history.ancestors u, a ≠ v.checksum := by
        intro u hu
        obtain ⟨hne, hmem⟩ := hlater u hu
        exact ⟨hsame u hne, hne, fun a ha he => hmem (he ▸ ha)⟩
      obtain ⟨hresult, hworld⟩ := inEach_agree hs hf hf' hknown' hnear _ _ hagree
      refine ⟨map_entriesBut_append ?_ (by rw [hresult]), hworld⟩
      rw [entriesBut_own, entriesBut_own]
    · have hcheck := inMinor_agree hs hf hf' (hsame v hx) hv trivial (fun _ _ => trivial)
      obtain ⟨hresult, hworld⟩ := hcheck _ _ hvisit
      rw [hw₁, hw₁'] at hresult hworld
      obtain ⟨hresults, hworlds⟩ := ih hknown' hrest hworld
      obtain rfl : rs = rs' := Except.ok.inj hresult
      exact ⟨map_entriesBut_append rfl hresults, hworlds⟩

/-- **A collection shows in its own version only.** Two walks from one store and one cache,
a mirror of it, with runners that keep to a plan and whose plans differ for one version at
most, report the same of all other versions and leave them the same records. -/
theorem inHistory_isolates (hs : s.Reliable) (hb : s.history.Built) {start : String}
    (hends : s.history.Ends start) (hf : s.runner.Follows states plan)
    (hf' : r.Follows states' plan') {x : String}
    (hsame : ∀ v, v.checksum ≠ x → plan' v = plan v) (hw : states w.runner)
    (hw' : states' w'.runner) (hm : w.Mirrored) (hstore : w'.store = w.store)
    (hcache : w'.cache = w.cache) :
    let left := (inHistory s start).perform w
    let right := (inHistory (s.withRunner r) start).perform w'
    left.1.map (entriesBut x) = right.1.map (entriesBut x) ∧
      ∀ u, u ≠ x → left.2.store.recordsOf u = right.2.store.recordsOf u := by
  intro left right
  have hs' : (s.withRunner r).Reliable := hs
  have hb' : (s.withRunner r).history.Built := hb
  cases hv : s.history.version start with
  | error e =>
    have hv' : (s.withRunner r).history.version start = .error e := hv
    rw [show left = _ from inHistory_unknown hs hv w,
      show right = _ from inHistory_unknown hs' hv' w', hstore]
    exact ⟨rfl, fun _ _ => rfl⟩
  | ok v =>
    have hv' : (s.withRunner r).history.version start = .ok v := hv
    obtain rfl := hb.checksum_eq hv
    obtain ⟨vs, hc⟩ := hends v hv
    have hc' : (s.withRunner r).history.Chain v vs := hc
    have hm' : w'.Mirrored := by
      intro u ps hu
      rw [hcache] at hu
      rw [hstore]
      exact hm u ps hu
    have hagree : Agree states states' (fun _ => True) w w' :=
      ⟨hw, hw', fun u _ => by rw [hstore], fun u _ => by rw [hstore], hm, hm'⟩
    obtain ⟨hentries, hworlds⟩ := inEach_isolates hs hb hf hf' hsame (hc.version_eq hb hv)
      (hc.pairwise hb hv) hagree
    rw [show left = _ from inHistory_known hs hb hv hc w,
      show right = _ from inHistory_known hs' hb' hv' hc' w']
    exact ⟨hentries, fun u hu => (hworlds.records u hu).symm⟩

/-- The version in the middle is collected, or is not; the newest and the oldest do not show
which. -/
theorem inHistory_isolates_trial :
    let script := KeyMap.empty.insert "b" (Outcome.produce [Trial.timed "b" 90])
    let script' := KeyMap.empty.insert "b" (Outcome.abort (.failed "no machine"))
    let w := Trial.world (.produce [Trial.timed "b" 90])
    let w' := Trial.world (.abort (.failed "no machine"))
    let left := (inHistory Trial.setting "c").perform w
    let right := (inHistory Trial.setting "c").perform w'
    (Trial.setting.history.Ends "c" ∧ Trial.setting.runner.Follows (· = script) (planOf script) ∧
        Trial.setting.runner.Follows (· = script') (planOf script') ∧
        (∀ v, v.checksum ≠ "b" → planOf script' v = planOf script v) ∧ w.Mirrored) ∧
      left.1.map (entriesBut "b") = right.1.map (entriesBut "b") ∧
      ∀ u, u ≠ "b" → left.2.store.recordsOf u = right.2.store.recordsOf u := by
  intro script script' w w' left right
  have hends : Trial.setting.history.Ends "c" := by
    intro v hv
    obtain rfl : Trial.newest = v := Except.ok.inj hv
    exact ⟨_, Trial.chain_newest⟩
  have hf := scripted_follows script
  have hf' := scripted_follows script'
  have hsame : ∀ v : Version, v.checksum ≠ "b" → planOf script' v = planOf script v := by
    intro v hv
    simp only [planOf, script, script', KeyMap.get?_insert_of_ne _ hv]
  have hm : w.Mirrored := mirrored_of_empty rfl
  exact ⟨⟨hends, hf, hf', hsame, hm⟩,
    inHistory_isolates (r := .scripted) Trial.reliable Trial.built hends hf hf' hsame rfl rfl hm
      rfl rfl⟩

end Walks

end Check
end PerfDrift
