import PerfDrift.Proofs.Check.Replacement

/-! Checks that collect nothing commute.

Without collections a check changes nothing that another one looks at: the profiles it sees
stay as they are, so what it gives and the versions whose records it replaces are
`Determined` by them. A sequence of such checks gives what each would give by itself, and the
records it leaves depend on which checks were made, not on their order or number
(`checks_commute`). Whether the cache is a mirror makes no difference. -/
namespace PerfDrift.Check
open Check.Action World
variable {ρ α : Type} {s : Setting ρ} {v : Version} {w w' w'' : World ρ}
  {p : String → List (StoredProfile Float)} {f : String → List (Record Float)} {cs ds : List String}

/-! ### Records that are determined -/

/-- The records that a check gives a version, by the profiles it sees. -/
def recordsSeen (s : Setting ρ) (p : String → List (StoredProfile Float)) (checksum : String) :
    List (Record Float) :=
  match s.history.version checksum with
  | .ok v => recordsFor s.config p checksum (s.history.ancestors v)
  | .error _ => []

/-- What is seen of the profiles stays, and some versions come to have the records `f`. -/
structure Writes (f : String → List (Record Float)) (cs : List String) (w w' : World ρ) :
    Prop where
  profiles : w'.profiles = w.profiles
  records : Replaces (cs.map fun c => ⟨c, f c⟩) w w'

theorem Writes.refl (f : String → List (Record Float)) (w : World ρ) : Writes f [] w w :=
  ⟨rfl, .none fun _ => rfl⟩

theorem Writes.trans (h : Writes f cs w w') (h' : Writes f ds w' w'') :
    Writes f (cs ++ ds) w w'' := by
  refine ⟨h'.profiles.trans h.profiles, ?_⟩
  rw [List.map_append]
  exact h.records.trans h'.records

theorem lastRecords?_map (f : String → List (Record Float)) (cs : List String) (u : String) :
    lastRecords? u (cs.map fun c => ⟨c, f c⟩) = if u ∈ cs then some (f u) else none := by
  induction cs with
  | nil => rfl
  | cons c rest ih =>
    have hone : lastRecords? u [⟨c, f c⟩] = if u = c then some (f u) else none := by
      by_cases hu : u = c
      · subst hu
        simp [lastRecords?]
      · simp [lastRecords?, hu, Ne.symm hu]
    rw [List.map_cons, ← List.singleton_append, lastRecords?_append, ih, hone]
    by_cases hrest : u ∈ rest <;> simp [hrest]

/-- It does not matter in which order the versions are written, or how often. -/
theorem Writes.recordsOf_eq (h : Writes f cs w w') (h' : Writes f ds w w'')
    (hmem : ∀ c, c ∈ cs ↔ c ∈ ds) (u : String) :
    w'.store.recordsOf u = w''.store.recordsOf u := by
  rw [h.records u, h'.records u, lastRecords?_map, lastRecords?_map]
  simp only [hmem]

/-- In every world with these profiles the action gives `x` and writes records of `cs`. -/
def Determined (p : String → List (StoredProfile Float)) (f : String → List (Record Float))
    (a : Action ρ α) (x : Except Failure α) (cs : List String) : Prop :=
  ∀ w, w.profiles = p → (a.perform w).1 = x ∧ Writes f cs w (a.perform w).2

theorem Determined.map {β : Type} {a : Action ρ α} {x : Except Failure α}
    (h : Determined p f a x cs) (g : α → β) :
    Determined p f (a >>= fun y => pure (g y)) (x.map g) cs := by
  intro w hw
  obtain ⟨hresult, hwrites⟩ := h w hw
  rw [perform_bind_pure, hresult]
  exact ⟨rfl, hwrites⟩

/-- An action that fails and changes nothing. -/
theorem Determined.refused {a : Action ρ α} {e : Failure}
    (h : ∀ w, a.perform w = (.error e, w)) : Determined p f a (.error e) [] := by
  intro w _
  rw [h]
  exact ⟨rfl, .refl f w⟩

/-! ### Checks -/

theorem not_wants (hc : s.config.collects = false) : ¬Wants s v w := by
  rintro ⟨hcollects, -⟩
  rw [hc] at hcollects
  cases hcollects

theorem records_eq_seen (hc : s.config.collects = false)
    (hv : s.history.version v.checksum = .ok v) :
    w.records s v = recordsSeen s w.profiles v.checksum := by
  rw [World.records, settled_of_not_wants (not_wants hc), recordsSeen, hv]

/-- The version, if it is known. -/
def known (s : Setting ρ) (checksum : String) : List String :=
  match s.history.version checksum with
  | .ok _ => [checksum]
  | .error _ => []

theorem known_eq {c : String} (hv : s.history.version c = .ok v) : known s c = [c] := by
  rw [known, hv]

theorem inMinor_determined_known (hs : s.Reliable) (hc : s.config.collects = false)
    (hv : s.history.version v.checksum = .ok v) (p : String → List (StoredProfile Float)) :
    Determined p (recordsSeen s p) (inMinor s v.checksum) (.ok (recordsSeen s p v.checksum))
      [v.checksum] := by
  rintro w rfl
  obtain ⟨w', hw', ha⟩ := inMinor_completed hs hv (w := w) fun hk => not_wants hc hk.1
  rw [records_eq_seen hc hv] at hw' ha
  rw [settled_of_not_wants (not_wants hc)] at ha
  rw [hw']
  refine ⟨rfl, funext ha.profiles, .one ?_ fun u hu => ?_⟩
  · rw [ha.store]
    exact Store.recordsOf_putRecords_self ..
  · rw [ha.store]
    exact Store.recordsOf_putRecords_of_ne _ hu _

theorem inMinor_determined (hs : s.Reliable) (hb : s.history.Built)
    (hc : s.config.collects = false) (p : String → List (StoredProfile Float)) (c : String) :
    ∃ x, Determined p (recordsSeen s p) (inMinor s c) x (known s c) := by
  cases hv : s.history.version c with
  | error e =>
    rw [known, hv]
    exact ⟨_, .refused (inMinor_unknown hs hv)⟩
  | ok v =>
    obtain rfl := hb.checksum_eq hv
    rw [known_eq hv]
    exact ⟨_, inMinor_determined_known hs hc hv p⟩

theorem inEach_determined (hs : s.Reliable) (hc : s.config.collects = false) {vs : List Version}
    (hknown : ∀ v ∈ vs, s.history.version v.checksum = .ok v)
    (p : String → List (StoredProfile Float)) :
    Determined p (recordsSeen s p) (inEach s vs)
      (.ok (vs.flatMap fun v => (recordsSeen s p v.checksum).map fun r => ⟨v.checksum, r⟩))
      (vs.map (·.checksum)) := by
  induction vs with
  | nil => exact fun w _ => ⟨rfl, .refl _ w⟩
  | cons v rest ih =>
    obtain ⟨hv, hknown'⟩ := List.forall_mem_cons.mp hknown
    intro w hw
    obtain ⟨hresult, hwrites⟩ :=
      inMinor_determined_known hs hc hv p (w.asked (.visit v.checksum)) hw
    have hfirst : (inMinor s v.checksum).perform (w.asked (.visit v.checksum)) =
      (.ok (recordsSeen s p v.checksum), _) := Prod.ext hresult rfl
    obtain ⟨hresults, hwrites'⟩ := ih hknown' _ (hwrites.profiles.trans hw)
    have hvisited : Writes (recordsSeen s p) [v.checksum] w _ :=
      ⟨hwrites.profiles, hwrites.records⟩
    rw [inEach_cons_perform hfirst, hresults]
    exact ⟨rfl, hvisited.trans hwrites'⟩

theorem inHistory_determined (hs : s.Reliable) (hb : s.history.Built)
    (hc : s.config.collects = false) (p : String → List (StoredProfile Float))
    {start : String} {v : Version} (hv : s.history.version start = .ok v) {vs : List Version}
    (hchain : s.history.Chain v vs) :
    ∃ x, Determined p (recordsSeen s p) (inHistory s start) x (vs.map (·.checksum)) := by
  have hwalk := inEach_determined hs hc (hchain.version_eq hb (hb.version_self hv)) p
  exact ⟨_, fun w hw => inHistory_known hs hb hv hchain w ▸ hwalk w hw⟩

/-! ### Sequences -/

/-- The operation checks versions of the history. -/
def Operation.IsCheck : Operation → Prop
  | minor _ | history _ | head => True
  | profiles .. | forget => False

/-- The versions that an operation checks. -/
def Operation.targets (s : Setting ρ) : Operation → List String
  | minor checksum => known s checksum
  | history start =>
    match s.history.walk start with
    | .ok vs => vs.map (·.checksum)
    | .error _ => []
  | head =>
    match s.history.headVersion with
    | .ok checksum => known s checksum
    | .error _ => []
  | profiles .. | forget => []

theorem action_determined (hs : s.Reliable) (hb : s.history.Built)
    (hends : ∀ start, s.history.Ends start) (hc : s.config.collects = false)
    (p : String → List (StoredProfile Float)) {op : Operation} (hop : op.IsCheck) :
    ∃ x, Determined p (recordsSeen s p) (op.action s) x (op.targets s) := by
  cases op with
  | minor checksum =>
    obtain ⟨x, hx⟩ := inMinor_determined hs hb hc p checksum
    exact ⟨_, hx.map _⟩
  | history start =>
    rw [Operation.targets]
    cases hv : s.history.version start with
    | error e =>
      rw [History.walk_eq_error hv]
      exact ⟨_, Determined.map (.refused (inHistory_unknown hs hv)) _⟩
    | ok v =>
      obtain ⟨vs, hchain⟩ := hends start v hv
      obtain ⟨x, hx⟩ := inHistory_determined hs hb hc p hv hchain
      rw [hchain.walk_eq hb hv]
      exact ⟨_, hx.map _⟩
  | head =>
    rw [Operation.targets]
    cases hhead : s.history.headVersion with
    | error e =>
      have hrefused : ∀ w, (inHead s).perform w = (.error (.history e), w) := fun w => by
        rw [inHead, perform_bind_error (head_perform_error hs hhead w)]
      exact ⟨_, Determined.map (.refused hrefused) _⟩
    | ok checksum =>
      obtain ⟨x, hx⟩ := inMinor_determined hs hb hc p checksum
      have hhead' : Determined p (recordsSeen s p) (inHead s) x (known s checksum) := by
        intro w hw
        rw [inHead, perform_bind_ok (head_perform hs hhead w)]
        exact hx w hw
      exact ⟨_, hhead'.map _⟩
  | profiles | forget => exact hop.elim

/-- Checks that are determined by the profiles give, one after the other, what each of them
gives in any world with these profiles. -/
theorem runs_determined {w₀ : World ρ} {ops : List Operation}
    (h : ∀ op ∈ ops, ∃ x, Determined w₀.profiles f (op.action s) x (op.targets s))
    (hw : w.profiles = w₀.profiles) :
    (runs (Operation.action s) ops w).1 = (ops.map fun op => ((op.action s).perform w₀).1) ∧
      Writes f (ops.flatMap fun op => op.targets s) w (runs (Operation.action s) ops w).2 := by
  induction ops generalizing w with
  | nil => exact ⟨rfl, .refl f w⟩
  | cons op rest ih =>
    obtain ⟨⟨x, hx⟩, hrest⟩ := List.forall_mem_cons.mp h
    obtain ⟨hresult, hwrites⟩ := hx w hw
    obtain ⟨hresults, hwrites'⟩ := ih hrest (hwrites.profiles.trans hw)
    rw [runs, hresults, hresult, List.map_cons, (hx w₀ rfl).1, List.flatMap_cons]
    exact ⟨rfl, hwrites.trans hwrites'⟩

/-! ### All of it -/

/-- How checks from one world go together. -/
structure Commuting (s : Setting ρ) (w : World ρ) : Prop where
  /-- Each of a sequence of checks gives what it gives by itself, wherever in the sequence it
  stands and whatever stands before it. -/
  alone : ∀ ops : List Operation, (∀ op ∈ ops, op.IsCheck) →
    (runs (Operation.action s) ops w).1 = ops.map fun op => ((op.action s).perform w).1
  /-- The records of every version are the same, in whatever order the checks are made. -/
  reordered : ∀ ops ops' : List Operation, (∀ op ∈ ops, op.IsCheck) → ops.Perm ops' → ∀ u,
    (runs (Operation.action s) ops w).2.store.recordsOf u =
      (runs (Operation.action s) ops' w).2.store.recordsOf u
  /-- A check that is made again and again gives the same each time, and leaves the records
  that it leaves the first time. -/
  repeated : ∀ (op : Operation) (n : Nat), op.IsCheck →
    (runs (Operation.action s) (List.replicate (n + 1) op) w).1 =
      List.replicate (n + 1) ((op.action s).perform w).1 ∧ ∀ u,
        (runs (Operation.action s) (List.replicate (n + 1) op) w).2.store.recordsOf u =
          ((op.action s).perform w).2.store.recordsOf u

/-- **Checks commute when nothing is collected.** In a history whose walks end, checks of
versions, known or not, of walks and of the head give the same and leave the same records in
whatever order they are made, and however often, whatever the cache holds. -/
theorem checks_commute (hs : s.Reliable) (hb : s.history.Built)
    (hends : ∀ start, s.history.Ends start) (hc : s.config.collects = false) (w : World ρ) :
    Commuting s w := by
  have hrun : ∀ ops : List Operation, (∀ op ∈ ops, op.IsCheck) → _ := fun ops hops =>
    runs_determined (w := w) (fun op hop => action_determined hs hb hends hc _ (hops op hop)) rfl
  refine ⟨fun ops hops => (hrun ops hops).1, fun ops ops' hops hperm => ?_, fun op n hop => ?_⟩
  · have hops' : ∀ op ∈ ops', op.IsCheck := fun op hop => hops op (hperm.mem_iff.mpr hop)
    exact (hrun ops hops).2.recordsOf_eq (hrun ops' hops').2
      fun c => (hperm.flatMap_right _).mem_iff
  · have hops : ∀ op' ∈ List.replicate (n + 1) op, op'.IsCheck := by
      intro op' hmem
      rwa [List.eq_of_mem_replicate hmem]
    obtain ⟨hresults, hwrites⟩ := hrun _ hops
    obtain ⟨-, hone⟩ := hrun [op] (by simpa using hop)
    refine ⟨by rw [hresults, List.map_replicate], hwrites.recordsOf_eq hone fun c => ?_⟩
    simp [List.mem_flatMap, List.mem_replicate]

/-- The same checks in two orders, one of them made twice and one of a version that was never
committed; and a walk that is gone through three times. -/
theorem checks_commute_trial :
    let s := {Trial.setting with config := {Trial.setting.config with collects := false}}
    let w := Trial.world (.abort .cancelled)
    let ops := ["c", "d", "a", "c"].map Operation.minor
    let ops' := ["a", "c", "c", "d"].map Operation.minor
    (s.Reliable ∧ s.history.Built ∧ (∀ start, s.history.Ends start) ∧
        s.config.collects = false) ∧
      ((∀ op ∈ ops, op.IsCheck) ∧ ops.Perm ops' ∧
        (runs (Operation.action s) ops w).1 = (ops.map fun op => ((op.action s).perform w).1) ∧
        ∀ u, (runs (Operation.action s) ops w).2.store.recordsOf u =
          (runs (Operation.action s) ops' w).2.store.recordsOf u) ∧
      (runs (Operation.action s) (List.replicate 3 (.history "c")) w).1 =
        List.replicate 3 (((Operation.history "c").action s).perform w).1 := by
  intro s w ops ops'
  have hc : s.config.collects = false := rfl
  have hops : ∀ op ∈ ops, op.IsCheck := by simp [ops, Operation.IsCheck]
  have hperm : ops.Perm ops' := List.Perm.map _ (by decide +kernel)
  have h := checks_commute (s := s) Trial.reliable Trial.built Trial.ends hc w
  exact ⟨⟨Trial.reliable, Trial.built, Trial.ends, hc⟩,
    ⟨hops, hperm, h.alone ops hops, h.reordered ops ops' hops hperm⟩,
    (h.repeated (.history "c") 2 trivial).1⟩

end PerfDrift.Check
