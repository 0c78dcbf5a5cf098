import PerfDrift.History

/-! Walks through a history.

A history that was made by commits keeps every version under its own checksum
(`Built.checksum_eq`), and knows those that were committed (`knows_ofCommits`).
`Chain v vs` says what a walk from `v` is, however long: `vs` begins with `v`, each version
is followed by its first parent, and the last one has none that is known. A walk that ends
repeats no version (`Chain.nodup`), so it is no longer than the history, and the walk that is
cut at the size of the history is all of it (`Chain.walk_eq`). -/
namespace PerfDrift.History

theorem version_eq_ok_iff {h : History} {c : String} {v : Version} :
    h.version c = .ok v ↔ h.versions.get? c = some v := by
  rw [version]
  cases h.versions.get? c <;> simp

/-- A version is looked for in vain only because it is not known. -/
theorem eq_unknownVersion {h : History} {c : String} {e : HistoryError}
    (he : h.version c = .error e) : e = .unknownVersion c := by
  rw [version] at he
  cases hv : h.versions.get? c with
  | none => simpa [hv] using he.symm
  | some v => simp [hv] at he

/-! ### Histories made by commits -/

/-- The history was made by commits. -/
inductive Built : History → Prop where
  | empty : Built History.empty
  | commit {h : History} (v : Version) : Built h → Built (h.commit v)

/-- A version is kept under its own checksum. -/
theorem Built.checksum_eq {h : History} (hb : h.Built) {c : String} {v : Version}
    (hv : h.version c = .ok v) : v.checksum = c := by
  rw [version_eq_ok_iff] at hv
  induction hb with
  | empty => simp [History.empty] at hv
  | @commit h u _ ih =>
    by_cases hc : c = u.checksum
    · subst hc
      simp only [History.commit, KeyMap.get?_insert_self, Option.some.injEq] at hv
      rw [hv]
    · simp only [History.commit, KeyMap.get?_insert_of_ne _ hc] at hv
      exact ih hv

theorem Built.version_self {h : History} (hb : h.Built) {c : String} {v : Version}
    (hv : h.version c = .ok v) : h.version v.checksum = .ok v := by
  rwa [hb.checksum_eq hv]

theorem Built.commitOnto {h : History} (hb : h.Built) (parents cs : List String) :
    (h.commitOnto parents cs).Built := by
  induction cs generalizing h parents with
  | nil => exact hb
  | cons c rest ih => exact ih (hb.commit _) [c]

theorem built_linear (cs : List String) : (linear cs).Built := Built.empty.commitOnto [] cs

/-- The history of versions that are committed one after the other. -/
def ofCommits (vs : List Version) : History := vs.foldl commit empty

theorem Built.foldl_commit {h : History} (hb : h.Built) (vs : List Version) :
    (vs.foldl History.commit h).Built := by
  induction vs generalizing h with
  | nil => exact hb
  | cons v rest ih => exact ih (hb.commit v)

theorem built_ofCommits (vs : List Version) : (ofCommits vs).Built := Built.empty.foldl_commit vs

/-- The version is known. -/
def Knows (h : History) (c : String) : Prop := ∃ v, h.version c = .ok v

theorem not_knows_of_error {h : History} {c : String} {e : HistoryError}
    (he : h.version c = .error e) : ¬h.Knows c := by
  rintro ⟨v, hv⟩
  rw [he] at hv
  cases hv

theorem knows_commit {h : History} {v : Version} {c : String} :
    (h.commit v).Knows c ↔ v.checksum = c ∨ h.Knows c := by
  simp only [Knows, version_eq_ok_iff, History.commit]
  by_cases hc : v.checksum = c
  · subst hc
    simp
  · simp [KeyMap.get?_insert_of_ne _ (Ne.symm hc), hc]

theorem knows_foldl_commit {h : History} {vs : List Version} {c : String} :
    (vs.foldl commit h).Knows c ↔ c ∈ vs.map (·.checksum) ∨ h.Knows c := by
  induction vs generalizing h with
  | nil => simp
  | cons v rest ih =>
    rw [List.foldl_cons, ih, knows_commit, List.map_cons, List.mem_cons, or_left_comm,
      or_assoc, @eq_comm _ c]

/-- The versions that are known are those that were committed. -/
theorem knows_ofCommits {vs : List Version} {c : String} :
    (ofCommits vs).Knows c ↔ c ∈ vs.map (·.checksum) := by
  have hempty : ¬History.empty.Knows c := by simp [Knows, version_eq_ok_iff, History.empty]
  rw [ofCommits, knows_foldl_commit, or_iff_left hempty]

/-- A first parent is found under its own checksum. -/
theorem Built.version_parent {h : History} (hb : h.Built) {v p : Version}
    (hp : h.parent? v = some p) : h.version p.checksum = .ok p := by
  obtain ⟨c, -, hc⟩ := Option.bind_eq_some_iff.mp hp
  exact hb.version_self (version_eq_ok_iff.mpr hc)

/-! ### Walks of any length -/

/-- `vs` is the walk from `v` to the end of the history. -/
inductive Chain (h : History) : Version → List Version → Prop where
  | last {v : Version} : h.parent? v = none → Chain h v [v]
  | step {v p : Version} {vs : List Version} :
    h.parent? v = some p → Chain h p vs → Chain h v (v :: vs)

/-- The walk from a version ends, if the version is known. -/
def Ends (h : History) (start : String) : Prop :=
  ∀ v, h.version start = .ok v → ∃ vs, h.Chain v vs

variable {h : History}

theorem Chain.unique {v : Version} {us vs : List Version} (hu : h.Chain v us)
    (hv : h.Chain v vs) : us = vs := by
  induction hu generalizing vs with
  | last hn =>
    cases hv with
    | last => rfl
    | step hp => simp [hn] at hp
  | step hp _ ih =>
    cases hv with
    | last hn => simp [hn] at hp
    | step hp' hv' =>
      rw [hp, Option.some.injEq] at hp'
      subst hp'
      rw [ih hv']

/-- A walk begins with the version it is taken from. -/
theorem Chain.eq_cons {v : Version} {vs : List Version} (hc : h.Chain v vs) :
    ∃ ancestors, vs = v :: ancestors := by
  cases hc with
  | last => exact ⟨[], rfl⟩
  | step => exact ⟨_, rfl⟩

/-- What follows a version of a walk is the walk from there. -/
theorem Chain.of_mem {v u : Version} {vs : List Version} (hc : h.Chain v vs) (hu : u ∈ vs) :
    ∃ us, h.Chain u us ∧ us <:+ vs := by
  induction hc with
  | last hn =>
    obtain rfl : u = _ := by simpa using hu
    exact ⟨_, .last hn, List.suffix_refl _⟩
  | step hp hc ih =>
    rcases List.mem_cons.mp hu with rfl | hu
    · exact ⟨_, .step hp hc, List.suffix_refl _⟩
    · obtain ⟨us, hus, hs⟩ := ih hu
      exact ⟨us, hus, hs.trans (List.suffix_cons _ _)⟩

theorem Chain.version_eq (hb : h.Built) {v : Version} {vs : List Version} (hc : h.Chain v vs)
    (hv : h.version v.checksum = .ok v) : ∀ u ∈ vs, h.version u.checksum = .ok u := by
  induction hc with
  | last => simpa using hv
  | step hp _ ih =>
    intro u hu
    rcases List.mem_cons.mp hu with rfl | hu
    · exact hv
    · exact ih (hb.version_parent hp) u hu

/-- A walk that ends comes to no version twice: coming back it would go round for ever. -/
theorem Chain.nodup (hb : h.Built) {v : Version} {vs : List Version} (hc : h.Chain v vs)
    (hv : h.version v.checksum = .ok v) : (vs.map (·.checksum)).Nodup := by
  induction hc with
  | last => simp
  | @step v p vs hp hc ih =>
    have hp' := hb.version_parent hp
    refine List.nodup_cons.mpr ⟨fun hmem => ?_, ih hp'⟩
    obtain ⟨u, hu, he⟩ := List.mem_map.mp hmem
    have huv : u = v := by
      have hu' := hc.version_eq hb hp' u hu
      rw [he, hv] at hu'
      exact (Except.ok.inj hu').symm
    obtain ⟨us, hus, hs⟩ := hc.of_mem (huv ▸ hu)
    have hlen := hs.length_le
    rw [hus.unique (.step hp hc), List.length_cons] at hlen
    omega

theorem Chain.length_le (hb : h.Built) {v : Version} {vs : List Version} (hc : h.Chain v vs)
    (hv : h.version v.checksum = .ok v) : vs.length ≤ h.versions.size := by
  have hsub : vs.map (·.checksum) ⊆ h.versions.keys := by
    intro c hmem
    obtain ⟨u, hu, rfl⟩ := List.mem_map.mp hmem
    exact KeyMap.mem_keys_of_get? (version_eq_ok_iff.mp (hc.version_eq hb hv u hu))
  simpa [KeyMap.keys, KeyMap.size] using (hc.nodup hb hv).length_le_of_subset hsub

/-! ### Walks that are cut -/

/-- Going some steps along a walk that ends gives as much of it. -/
theorem Chain.walkFrom_eq_take {v : Version} {vs : List Version} (hc : h.Chain v vs) (n : Nat) :
    h.walkFrom n v = vs.take n := by
  induction hc generalizing n with
  | last hp =>
    cases n with
    | zero => rfl
    | succ n => simp [walkFrom, hp]
  | step hp _ ih =>
    cases n with
    | zero => rfl
    | succ n => simp [walkFrom, hp, ih n]

theorem Chain.walkFrom_eq {v : Version} {vs : List Version} (hc : h.Chain v vs) {n : Nat}
    (hn : vs.length ≤ n) : h.walkFrom n v = vs :=
  (hc.walkFrom_eq_take n).trans (List.take_of_length_le hn)

/-- A walk that ends is the walk of the history. -/
theorem Chain.walk_eq (hb : h.Built) {c : String} {v : Version} {vs : List Version}
    (hc : h.Chain v vs) (hv : h.version c = .ok v) : h.walk c = .ok vs := by
  rw [walk, walkWithin, hv]
  exact congrArg Except.ok (hc.walkFrom_eq (hc.length_le hb (hb.version_self hv)))

/-- No walk starts from a version that is not known. -/
theorem walk_eq_error {c : String} {e : HistoryError} (he : h.version c = .error e) :
    h.walk c = .error e := by
  rw [walk, walkWithin, he]
  rfl

/-- The checksums a walk comes to after the version it starts from. -/
def ancestors (h : History) (v : Version) : List String :=
  ((h.walkFrom h.versions.size v).map (·.checksum)).filter (· ≠ v.checksum)

/-- The ancestors of a version of a walk are in the walk. -/
theorem Chain.mem_of_ancestor (hb : h.Built) {v u : Version} {vs : List Version}
    (hc : h.Chain v vs) (hv : h.version v.checksum = .ok v) (hu : u ∈ vs) {a : String}
    (ha : a ∈ h.ancestors u) : a ∈ vs.map (·.checksum) := by
  have hu' := hc.version_eq hb hv u hu
  obtain ⟨us, hus, hs⟩ := hc.of_mem hu
  rw [ancestors, hus.walkFrom_eq (hus.length_le hb hu')] at ha
  exact (hs.map _).mem (List.mem_filter.mp ha).1

theorem Chain.ancestors_eq (hb : h.Built) {v : Version} {vs : List Version}
    (hc : h.Chain v (v :: vs)) (hv : h.version v.checksum = .ok v) :
    h.ancestors v = vs.map (·.checksum) := by
  have hn := hc.nodup hb hv
  rw [List.map_cons, List.nodup_cons] at hn
  rw [ancestors, hc.walkFrom_eq (hc.length_le hb hv), List.map_cons,
    List.filter_cons_of_neg (by simp), List.filter_eq_self]
  intro c hmem
  have hne : c ≠ v.checksum := fun he => hn.1 (he ▸ hmem)
  simpa using hne

/-- No version of a walk is an ancestor of a later one. -/
theorem Chain.pairwise (hb : h.Built) {v : Version} {vs : List Version} (hc : h.Chain v vs)
    (hv : h.version v.checksum = .ok v) :
    vs.Pairwise fun u a => a.checksum ≠ u.checksum ∧ u.checksum ∉ h.ancestors a := by
  induction hc with
  | last => simp
  | @step v p vs hp hc ih =>
    have hp' := hb.version_parent hp
    have hn := (Chain.step hp hc).nodup hb hv
    rw [List.map_cons, List.nodup_cons] at hn
    refine List.pairwise_cons.mpr ⟨fun a ha => ⟨fun he => ?_, fun hmem => ?_⟩, ih hp'⟩
    · exact hn.1 (List.mem_map.mpr ⟨a, ha, he⟩)
    · exact hn.1 (hc.mem_of_ancestor hb hp' ha hmem)

end PerfDrift.History
