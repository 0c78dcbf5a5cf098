import Mathlib.Data.List.Induction
import Mathlib.Data.List.Nodup
import PerfDrift.Proofs.History.Walk

/-! Histories whose walks end.

Nothing in a history keeps its first parents from leading round in a circle, but the order in
which versions are committed can: where a first parent is committed before its child or never
(`Orderly`), every walk goes back in that order, so it ends (`Orderly.chain`). Such a walk is the
line of first parents, and later commits that nobody has named as a parent leave it alone
(`walks_along_first_parents`). A linear history is of this kind, and its walks run through it
backwards. -/
namespace PerfDrift.History
variable {h : History} {vs : List Version} {u v : Version}

/-! ### Versions that were committed -/

theorem mem_or_version_of_foldl {c : String} (hv : (vs.foldl commit h).version c = .ok v) :
    v ∈ vs ∨ h.version c = .ok v := by
  induction vs generalizing h with
  | nil => exact .inr hv
  | cons u rest ih =>
    rcases ih hv with hmem | hu
    · exact .inl (List.mem_cons_of_mem u hmem)
    · by_cases hc : c = u.checksum
      · subst hc
        obtain rfl : u = v := by simpa [version_eq_ok_iff, commit] using hu
        exact .inl List.mem_cons_self
      · rw [version_eq_ok_iff, commit, KeyMap.get?_insert_of_ne _ hc] at hu
        exact .inr (version_eq_ok_iff.mpr hu)

/-- Where no checksum is committed twice, the versions that are found are those that were
committed. -/
theorem version_ofCommits_iff (hd : (vs.map (·.checksum)).Nodup) {c : String} :
    (ofCommits vs).version c = .ok v ↔ v ∈ vs ∧ v.checksum = c := by
  have hmem : ∀ {u}, (ofCommits vs).version c = .ok u → u ∈ vs ∧ u.checksum = c := by
    intro u hu
    refine ⟨(mem_or_version_of_foldl hu).resolve_right fun he => ?_,
      (built_ofCommits vs).checksum_eq hu⟩
    simp [version_eq_ok_iff, History.empty] at he
  refine ⟨hmem, ?_⟩
  rintro ⟨hv, rfl⟩
  obtain ⟨u, hu⟩ := knows_ofCommits.mpr (List.mem_map_of_mem hv)
  obtain ⟨hu', he⟩ := hmem hu
  rwa [List.inj_on_of_nodup_map hd hu' hv he] at hu

/-- A first parent is known if it was committed. -/
theorem parent_ofCommits_iff (hd : (vs.map (·.checksum)).Nodup) :
    (ofCommits vs).parent? u = some v ↔ v ∈ vs ∧ u.parents.head? = some v.checksum := by
  rw [parent?, Option.bind_eq_some_iff]
  constructor
  · rintro ⟨c, hc, hv⟩
    obtain ⟨hmem, rfl⟩ := (version_ofCommits_iff hd).mp (version_eq_ok_iff.mpr hv)
    exact ⟨hmem, hc⟩
  · rintro ⟨hmem, hc⟩
    exact ⟨_, hc, version_eq_ok_iff.mp ((version_ofCommits_iff hd).mpr ⟨hmem, rfl⟩)⟩

theorem parent_ofCommits_none_iff :
    (ofCommits vs).parent? u = none ↔
      u.parents = [] ∨ ∃ p, u.parents.head? = some p ∧ p ∉ vs.map (·.checksum) := by
  have hknows : ∀ p, (ofCommits vs).versions.get? p = none ↔ p ∉ vs.map (·.checksum) := by
    intro p
    rw [← knows_ofCommits, Knows, Option.eq_none_iff_forall_ne_some]
    simp [version_eq_ok_iff]
  cases hp : u.parents with
  | nil => simp [parent?, hp]
  | cons p rest => simp [parent?, hp, hknows]

theorem head_ofCommits (vs : List Version) :
    (ofCommits vs).head = vs.getLast?.map (·.checksum) := by
  induction vs using List.reverseRecOn with
  | nil => rfl
  | append_singleton vs v _ => simp [ofCommits, commit]

/-! ### Walks step by step -/

/-- Each version of a walk is followed by its first parent, and the last one has none. -/
theorem Chain.parent_eq {walk : List Version} (hc : h.Chain v walk) {i : Nat}
    (hu : walk[i]? = some u) : h.parent? u = walk[i + 1]? := by
  induction hc generalizing i with
  | @last v hn =>
    cases i with
    | zero =>
      obtain rfl : v = u := by simpa using hu
      exact hn
    | succ i => simp at hu
  | @step v p vs hp hc ih =>
    cases i with
    | zero =>
      obtain rfl : v = u := by simpa using hu
      obtain ⟨ancestors, rfl⟩ := hc.eq_cons
      exact hp
    | succ i => exact ih hu

/-- A walk from a version, however far it is followed, gives these versions and then ends. -/
structure Yields (h : History) (start : String) (walk : List Version) : Prop where
  whole : h.walk start = .ok walk
  within : ∀ n, h.walkWithin n start = .ok (walk.take n)

theorem Chain.yields (hb : h.Built) {c : String} {walk : List Version}
    (hv : h.version c = .ok v) (hc : h.Chain v walk) : h.Yields c walk where
  whole := hc.walk_eq hb hv
  within n := by
    rw [walkWithin, hv]
    exact congrArg Except.ok (hc.walkFrom_eq_take n)

/-! ### Later commits -/

/-- A commit is no news to versions that do not name it as their first parent. -/
theorem parent_commit (hu : v.parents.head? ≠ some u.checksum) :
    (h.commit u).parent? v = h.parent? v := by
  cases hp : v.parents.head? with
  | none => simp [parent?, hp]
  | some p =>
    have hne : p ≠ u.checksum := fun he => hu (hp.trans (congrArg some he))
    simp [parent?, hp, commit, KeyMap.get?_insert_of_ne _ hne]

theorem Chain.commit {walk : List Version} (hc : h.Chain v walk)
    (hu : ∀ x ∈ walk, x.parents.head? ≠ some u.checksum) : (h.commit u).Chain v walk := by
  induction hc with
  | last hn => exact .last ((parent_commit (hu _ List.mem_cons_self)).trans hn)
  | step hp _ ih =>
    exact .step ((parent_commit (hu _ List.mem_cons_self)).trans hp)
      (ih fun x hx => hu x (List.mem_cons_of_mem _ hx))

/-! ### Commits in order -/

/-- Versions in an order in which they can be committed: no checksum comes twice, and a first
parent comes before its child or not at all. -/
structure Orderly (vs : List Version) : Prop where
  distinct : (vs.map (·.checksum)).Nodup
  parent : ∀ i (hi : i < vs.length), ∀ p ∈ vs[i].parents.head?,
    p ∈ (vs.take i).map (·.checksum) ∨ p ∉ vs.map (·.checksum)

/-- The walk from a version ends, since each step of it goes back in the order of commits. -/
theorem Orderly.chain (ho : Orderly vs) {i : Nat} (hi : i < vs.length) :
    ∃ walk, (ofCommits vs).Chain vs[i] walk := by
  induction i using Nat.strongRecOn with
  | ind i ih =>
    cases hp : (ofCommits vs).parent? vs[i] with
    | none => exact ⟨[vs[i]], .last hp⟩
    | some p =>
      obtain ⟨hmem, hhead⟩ := (parent_ofCommits_iff ho.distinct).mp hp
      have hearlier : p.checksum ∈ (vs.take i).map (·.checksum) :=
        (ho.parent i hi _ hhead).resolve_right fun hn => hn (List.mem_map_of_mem hmem)
      obtain ⟨u, hu, he⟩ := List.mem_map.mp hearlier
      obtain rfl := List.inj_on_of_nodup_map ho.distinct (List.mem_of_mem_take hu) hmem he
      obtain ⟨j, hj, rfl⟩ := List.mem_take_iff_getElem.mp hu
      obtain ⟨walk, hwalk⟩ := ih j (by omega) (by omega)
      exact ⟨vs[i] :: walk, .step hp hwalk⟩

/-- A walk that goes from a version along first parents, among the versions that were committed,
and stops where there is no such parent. -/
structure FirstParents (vs : List Version) (v : Version) (walk : List Version) : Prop where
  start : walk.head? = some v
  committed : walk ⊆ vs
  distinct : (walk.map (·.checksum)).Nodup
  length_le : walk.length ≤ vs.length
  next : ∀ i u p, walk[i]? = some u → walk[i + 1]? = some p → u.parents.head? = some p.checksum
  stop : ∀ i u, walk[i]? = some u → (walk.length = i + 1 ↔
    u.parents = [] ∨ ∃ p, u.parents.head? = some p ∧ p ∉ vs.map (·.checksum))

theorem Chain.firstParents (hd : (vs.map (·.checksum)).Nodup) {walk : List Version}
    (hv : v ∈ vs) (hc : (ofCommits vs).Chain v walk) : FirstParents vs v walk := by
  have hb := built_ofCommits vs
  have hv' := (version_ofCommits_iff hd).mpr ⟨hv, rfl⟩
  have hcommitted : walk ⊆ vs := fun u hu =>
    ((version_ofCommits_iff hd).mp (hc.version_eq hb hv' u hu)).1
  have hdistinct := hc.nodup hb hv'
  refine ⟨?_, hcommitted, hdistinct, ?_, fun i u p hu hp => ?_, fun i u hu => ?_⟩
  · obtain ⟨ancestors, rfl⟩ := hc.eq_cons
    rfl
  · exact (List.Nodup.of_map _ hdistinct).length_le_of_subset hcommitted
  · rw [← hc.parent_eq hu] at hp
    exact ((parent_ofCommits_iff hd).mp hp).2
  · obtain ⟨hi, -⟩ := List.getElem?_eq_some_iff.mp hu
    rw [← parent_ofCommits_none_iff, hc.parent_eq hu, List.getElem?_eq_none_iff]
    omega

/-- The walk from a version that was committed goes along its first parents, also after a further
commit that nobody waited for. -/
theorem Orderly.walks (ho : Orderly vs) (hv : v ∈ vs) :
    ∃ walk, (ofCommits vs).Yields v.checksum walk ∧ FirstParents vs v walk ∧
      ∀ u, u.checksum ∉ vs.map (·.checksum) → (∀ x ∈ vs, x.parents.head? ≠ some u.checksum) →
        ((ofCommits vs).commit u).Yields v.checksum walk := by
  obtain ⟨i, hi, rfl⟩ := List.getElem_of_mem hv
  obtain ⟨walk, hwalk⟩ := ho.chain hi
  have hb := built_ofCommits vs
  have hv' := (version_ofCommits_iff ho.distinct).mpr ⟨hv, rfl⟩
  have hfirst := hwalk.firstParents ho.distinct hv
  refine ⟨walk, hwalk.yields hb hv', hfirst, fun u hu hnamed => ?_⟩
  have hne : vs[i].checksum ≠ u.checksum := fun he => hu (he ▸ List.mem_map_of_mem hv)
  refine (hwalk.commit fun x hx => hnamed x (hfirst.committed hx)).yields (hb.commit u) ?_
  rw [version_eq_ok_iff, commit, KeyMap.get?_insert_of_ne _ hne]
  exact version_eq_ok_iff.mp hv'

/-! ### Linear histories -/

/-- The versions of a linear history. -/
def linked (parents : List String) : List String → List Version
  | [] => []
  | c :: rest => {checksum := c, parents} :: linked [c] rest

theorem linked_checksums (parents cs : List String) :
    (linked parents cs).map (·.checksum) = cs := by
  induction cs generalizing parents with
  | nil => rfl
  | cons c rest ih => rw [linked, List.map_cons, ih]

theorem linked_getElem? (parents cs : List String) (i : Nat) :
    (linked parents cs)[i]?.map (·.checksum) = cs[i]? := by
  rw [← List.getElem?_map, linked_checksums]

theorem commitOnto_eq (h : History) (parents cs : List String) :
    h.commitOnto parents cs = (linked parents cs).foldl commit h := by
  induction cs generalizing h parents with
  | nil => rfl
  | cons c rest ih => exact ih _ [c]

theorem linear_eq (cs : List String) : linear cs = ofCommits (linked [] cs) := commitOnto_eq ..

theorem linked_first {parents cs : List String} (hv : (linked parents cs)[0]? = some v) :
    v.parents = parents := by
  cases cs with
  | nil => simp [linked] at hv
  | cons c rest =>
    obtain rfl := Option.some.inj hv
    rfl

/-- Each version has the one before as its parent. -/
theorem linked_next {parents cs : List String} {i : Nat}
    (hu : (linked parents cs)[i]? = some u) (hv : (linked parents cs)[i + 1]? = some v) :
    v.parents = [u.checksum] := by
  induction cs generalizing parents i with
  | nil => simp [linked] at hu
  | cons c rest ih =>
    cases i with
    | zero =>
      obtain rfl := Option.some.inj hu
      exact linked_first hv
    | succ i => exact ih hu hv

/-- The walk from a version of a linear history goes through it backwards. -/
theorem chain_linear {cs : List String} (hd : cs.Nodup) {i : Nat}
    (hv : (linked [] cs)[i]? = some v) :
    ∃ walk, (linear cs).Chain v walk ∧ walk.map (·.checksum) = (cs.take (i + 1)).reverse := by
  rw [← linked_checksums [] cs] at hd
  rw [linear_eq]
  induction i generalizing v with
  | zero =>
    refine ⟨[v], .last (parent_ofCommits_none_iff.mpr (.inl (linked_first hv))), ?_⟩
    rw [List.take_add_one, ← linked_getElem? [], hv]
    rfl
  | succ i ih =>
    obtain ⟨hi, -⟩ := List.getElem?_eq_some_iff.mp hv
    have hu := List.getElem?_eq_getElem (show i < (linked [] cs).length by omega)
    obtain ⟨walk, hwalk, hchecksums⟩ := ih hu
    have hparent : (ofCommits (linked [] cs)).parent? v = some (linked [] cs)[i] := by
      refine (parent_ofCommits_iff hd).mpr ⟨List.getElem_mem _, ?_⟩
      rw [linked_next hu hv]
      rfl
    refine ⟨v :: walk, .step hparent hwalk, ?_⟩
    have hlast : cs[i + 1]? = some v.checksum := by
      rw [← linked_getElem? [], hv]
      rfl
    rw [List.map_cons, hchecksums, List.take_add_one (i := i + 1), hlast, Option.toList_some,
      List.reverse_concat]

theorem headVersion_linear (cs : List String) {c : String} :
    (linear cs).headVersion = .ok c ↔ cs.getLast? = some c := by
  have hlast : cs.getLast? = (linear cs).head := by
    rw [linear_eq, head_ofCommits, ← List.getLast?_map, linked_checksums]
  rw [hlast, headVersion]
  cases (linear cs).head <;> simp

theorem walks_linear {cs : List String} (hd : cs.Nodup) {i : Nat} {c : String}
    (hc : cs[i]? = some c) :
    ∃ walk, (linear cs).Yields c walk ∧
      walk.map (·.checksum) = (cs.take (i + 1)).reverse := by
  rw [← linked_getElem? []] at hc
  obtain ⟨v, hv, rfl⟩ := Option.map_eq_some_iff.mp hc
  obtain ⟨walk, hwalk, hchecksums⟩ := chain_linear hd hv
  refine ⟨walk, hwalk.yields (built_linear cs) ?_, hchecksums⟩
  rw [linear_eq]
  exact (version_ofCommits_iff (by rwa [linked_checksums])).mpr ⟨List.mem_of_getElem? hv, rfl⟩

/-! ### Walks -/

/-- **Walks end, and are the line of first parents.** Let versions be committed, none twice and
none before its first parent unless that never is. The walk from any of them, however far it is
followed, then goes from each version to its first parent, repeats none, and ends where there is
no parent or one that was never committed; a further version that is new and that nobody has named
as first parent changes nothing about it. The head of a linear history is the last version, and
the walk from a version of it gives this version and those before it, backwards. -/
theorem walks_along_first_parents :
    (∀ vs, Orderly vs → ∀ v ∈ vs, ∃ walk,
      (ofCommits vs).Yields v.checksum walk ∧ FirstParents vs v walk ∧
        ∀ u, u.checksum ∉ vs.map (·.checksum) → (∀ x ∈ vs, x.parents.head? ≠ some u.checksum) →
          ((ofCommits vs).commit u).Yields v.checksum walk) ∧
      ∀ cs : List String, cs.Nodup →
        (∀ c, (linear cs).headVersion = .ok c ↔ cs.getLast? = some c) ∧
          ∀ i c, cs[i]? = some c → ∃ walk, (linear cs).Yields c walk ∧
            walk.map (·.checksum) = (cs.take (i + 1)).reverse := by
  refine ⟨fun vs ho v hv => ho.walks hv, fun cs hd => ⟨fun c => ?_, fun i c hc => ?_⟩⟩
  · exact headVersion_linear cs
  · exact walks_linear hd hc

/-- Two lines that are merged, and one whose beginning is lost. -/
theorem walks_along_first_parents_merge :
    let merge : Version := {checksum := "m", parents := ["c", "b"]}
    let lost : Version := {checksum := "y", parents := ["x"]}
    let next : Version := {checksum := "n", parents := ["m", "y"]}
    let vs := [{checksum := "a"}, {checksum := "b", parents := ["a"]},
      {checksum := "c", parents := ["a"]}, lost, merge]
    (Orderly vs ∧ merge ∈ vs ∧ lost ∈ vs) ∧
      (∃ walk, (ofCommits vs).Yields "m" walk ∧ FirstParents vs merge walk ∧
        ((ofCommits vs).commit next).Yields "m" walk ∧ walk.map (·.checksum) = ["m", "c", "a"]) ∧
      (∃ walk, (ofCommits vs).Yields "y" walk ∧ FirstParents vs lost walk) ∧
      ["a", "b", "c"].Nodup ∧
        ∃ walk, (linear ["a", "b", "c"]).Yields "b" walk ∧
          walk.map (·.checksum) = ["b", "a"] := by
  intro merge lost next vs
  have ho : Orderly vs := ⟨by decide, by decide⟩
  have hmerge : merge ∈ vs := by decide
  have hlost : lost ∈ vs := by decide
  have hd : ["a", "b", "c"].Nodup := by decide
  obtain ⟨walk, hwalk, hfirst, hlater⟩ := walks_along_first_parents.1 vs ho merge hmerge
  obtain ⟨walk', hwalk', hfirst', -⟩ := walks_along_first_parents.1 vs ho lost hlost
  refine ⟨⟨ho, hmerge, hlost⟩, ⟨walk, hwalk, hfirst, hlater next (by decide) (by decide), ?_⟩,
    ⟨walk', hwalk', hfirst'⟩, hd, (walks_along_first_parents.2 _ hd).2 1 "b" rfl⟩
  have hwhole : ((ofCommits vs).walk "m").map (·.map (·.checksum)) = .ok ["m", "c", "a"] := by
    decide +kernel
  rw [hwalk.whole] at hwhole
  exact Except.ok.inj hwhole

end PerfDrift.History
