import Mathlib.Algebra.BigOperators.Group.List.Basic
import Mathlib.Data.List.Forall2
import Mathlib.Data.List.Induction
import Mathlib.Data.List.Nodup
import Mathlib.Data.Multiset.Bind
import Mathlib.Data.String.Basic
import PerfDrift.KeyMap

/-! What is listed in a map.

A map lists its bindings in ascending order of the keys, so a look-up finds every binding
that is listed (`get?_of_mem`), and what is made of its keys stays in order. Maps that bind
alike are the same (`ext_get?`). A group of items is found under every name that occurs, and
holds the items of that name as they stand in the list (`get?_group`); how the names are
mixed in the list cannot be told (`map_group_congr`). Every item is in one group
(`flatten_values_group`), so a sum over the groups is the sum over the items (`sum_by_name`), and
what is folded up group by group can be folded up as the items come (`map_foldl_group`). -/
namespace PerfDrift.KeyMap
variable {β γ : Type}

theorem keys_sorted (m : KeyMap β) : m.keys.Pairwise (· < ·) := List.pairwise_map.mpr m.sorted

theorem namesOf_sorted (l : List String) : (namesOf l).Pairwise (· < ·) := keys_sorted _

/-- A binding that is listed is found. -/
theorem get?_of_mem {m : KeyMap β} {k : String} {v : β} (h : (k, v) ∈ m.entries) :
    m.get? k = some v := by
  obtain ⟨l, hl⟩ := m
  simp only [get?] at h ⊢
  induction l with
  | nil => simp at h
  | cons e rest ih =>
    obtain ⟨he, hrest⟩ := List.pairwise_cons.mp hl
    rcases List.mem_cons.mp h with rfl | hmem
    · simp
    · have hlt : e.1 < k := he (k, v) hmem
      have hne : ¬e.1 = k := fun hk => String.lt_irrefl k (hk ▸ hlt)
      rw [List.find?_cons_of_neg (by simpa using hne)]
      exact ih hrest hmem

theorem mem_of_get? {m : KeyMap β} {k : String} {v : β} (h : m.get? k = some v) :
    (k, v) ∈ m.entries := by
  obtain ⟨e, he, rfl⟩ := Option.map_eq_some_iff.mp h
  have hk : e.1 = k := by simpa using List.find?_some he
  exact hk ▸ List.mem_of_find?_eq_some he

/-- The keys that two maps share are listed in ascending order. -/
theorem meet_sorted (m : KeyMap β) (n : KeyMap γ) : (m.meet n).Pairwise fun x y => x.1 < y.1 := by
  refine m.sorted.filterMap _ fun e e' hlt x hx x' hx' => ?_
  obtain ⟨v, -, rfl⟩ := Option.map_eq_some_iff.mp hx
  obtain ⟨v', -, rfl⟩ := Option.map_eq_some_iff.mp hx'
  exact hlt

theorem mem_meet {m : KeyMap β} {n : KeyMap γ} {k : String} {v : β} {v' : γ} :
    (k, v, v') ∈ m.meet n ↔ m.get? k = some v ∧ n.get? k = some v' := by
  constructor
  · intro h
    obtain ⟨e, he, hx⟩ := List.mem_filterMap.mp h
    obtain ⟨u, hu, hx⟩ := Option.map_eq_some_iff.mp hx
    obtain ⟨rfl, rfl, rfl⟩ : e.1 = k ∧ e.2 = v ∧ u = v' := by simpa using hx
    exact ⟨get?_of_mem he, hu⟩
  · rintro ⟨h, h'⟩
    exact List.mem_filterMap.mpr ⟨(k, v), mem_of_get? h, by simp [h']⟩

/-- Of a key there is at most one binding in a list in order. -/
theorem filter_key_eq {l : List (String × β)} (hl : l.Pairwise fun x y => x.1 < y.1) (k : String) :
    (l.filter fun x => x.1 = k) = (l.find? fun x => x.1 = k).toList := by
  induction l with
  | nil => rfl
  | cons x rest ih =>
    obtain ⟨hx, hrest⟩ := List.pairwise_cons.mp hl
    by_cases hk : x.1 = k
    · have hnone : (rest.filter fun y => y.1 = k) = [] := by
        refine List.filter_eq_nil_iff.mpr fun y hy => ?_
        have hne : y.1 ≠ k := fun he => String.lt_irrefl k (by simpa only [hk, he] using hx y hy)
        simpa using hne
      rw [List.filter_cons_of_pos (by simpa using hk), List.find?_cons_of_pos (by simpa using hk),
        hnone, Option.toList_some]
    · rw [List.filter_cons_of_neg (by simpa using hk), List.find?_cons_of_neg (by simpa using hk),
        ih hrest]

theorem find?_meet (m : KeyMap β) (n : KeyMap γ) (k : String) :
    ((m.meet n).find? fun x => x.1 = k) =
      (m.get? k).bind fun v => (n.get? k).map fun v' => (k, v, v') := by
  cases hx : (m.meet n).find? fun x => x.1 = k with
  | none =>
    rw [List.find?_eq_none] at hx
    cases hv : m.get? k with
    | none => rfl
    | some v =>
      cases hv' : n.get? k with
      | none => rfl
      | some v' => exact absurd (decide_eq_true rfl) (hx (k, v, v') (mem_meet.mpr ⟨hv, hv'⟩))
  | some x =>
    obtain rfl : x.1 = k := by simpa using List.find?_some hx
    obtain ⟨hv, hv'⟩ := mem_meet.mp (List.mem_of_find?_eq_some hx)
    rw [hv, hv']
    rfl

/-- A map shares with itself what it lists. -/
theorem eq_of_mem_meet_self {m : KeyMap β} {k : String} {v v' : β} (h : (k, v, v') ∈ m.meet m) :
    v' = v := by
  obtain ⟨hv, hv'⟩ := mem_meet.mp h
  exact Option.some.inj (hv'.symm.trans hv)

/-! ### Maps that bind alike -/

theorem mem_entries_iff {m : KeyMap β} {k : String} {v : β} :
    (k, v) ∈ m.entries ↔ m.get? k = some v := ⟨get?_of_mem, mem_of_get?⟩

/-- The look-ups say all there is about a map. -/
theorem ext_get? {m n : KeyMap β} (h : ∀ k, m.get? k = n.get? k) : m = n := by
  have hnodup : ∀ l : KeyMap β, l.entries.Nodup := fun l =>
    l.sorted.imp fun {a b} (hlt : a.1 < b.1) (he : a = b) => String.lt_irrefl _ (he ▸ hlt)
  have hperm : m.entries.Perm n.entries := by
    refine (List.perm_ext_iff_of_nodup (hnodup m) (hnodup n)).mpr fun e => ?_
    rw [mem_entries_iff, mem_entries_iff, h]
  refine ext (hperm.eq_of_pairwise (fun e e' _ _ hlt hlt' => ?_) m.sorted n.sorted)
  exact absurd hlt' (String.lt_asymm hlt)

/-- Of two bindings of a key the later one counts. -/
theorem insert_insert (m : KeyMap β) (k : String) (v v' : β) :
    (m.insert k v).insert k v' = m.insert k v' := by
  refine ext_get? fun k' => ?_
  by_cases hk : k' = k
  · subst hk
    rw [get?_insert_self, get?_insert_self]
  · rw [get?_insert_of_ne _ hk, get?_insert_of_ne _ hk, get?_insert_of_ne _ hk]

theorem get?_map (f : β → γ) (m : KeyMap β) (k : String) : (m.map f).get? k = (m.get? k).map f := by
  simp only [get?, map, List.find?_map, Option.map_map]
  rfl

theorem get?_eq_none_iff {m : KeyMap β} {k : String} : m.get? k = none ↔ k ∉ m.keys := by
  rw [get?, Option.map_eq_none_iff, List.find?_eq_none, keys, List.mem_map]
  simp only [decide_eq_true_eq, not_exists, not_and]

theorem keys_map (f : β → γ) (m : KeyMap β) : (m.map f).keys = m.keys := by
  simp [keys, map]

theorem values_map (f : β → γ) (m : KeyMap β) : (m.map f).values = m.values.map f := by
  simp [values, map]

/-- Maps that bind the same keys have the same keys. -/
theorem keys_eq_of_rel {R : β → γ → Prop} {m : KeyMap β} {n : KeyMap γ}
    (h : ∀ k, Option.Rel R (m.get? k) (n.get? k)) : m.keys = n.keys := by
  have hunit : m.map (fun _ => ()) = n.map fun _ => () := by
    refine ext_get? fun k => ?_
    rw [get?_map, get?_map]
    match m.get? k, n.get? k, h k with
    | _, _, .none => rfl
    | _, _, .some _ => rfl
  rw [← keys_map (fun _ => ()) m, hunit, keys_map]

/-- What a map shares with two others corresponds where the look-ups in those do. -/
theorem forall₂_meet {R : γ → γ → Prop} {n n' : KeyMap γ}
    (h : ∀ k, Option.Rel R (n.get? k) (n'.get? k)) (m : KeyMap β) :
    List.Forall₂ (fun x x' => x.1 = x'.1 ∧ x.2.1 = x'.2.1 ∧ R x.2.2 x'.2.2) (m.meet n)
      (m.meet n') := by
  refine List.rel_filterMap (fun e e' he => ?_) (List.forall₂_same.mpr fun _ _ => rfl)
  subst he
  match n.get? e.1, n'.get? e.1, h e.1 with
  | _, _, .none => exact .none
  | _, _, .some hr => exact .some ⟨rfl, rfl, hr⟩

theorem keys_nodup (m : KeyMap β) : m.keys.Nodup := m.keys_sorted.imp fun h => h.ne

theorem values_eq (m : KeyMap β) (d : β) : m.values = m.keys.map fun k => (m.get? k).getD d := by
  rw [values, keys, List.map_map]
  refine List.map_congr_left fun e he => ?_
  simp [get?_of_mem he]

/-! ### Names -/

theorem mem_keys_insert {m : KeyMap β} {k k' : String} {v : β} :
    k' ∈ (m.insert k v).keys ↔ k' ∈ m.keys ∨ k' = k := by
  by_cases hk : k' = k
  · subst hk
    simp [mem_keys_of_get? (get?_insert_self m k' v)]
  · rw [← not_iff_not, ← get?_eq_none_iff, get?_insert_of_ne m hk, get?_eq_none_iff]
    simp [hk]

/-- The names of a list are those that occur in it. -/
theorem mem_namesOf {l : List String} {k : String} : k ∈ namesOf l ↔ k ∈ l := by
  induction l using List.reverseRecOn with
  | nil => simp [namesOf, ofList, keys, empty]
  | append_singleton l x ih =>
    have hinsert : namesOf (l ++ [x]) = ((ofList (l.map fun k => (k, ()))).insert x ()).keys := by
      rw [namesOf, ofList, List.map_append, List.foldl_append]
      rfl
    rw [hinsert, mem_keys_insert, List.mem_append, List.mem_singleton]
    exact or_congr_left ih

theorem namesOf_nodup (l : List String) : (namesOf l).Nodup := keys_nodup _

/-- Lists in which the same names occur have the same names. -/
theorem namesOf_congr {l l' : List String} (h : ∀ k, k ∈ l ↔ k ∈ l') : namesOf l = namesOf l' := by
  have hperm : (namesOf l).Perm (namesOf l') := by
    refine (List.perm_ext_iff_of_nodup (namesOf_nodup l) (namesOf_nodup l')).mpr fun k => ?_
    rw [mem_namesOf, mem_namesOf, h]
  exact hperm.eq_of_pairwise (fun k k' _ _ hlt hlt' => absurd hlt' (String.lt_asymm hlt))
    (namesOf_sorted l) (namesOf_sorted l')

/-- What two maps share is listed under the keys of the first that are keys of the second. -/
theorem meet_keys (m : KeyMap β) (n : KeyMap γ) :
    (m.meet n).map (·.1) = m.keys.filter (· ∈ n.keys) := by
  change (m.meet n).map (·.1) = (m.entries.map (·.1)).filter (· ∈ n.keys)
  rw [meet]
  induction m.entries with
  | nil => rfl
  | cons e rest ih =>
    cases he : n.get? e.1 with
    | none =>
      have hk : e.1 ∉ n.keys := get?_eq_none_iff.mp he
      simp [he, hk, ih]
    | some v =>
      have hk : e.1 ∈ n.keys := mem_keys_of_get? he
      simp [he, hk, ih]

theorem map_map {δ : Type} (f : β → γ) (g : γ → δ) (m : KeyMap β) :
    (m.map f).map g = m.map fun v => g (f v) := ext (by simp [map])

/-- What is made of the values of two maps is made of those they share. -/
theorem meet_map {β' γ' : Type} (f : β → β') (g : γ → γ') (m : KeyMap β) (n : KeyMap γ) :
    (m.map f).meet (n.map g) = (m.meet n).map fun x => (x.1, f x.2.1, g x.2.2) := by
  have hentries : (m.map f).entries = m.entries.map fun e => (e.1, f e.2) := rfl
  rw [meet, meet, hentries, List.filterMap_map, List.map_filterMap]
  refine List.filterMap_congr fun e _ => ?_
  simp only [Function.comp_apply, get?_map, Option.map_map]
  rfl

/-! ### Groups -/

section Group
theorem group_concat (name : β → String) (items : List β) (x : β) :
    group name (items ++ [x]) = (group name items).alter (name x) fun xs => xs.getD [] ++ [x] :=
  List.foldl_concat ..

theorem getD_unless_nil (l : List β) : (if l = [] then none else some l).getD [] = l := by
  split
  · next hnil => exact hnil.symm
  · rfl

/-- A group holds the items of its name in their order, and only names that occur have one. -/
theorem get?_group (name : β → String) (items : List β) (k : String) :
    (group name items).get? k =
      if items.filter (fun x => name x = k) = [] then none
      else some (items.filter fun x => name x = k) := by
  induction items using List.reverseRecOn with
  | nil => rfl
  | append_singleton items x ih =>
    rw [group_concat, alter]
    by_cases hk : k = name x
    · subst hk
      rw [get?_insert_self, ih, getD_unless_nil]
      simp
    · rw [get?_insert_of_ne _ hk, ih]
      simp [Ne.symm hk]

/-- There is a group for every name that occurs. -/
theorem mem_keys_group {name : β → String} {items : List β} {k : String} :
    k ∈ (group name items).keys ↔ ∃ x ∈ items, name x = k := by
  rw [← not_iff_not, ← get?_eq_none_iff, get?_group]
  simp

theorem getD_get?_group (name : β → String) (items : List β) (k : String) :
    ((group name items).get? k).getD [] = items.filter fun x => name x = k := by
  rw [get?_group, getD_unless_nil]

/-- What is made of items without touching their names is made of the groups. -/
theorem group_map (f : β → γ) (name : γ → String) (items : List β) :
    group name (items.map f) = (group (fun x => name (f x)) items).map (List.map f) := by
  refine ext_get? fun k => ?_
  rw [get?_map, get?_group, get?_group, List.filter_map, apply_ite (Option.map (List.map f))]
  simp only [List.map_eq_nil_iff, Function.comp_def, Option.map_none, Option.map_some]

variable {name : β → String} {items items' : List β}

/-- What is made of groups is the same where it is the same for every name. -/
theorem map_group_congr {f : List β → γ}
    (hnil : ∀ k, items.filter (fun x => name x = k) = [] ↔ items'.filter (fun x => name x = k) = [])
    (hf : ∀ k, f (items.filter fun x => name x = k) = f (items'.filter fun x => name x = k)) :
    (group name items).map f = (group name items').map f := by
  refine ext_get? fun k => ?_
  rw [get?_map, get?_map, get?_group, get?_group]
  by_cases hk : items.filter (fun x => name x = k) = []
  · rw [if_pos hk, if_pos ((hnil k).mp hk)]
  · rw [if_neg hk, if_neg (mt (hnil k).mpr hk), Option.map_some, Option.map_some, hf]

/-- Groups of items that correspond, those of one name to those of the same, correspond. -/
theorem rel_get?_group {R : β → β → Prop} (hname : ∀ x x', R x x' → name x = name x')
    (h : List.Forall₂ R items items') (k : String) :
    Option.Rel (List.Forall₂ R) ((group name items).get? k) ((group name items').get? k) := by
  have hgroup : List.Forall₂ R (items.filter fun x => name x = k)
      (items'.filter fun x => name x = k) :=
    List.rel_filter (fun x x' hx => by simp [hname x x' hx]) h
  rw [get?_group, get?_group]
  by_cases hnil : items.filter (fun x => name x = k) = []
  · rw [hnil] at hgroup
    rw [if_pos hnil, if_pos (List.forall₂_nil_left_iff.mp hgroup)]
    exact .none
  · have hnil' : items'.filter (fun x => name x = k) ≠ [] := fun he =>
      hnil (List.forall₂_nil_right_iff.mp (he ▸ hgroup))
    rw [if_neg hnil, if_neg hnil']
    exact .some hgroup

theorem keys_group_congr
    (hnil : ∀ k, items.filter (fun x => name x = k) = [] ↔
      items'.filter (fun x => name x = k) = []) :
    (group name items).keys = (group name items').keys := by
  have hunit : (group name items).map (fun _ => ()) = (group name items').map fun _ => () :=
    map_group_congr hnil fun _ => rfl
  rw [← keys_map (fun _ => ()), hunit, keys_map]

/-- Items that are added up name by name, each name once, are added up. -/
theorem sum_by_name {M : Type} [AddCommMonoid M] {names : List String} (hnames : names.Nodup)
    (weight : β → M) (hitems : ∀ x ∈ items, name x ∈ names) :
    (names.map fun k => ((items.filter fun x => name x = k).map weight).sum).sum =
      (items.map weight).sum := by
  induction items with
  | nil => simp
  | cons x rest ih =>
    obtain ⟨hx, hrest⟩ := List.forall_mem_cons.mp hitems
    -- The item is added under its own name, which is there once, and under no other.
    have hsplit : ∀ k, (((x :: rest).filter fun y => name y = k).map weight).sum =
        (if name x = k then weight x else 0) +
          ((rest.filter fun y => name y = k).map weight).sum := by
      intro k
      by_cases hk : name x = k
      · simp [hk]
      · simp [hk]
    have hown : (names.map fun k => if name x = k then weight x else 0).sum = weight x := by
      rw [List.sum_map_eq_nsmul_single (name x), List.count_eq_one_of_mem hnames hx, one_nsmul,
        if_pos rfl]
      intro k hk _
      exact if_neg (Ne.symm hk)
    simp only [hsplit, List.sum_map_add, hown, ih hrest, List.map_cons, List.sum_cons]

theorem values_group (name : β → String) (items : List β) :
    (group name items).values =
      (group name items).keys.map fun k => items.filter fun x => name x = k := by
  rw [values_eq _ []]
  simp only [getD_get?_group]

/-- Every item is in one of the groups. -/
theorem flatten_values_group (name : β → String) (items : List β) :
    (group name items).values.flatten.Perm items := by
  have hsingle : ∀ l : List β, (l.map fun x => ({x} : Multiset β)).sum = l := by
    intro l
    rw [← Multiset.sum_coe, ← Multiset.map_coe, Multiset.sum_map_singleton]
  have hsum := sum_by_name (group name items).keys_nodup (fun x => ({x} : Multiset β))
    fun x hx => mem_keys_group.mpr ⟨x, hx, rfl⟩
  rw [values_group, ← Multiset.coe_eq_coe, ← Multiset.coe_join]
  simp only [hsingle] at hsum
  rw [← hsum, ← Multiset.sum_coe, List.map_map]
  rfl

/-- A group is made of the items of a name that occurs. -/
theorem filter_ne_nil_of_mem_keys {k : String} (h : k ∈ (group name items).keys) :
    items.filter (fun x => name x = k) ≠ [] := by
  obtain ⟨x, hx, hname⟩ := mem_keys_group.mp h
  exact List.ne_nil_of_mem (List.mem_filter.mpr ⟨hx, by simpa using hname⟩)

theorem get?_group_of_mem {k : String} (h : k ∈ (group name items).keys) :
    (group name items).get? k = some (items.filter fun x => name x = k) := by
  rw [get?_group, if_neg (filter_ne_nil_of_mem_keys h)]

theorem ne_nil_of_mem_values_group {xs : List β} (h : xs ∈ (group name items).values) :
    xs ≠ [] := by
  rw [values_group, List.mem_map] at h
  obtain ⟨k, hk, rfl⟩ := h
  exact filter_ne_nil_of_mem_keys hk

/-- What is folded up group by group can be folded up as the items come. -/
theorem map_foldl_group (f : γ → β → γ) (z : γ) (name : β → String) (items : List β) :
    (group name items).map (List.foldl f z) =
      items.foldl (fun m x => m.alter (name x) fun v => f (v.getD z) x) empty := by
  induction items using List.reverseRecOn with
  | nil => rfl
  | append_singleton items x ih =>
    rw [List.foldl_concat, ← ih, group_concat]
    refine ext_get? fun k => ?_
    rw [get?_map, alter, alter]
    by_cases hk : k = name x
    · subst hk
      rw [get?_insert_self, get?_insert_self, get?_map, Option.map_some, List.foldl_concat]
      cases (group name items).get? (name x) <;> rfl
    · rw [get?_insert_of_ne _ hk, get?_insert_of_ne _ hk, get?_map]

end Group

end PerfDrift.KeyMap
