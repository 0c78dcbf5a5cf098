/-! Maps from text, listed in the order of their keys.

Locations, versions and paths are looked up by name and reported in byte order.
A `KeyMap` is its bindings in strictly ascending key order: one binding a key, and
one list for each content, so two maps are equal when they bind alike. The order of
characters by code point is the order of UTF-8 bytes.

`get?_insert_self` and `get?_insert_of_ne` say what a look-up finds after a key is
bound. -/
namespace PerfDrift

/-- The bindings with `k` bound to `v`. -/
def placeKey {β : Type} (k : String) (v : β) : List (String × β) → List (String × β)
  | [] => [(k, v)]
  | (k', v') :: rest =>
    if k < k' then (k, v) :: (k', v') :: rest
    else if k = k' then (k, v) :: rest
    else (k', v') :: placeKey k v rest

theorem mem_placeKey {β : Type} {k : String} {v : β} {x : String × β} {l : List (String × β)}
    (h : x ∈ placeKey k v l) : x = (k, v) ∨ x ∈ l := by
  induction l with
  | nil => simp_all [placeKey]
  | cons y rest ih =>
    rw [placeKey] at h
    split at h
    · rcases List.mem_cons.mp h with rfl | h
      · exact .inl rfl
      · exact .inr h
    · split at h
      · rcases List.mem_cons.mp h with rfl | h
        · exact .inl rfl
        · exact .inr (List.mem_cons_of_mem _ h)
      · rcases List.mem_cons.mp h with rfl | h
        · exact .inr List.mem_cons_self
        · exact (ih h).imp_right (List.mem_cons_of_mem _)

theorem lt_of_not_lt_of_ne {a b : String} (h : ¬a < b) (hne : a ≠ b) : b < a := by
  false_or_by_contra
  rename_i hba
  exact hne (String.le_antisymm (String.not_lt.mp hba) (String.not_lt.mp h))

theorem placeKey_sorted {β : Type} (k : String) (v : β) {l : List (String × β)}
    (h : l.Pairwise fun a b => a.1 < b.1) : (placeKey k v l).Pairwise fun a b => a.1 < b.1 := by
  induction l with
  | nil => simp [placeKey]
  | cons y rest ih =>
    obtain ⟨hy, hrest⟩ := List.pairwise_cons.mp h
    rw [placeKey]
    split
    · next hk =>
      refine List.pairwise_cons.mpr ⟨fun z hz => ?_, h⟩
      rcases List.mem_cons.mp hz with rfl | hz
      · exact hk
      · exact String.lt_trans hk (hy z hz)
    · next hk =>
      split
      · next he => exact List.pairwise_cons.mpr ⟨fun z hz => he ▸ hy z hz, hrest⟩
      · next he =>
        refine List.pairwise_cons.mpr ⟨fun z hz => ?_, ih hrest⟩
        rcases mem_placeKey hz with rfl | hz
        · exact lt_of_not_lt_of_ne hk he
        · exact hy z hz

/-- A map from text to `β`. -/
structure KeyMap (β : Type) where
  entries : List (String × β)
  sorted : entries.Pairwise fun a b => a.1 < b.1

namespace KeyMap
variable {β : Type}

def empty : KeyMap β := ⟨[], .nil⟩

instance : Inhabited (KeyMap β) := ⟨empty⟩

/-- The value bound to a key. -/
def get? (m : KeyMap β) (k : String) : Option β :=
  (m.entries.find? fun e => e.1 = k).map (·.2)

def contains (m : KeyMap β) (k : String) : Bool := (m.get? k).isSome

/-- The map with `k` bound to `v`, whatever it was bound to before. -/
def insert (m : KeyMap β) (k : String) (v : β) : KeyMap β :=
  ⟨placeKey k v m.entries, placeKey_sorted k v m.sorted⟩

/-- The map with `k` bound to what `f` makes of its value so far. -/
def alter (m : KeyMap β) (k : String) (f : Option β → β) : KeyMap β :=
  m.insert k (f (m.get? k))

/-- The keys in ascending order. -/
def keys (m : KeyMap β) : List String := m.entries.map (·.1)

/-- The values in the order of their keys. -/
def values (m : KeyMap β) : List β := m.entries.map (·.2)

def size (m : KeyMap β) : Nat := m.entries.length

/-- The map with every value replaced by what `f` makes of it. -/
def map {γ : Type} (f : β → γ) (m : KeyMap β) : KeyMap γ :=
  ⟨m.entries.map fun e => (e.1, f e.2), List.pairwise_map.mpr m.sorted⟩

/-- The keys that two maps share, each with its value in both. -/
def meet {γ : Type} (m : KeyMap β) (n : KeyMap γ) : List (String × β × γ) :=
  m.entries.filterMap fun e => (n.get? e.1).map fun v => (e.1, e.2, v)

/-- The items by name, those of one name in their order in the list. -/
def group (name : β → String) (items : List β) : KeyMap (List β) :=
  items.foldl (fun m x => m.alter (name x) fun xs => xs.getD [] ++ [x]) empty

/-- The map of a list of bindings; of two for one key the later one counts. -/
def ofList (l : List (String × β)) : KeyMap β := l.foldl (fun m e => m.insert e.1 e.2) empty

/-- The names of a list in ascending order, each once. -/
def namesOf (l : List String) : List String := (ofList (l.map fun k => (k, ()))).keys

theorem find?_placeKey_self (k : String) (v : β) (l : List (String × β)) :
    ((placeKey k v l).find? fun e => e.1 = k) = some (k, v) := by
  induction l with
  | nil => simp [placeKey]
  | cons y rest ih =>
    rw [placeKey]
    split
    · simp
    · split
      · simp
      · next he => simpa [show y.1 ≠ k from fun h => he h.symm] using ih

theorem find?_placeKey_of_ne {k k' : String} (h : k' ≠ k) (v : β) (l : List (String × β)) :
    ((placeKey k v l).find? fun e => e.1 = k') = l.find? fun e => e.1 = k' := by
  induction l with
  | nil => simp [placeKey, h.symm]
  | cons y rest ih =>
    rw [placeKey]
    split
    · simp [h.symm]
    · split
      · next he => simp [h.symm, show y.1 ≠ k' from fun e => h (e ▸ he.symm)]
      · by_cases hy : y.1 = k'
        · subst hy
          simp
        · simpa [hy] using ih

@[simp] theorem get?_empty (k : String) : (empty : KeyMap β).get? k = none := rfl

@[simp] theorem get?_insert_self (m : KeyMap β) (k : String) (v : β) :
    (m.insert k v).get? k = some v := by
  simp [get?, insert, find?_placeKey_self]

theorem get?_insert_of_ne (m : KeyMap β) {k k' : String} (h : k' ≠ k) (v : β) :
    (m.insert k v).get? k' = m.get? k' := by
  simp [get?, insert, find?_placeKey_of_ne h]

theorem mem_keys_of_get? {m : KeyMap β} {k : String} {v : β} (h : m.get? k = some v) :
    k ∈ m.keys := by
  obtain ⟨e, he, -⟩ := Option.map_eq_some_iff.mp h
  have hk : e.1 = k := by simpa using List.find?_some he
  exact hk ▸ List.mem_map_of_mem (List.mem_of_find?_eq_some he)

theorem ext {m n : KeyMap β} (h : m.entries = n.entries) : m = n := by
  cases m
  cases n
  simp_all

end KeyMap
end PerfDrift
