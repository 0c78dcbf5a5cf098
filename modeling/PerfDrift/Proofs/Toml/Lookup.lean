import PerfDrift.Toml.Value

/-! Looking up dotted keys.

A dotted key runs through the parts between its dots, and two keys that are joined by a dot run
through the parts of the one and then through those of the other (`splitKey_dotted`), also where
parts are empty. A path through nested tables can be broken off at any table on it
(`follow?_append`). So a look-up goes on from where another one ends (`lookup_dotted`). -/
namespace PerfDrift.Toml

/-! ### Parts of keys -/

theorem dotParts_ne_nil (cs : List Char) : dotParts cs ≠ [] := by
  cases cs with
  | nil => simp [dotParts]
  | cons c cs =>
    rw [dotParts]
    split
    · simp
    · split <;> simp

/-- A dot ends a part, whatever stands before and behind it. -/
theorem dotParts_append (cs ds : List Char) :
    dotParts (cs ++ '.' :: ds) = dotParts cs ++ dotParts ds := by
  induction cs with
  | nil => simp [dotParts]
  | cons c cs ih =>
    rw [List.cons_append, dotParts, dotParts]
    by_cases hdot : c = '.'
    · rw [if_pos hdot, if_pos hdot, ih, List.cons_append]
    · rw [if_neg hdot, if_neg hdot, ih]
      obtain ⟨part, parts, hparts⟩ := List.exists_cons_of_ne_nil (dotParts_ne_nil cs)
      rw [hparts]
      rfl

theorem dotParts_of_not_mem {cs : List Char} (h : '.' ∉ cs) : dotParts cs = [cs] := by
  induction cs with
  | nil => rfl
  | cons c cs ih =>
    rw [List.mem_cons, not_or] at h
    rw [dotParts, if_neg (Ne.symm h.1), ih h.2]

theorem splitKey_ne_nil (key : String) : splitKey key ≠ [] := by
  simpa [splitKey] using dotParts_ne_nil key.toList

theorem splitKey_dotted (p q : String) : splitKey (p ++ "." ++ q) = splitKey p ++ splitKey q := by
  have hchars : (p ++ "." ++ q).toList = p.toList ++ '.' :: q.toList := by simp
  rw [splitKey, hchars, dotParts_append, List.map_append]
  rfl

theorem splitKey_of_not_mem {key : String} (h : '.' ∉ key.toList) : splitKey key = [key] := by
  rw [splitKey, dotParts_of_not_mem h, List.map_singleton, String.ofList_toList]

/-! ### Paths -/

namespace Table

theorem follow?_cons (t : Table) (key : String) {path : List String} (h : path ≠ []) :
    t.follow? (key :: path) =
      match t.get? key with
      | some (.table inner) => follow? inner path
      | _ => none := by
  obtain ⟨next, rest, rfl⟩ := List.exists_cons_of_ne_nil h
  rfl

/-- A path goes on from the table that its first part leads to, and from nothing else. -/
theorem follow?_append (t : Table) {path rest : List String} (hpath : path ≠ [])
    (hrest : rest ≠ []) :
    t.follow? (path ++ rest) =
      match t.follow? path with
      | some (.table inner) => follow? inner rest
      | _ => none := by
  induction path generalizing t with
  | nil => exact absurd rfl hpath
  | cons key path ih =>
    by_cases hlast : path = []
    · subst hlast
      exact follow?_cons t key hrest
    · have hmore : path ++ rest ≠ [] := by simp [hlast]
      rw [List.cons_append, follow?_cons t key hmore, follow?_cons t key hlast]
      cases t.get? key with
      | none => rfl
      | some v =>
        cases v with
        | table inner => exact ih inner hlast
        | _ => rfl

/-- **A look-up goes on where another one ends.** Two keys joined by a dot find what the second
one finds in the table that the first one finds, and nothing if that finds nothing or no table;
both keys may hold dots and may be empty. A key without dots is a key of the table itself. -/
theorem lookup_dotted (t : Table) :
    (∀ p q : String, t.lookup (p ++ "." ++ q) =
        match t.lookup p with
        | some (.table inner) => lookup inner q
        | _ => none) ∧
      ∀ key : String, '.' ∉ key.toList → t.lookup key = t.get? key := by
  constructor
  · intro p q
    rw [lookup, splitKey_dotted]
    exact follow?_append t (splitKey_ne_nil p) (splitKey_ne_nil q)
  · intro key hkey
    rw [lookup, splitKey_of_not_mem hkey]
    rfl

/-- Tables three deep, one of them under the empty key; a key that holds a dot itself is not
found, and nothing is found below what is no table. -/
theorem lookup_dotted_nested :
    let t : Table :=
      [("a", .table [("", .table [("c", .integer 1)]), ("b", .string "text")]),
        ("a.b", .boolean true)]
    '.' ∉ "a".toList ∧ (t.lookup "a").isSome ∧
      t.lookup ("a." ++ "." ++ "c") = some (.integer 1) ∧
      t.lookup ("a" ++ "." ++ "b") = some (.string "text") ∧
      t.lookup ("a.b" ++ "." ++ "c") = none := by
  intro t
  obtain ⟨hdotted, hplain⟩ := lookup_dotted t
  refine ⟨by decide, ?_, ?_, ?_, ?_⟩
  · rw [hplain "a" (by decide)]
    rfl
  · rw [hdotted]
    rfl
  · rw [hdotted]
    rfl
  · rw [hdotted]
    rfl

end Table
end PerfDrift.Toml
