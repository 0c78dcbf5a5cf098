import PerfDrift.Proofs.Document.Record
import PerfDrift.Toml.Value

/-! Tables as documents.

The document of a table is complete and has one member for every key, the document of the value
that the key is bound to (`lookup_memberDocuments`). So a decoder of records reads a table key by
key (`decode_table_iff`). -/
namespace PerfDrift

section Places
variable {β : Type} {k k' : String} {v : β} {l : List (String × β)}

/-- A look-up finds the first binding of a key. -/
theorem lookup_eq_find? (k : String) (l : List (String × β)) :
    l.lookup k = (l.find? fun e => e.1 = k).map (·.2) := by
  induction l with
  | nil => rfl
  | cons e l ih =>
    obtain ⟨k', v⟩ := e
    by_cases h : k = k'
    · simp [h]
    · have hbeq : (k == k') = false := beq_eq_false_iff_ne.mpr h
      rw [List.lookup_cons, hbeq, List.find?_cons_of_neg (by simpa using Ne.symm h)]
      exact ih

theorem lookup_placeKey_self : (placeKey k v l).lookup k = some v := by
  rw [lookup_eq_find?, KeyMap.find?_placeKey_self]
  rfl

theorem lookup_placeKey_of_ne (h : k' ≠ k) : (placeKey k v l).lookup k' = l.lookup k' := by
  rw [lookup_eq_find?, lookup_eq_find?, KeyMap.find?_placeKey_of_ne h]

end Places

namespace Toml
open Document

theorem memberDocuments_sorted (t : Table) :
    (memberDocuments t).Pairwise fun a b => a.1 < b.1 := by
  induction t with
  | nil => rw [memberDocuments]; exact .nil
  | cons e t ih =>
    rw [memberDocuments]
    exact placeKey_sorted _ _ ih

/-- A member for every key, with the document of its value. -/
theorem lookup_memberDocuments (t : Table) (key : String) :
    (memberDocuments t).lookup key = (t.get? key).map Value.toDocument := by
  induction t with
  | nil => rw [memberDocuments]; rfl
  | cons e t ih =>
    obtain ⟨k, v⟩ := e
    rw [memberDocuments, Table.get?, List.lookup_cons]
    by_cases h : key = k
    · subst h
      rw [lookup_placeKey_self]
      simp
    · have hbeq : (key == k) = false := beq_eq_false_iff_ne.mpr h
      rw [lookup_placeKey_of_ne h, hbeq]
      exact ih

theorem isComplete_ofList {ds : List Document} :
    (ofList ds).isComplete ↔ ∀ d ∈ ds, d.isComplete := by
  have hitems : itemsComplete ds ↔ ∀ d ∈ ds, d.isComplete := by
    induction ds with
    | nil => simp [itemsComplete]
    | cons d ds ih => simp [itemsComplete, ih]
  simpa [ofList, isComplete] using hitems

theorem isComplete_ofMembers {ms : List (String × Document)} :
    (ofMembers ms).isComplete ↔ ∀ m ∈ ms, m.2.isComplete := by
  have hmembers : membersComplete (ms.map (Prod.map .text id)) ↔ ∀ m ∈ ms, m.2.isComplete := by
    induction ms with
    | nil => simp [membersComplete]
    | cons m ms ih =>
      obtain ⟨name, d⟩ := m
      rw [List.map_cons, Prod.map_apply, membersComplete, Bool.and_eq_true, ih,
        List.forall_mem_cons, id]
  simpa [ofMembers_eq, isComplete] using hmembers

mutual

/-- No part of a value is missing from its document. -/
theorem isComplete_toDocument : ∀ v : Value, v.toDocument.isComplete
  | .string s => rfl
  | .integer i => rfl
  | .float x => rfl
  | .boolean b => rfl
  | .moment m => rfl
  | .array items => by
    rw [Value.toDocument]
    exact isComplete_ofList.mpr (isComplete_itemDocuments items)
  | .table entries => by
    rw [Value.toDocument]
    exact isComplete_ofMembers.mpr (isComplete_memberDocuments entries)

theorem isComplete_itemDocuments : ∀ (items : List Value), ∀ d ∈ itemDocuments items, d.isComplete
  | [], d, hd => by simp [itemDocuments] at hd
  | v :: rest, d, hd => by
    rw [itemDocuments] at hd
    rcases List.mem_cons.mp hd with rfl | hd
    · exact isComplete_toDocument v
    · exact isComplete_itemDocuments rest d hd

theorem isComplete_memberDocuments :
    ∀ (entries : List (String × Value)), ∀ m ∈ memberDocuments entries, m.2.isComplete
  | [], m, hm => by simp [memberDocuments] at hm
  | (key, v) :: rest, m, hm => by
    rw [memberDocuments] at hm
    rcases mem_placeKey hm with rfl | hm
    · exact isComplete_toDocument v
    · exact isComplete_memberDocuments rest m hm

end

/-- A decoder of records reads a table key by key. -/
theorem decode_table_iff {α : Type} {decode : Decoder α} {slots : List (Slot α)}
    (hdecode : DecodesBy decode slots) (t : Table) (x : α) :
    decode (Value.table t).toDocument = .ok x ↔
      Slot.Fill slots (fun key => (t.get? key).map Value.toDocument) x := by
  have hlegible : Legible (slots.map (·.name)) ((memberDocuments t).map (Prod.map .text id)) := by
    refine legible_of_nodup (fun m hm _ => isComplete_memberDocuments t m hm) ?_
    have hsorted : ((memberDocuments t).map (·.1)).Pairwise (· < ·) :=
      List.pairwise_map.mpr (memberDocuments_sorted t)
    exact hsorted.imp fun hlt => String.ne_of_lt hlt
  have hlookup : memberNamed ((memberDocuments t).map (Prod.map .text id)) =
      fun key => (t.get? key).map Value.toDocument := by
    funext key
    rw [memberNamed_ofMembers, lookup_memberDocuments]
  rw [Value.toDocument, ofMembers_eq, hdecode, ← hlookup]
  exact ⟨fun h => h.2.2, fun h => ⟨rfl, hlegible, h⟩⟩

end Toml
end PerfDrift
