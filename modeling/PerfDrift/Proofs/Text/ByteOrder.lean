import Mathlib.Data.String.Basic
import Mathlib.Tactic.SplitIfs

/-! The order of texts is the order of their bytes.

Texts are compared character by character, by code point. In UTF-8 that is also the order of
the bytes (`bytes_lt_iff`): of two characters the smaller one has the smaller bytes, whatever
comes after them (`utf8EncodeChar_lt`). -/
namespace PerfDrift.Text

/-- The bytes of a text in UTF-8. -/
def bytes (s : String) : List UInt8 := s.toUTF8.data.toList

theorem bytes_eq (s : String) : bytes s = s.toList.flatMap String.utf8EncodeChar := by
  rw [bytes, String.toUTF8_eq_toByteArray, ← String.ofList_toList (s := s),
    String.toByteArray_ofList, String.toList_ofList]
  exact List.toList_data_toByteArray

theorem val_toNat_lt (c : Char) : c.val.toNat < 0x110000 := by
  rcases c.valid with h | h
  · exact h.trans (by decide)
  · exact h.2

/-- The bytes of a smaller character are smaller at the first place where they differ, and
there is one. -/
theorem utf8EncodeChar_lt {c d : Char} (h : c < d) (xs ys : List UInt8) :
    String.utf8EncodeChar c ++ xs < String.utf8EncodeChar d ++ ys := by
  have hlt : c.val.toNat < d.val.toNat := h
  have hd := val_toNat_lt d
  simp only [String.utf8EncodeChar]
  generalize c.val.toNat = m at hlt
  generalize d.val.toNat = n at hlt hd
  -- one case for each number of bytes of either; a longer one has the greater first byte
  split_ifs <;>
    simp only [List.cons_append, List.nil_append, List.cons_lt_cons_iff, UInt8.lt_iff_toNat_lt,
      ← UInt8.toNat_inj, UInt8.toNat_ofNat'] <;>
    simp (disch := omega) only [Nat.mod_eq_of_lt] <;> omega

theorem flatMap_utf8EncodeChar_lt {cs ds : List Char} (h : cs < ds) :
    cs.flatMap String.utf8EncodeChar < ds.flatMap String.utf8EncodeChar := by
  induction h with
  | @nil d ds =>
    have hne : String.utf8EncodeChar d ≠ [] := by
      rw [← List.length_pos_iff, String.length_utf8EncodeChar]
      exact d.utf8Size_pos
    obtain ⟨b, bs, hb⟩ := List.exists_cons_of_ne_nil hne
    rw [List.flatMap_nil, List.flatMap_cons, hb]
    exact List.nil_lt_cons b _
  | rel hcd => exact utf8EncodeChar_lt hcd _ _
  | cons _ ih => exact List.append_left_lt ih

/-- A text comes before another one exactly if its bytes do. -/
theorem bytes_lt_iff {s t : String} : bytes s < bytes t ↔ s < t := by
  have hmono : ∀ {s t : String}, s < t → bytes s < bytes t := by
    intro s t h
    rw [bytes_eq, bytes_eq]
    exact flatMap_utf8EncodeChar_lt (String.lt_iff_toList_lt.mp h)
  refine ⟨fun h => ?_, hmono⟩
  rcases lt_trichotomy s t with hst | rfl | hts
  · exact hst
  · exact absurd h (List.lt_irrefl _)
  · exact absurd (hmono hts) (List.lt_asymm h)

theorem bytes_le_iff {s t : String} : bytes s ≤ bytes t ↔ s ≤ t := by
  rw [← List.not_lt, bytes_lt_iff, String.not_lt]

end PerfDrift.Text
