import Mathlib.Data.List.TakeWhile
import PerfDrift.Text.Blank

/-! How names are spelt.

A name is spelt by every text that has white space around it and writes its letters in one way or
another (`Spells`). It is the name that is left when the white space is taken away and the letters
are written in one way (`map_trimChars_eq_iff`), as long as the name has no white space itself and
no letter is written as white space. -/
namespace PerfDrift.Text

/-- The text is the word, but for white space around it and for what `letter` makes of its
characters. -/
def Spells (letter : Char → Char) (word s : String) : Prop :=
  ∃ before core after, s.toList = before ++ core ++ after ∧
    (∀ c ∈ before, isBlank c) ∧ (∀ c ∈ after, isBlank c) ∧ core.map letter = word.toList

/-! ### White space around a text -/

theorem dropTrailing_split (cs : List Char) :
    ∃ after, cs = dropTrailing cs ++ after ∧ ∀ c ∈ after, isBlank c := by
  refine ⟨(cs.reverse.takeWhile isBlank).reverse, ?_, fun c hc => ?_⟩
  · rw [dropTrailing, ← List.reverse_append, List.takeWhile_append_dropWhile, List.reverse_reverse]
  · exact List.mem_takeWhile_imp (List.mem_reverse.mp hc)

/-- What is trimmed is white space, and stands at the ends. -/
theorem trimChars_split (cs : List Char) :
    ∃ before after, cs = before ++ trimChars cs ++ after ∧
      (∀ c ∈ before, isBlank c) ∧ ∀ c ∈ after, isBlank c := by
  obtain ⟨after, hafter, hblank⟩ := dropTrailing_split (cs.dropWhile isBlank)
  refine ⟨cs.takeWhile isBlank, after, ?_, fun c hc => List.mem_takeWhile_imp hc, hblank⟩
  rw [trimChars, List.append_assoc, ← hafter, List.takeWhile_append_dropWhile]

theorem dropWhile_isBlank_append {blanks cs : List Char} (hblanks : ∀ c ∈ blanks, isBlank c)
    (hcs : ∀ c ∈ cs, ¬isBlank c) (hne : cs ≠ []) (rest : List Char) :
    (blanks ++ (cs ++ rest)).dropWhile isBlank = cs ++ rest := by
  obtain ⟨c, cs, rfl⟩ := List.exists_cons_of_ne_nil hne
  rw [List.dropWhile_append_of_pos hblanks, List.cons_append,
    List.dropWhile_cons_of_neg (hcs c List.mem_cons_self)]

/-- White space around a text without any is trimmed. -/
theorem trimChars_padded {before core after : List Char} (hbefore : ∀ c ∈ before, isBlank c)
    (hafter : ∀ c ∈ after, isBlank c) (hcore : ∀ c ∈ core, ¬isBlank c) :
    trimChars (before ++ core ++ after) = core := by
  by_cases hempty : core = []
  · -- one run of white space, and all of it is trimmed from the left
    subst hempty
    have hall : ∀ c ∈ before ++ [] ++ after, isBlank c := by
      simpa [or_imp, forall_and] using ⟨hbefore, hafter⟩
    rw [trimChars, List.dropWhile_eq_nil_iff.mpr hall]
    rfl
  · have htrailing : ∀ c ∈ after.reverse, isBlank c := fun c hc =>
      hafter c (List.mem_reverse.mp hc)
    have hreverse : ∀ c ∈ core.reverse, ¬isBlank c := fun c hc => hcore c (List.mem_reverse.mp hc)
    have hdrop := dropWhile_isBlank_append htrailing hreverse (by simpa using hempty) []
    rw [List.append_nil] at hdrop
    rw [trimChars, List.append_assoc, dropWhile_isBlank_append hbefore hcore hempty, dropTrailing,
      List.reverse_append, hdrop, List.reverse_reverse]

/-! ### Words -/

/-- A word is what is left of the texts that spell it. -/
theorem map_trimChars_eq_iff {letter : Char → Char} (hletter : ∀ c, isBlank (letter c) = isBlank c)
    {word s : String} (hword : word.toList.any isBlank = false) :
    (trimChars s.toList).map letter = word.toList ↔ Spells letter word s := by
  constructor
  · intro h
    obtain ⟨before, after, hsplit, hbefore, hafter⟩ := trimChars_split s.toList
    exact ⟨before, _, after, hsplit, hbefore, hafter, h⟩
  · rintro ⟨before, core, after, hsplit, hbefore, hafter, hcore⟩
    have hplain : ∀ c ∈ core, ¬isBlank c := by
      intro c hc
      rw [← hletter c]
      exact List.any_eq_false.mp hword (letter c) (hcore ▸ List.mem_map_of_mem hc)
    rw [hsplit, trimChars_padded hbefore hafter hplain, hcore]

/-! ### Lower case -/

theorem isBlank_eq_false {c : Char} (h : 65 ≤ c.toNat) (h' : c.toNat ≤ 122) :
    isBlank c = false := by
  simp only [isBlank, Bool.or_eq_false_iff, Bool.and_eq_false_iff, decide_eq_false_iff_not,
    beq_eq_false_iff_ne, ne_eq]
  omega

/-- Letters change case, white space does not. -/
theorem isBlank_toLower (c : Char) : isBlank c.toLower = isBlank c := by
  by_cases h : c.val ≥ 'A'.val ∧ c.val ≤ 'Z'.val
  · have hlow : 65 ≤ c.toNat := h.1
    have hhigh : c.toNat ≤ 90 := h.2
    have hval : c.toLower.val = c.val + 32 := congrArg Char.val (dif_pos h)
    have hlower : c.toLower.toNat = c.toNat + 32 := by
      change c.toLower.val.toNat = c.val.toNat + 32
      rw [hval, UInt32.toNat_add]
      exact Nat.mod_eq_of_lt (by change c.toNat + 32 < 4294967296; omega)
    rw [isBlank_eq_false (by omega) (by omega), isBlank_eq_false hlow (by omega)]
  · have hsame : c.toLower = c := dif_neg h
    rw [hsame]

end PerfDrift.Text
