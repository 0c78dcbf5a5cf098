import Mathlib.Tactic.SplitIfs
import PerfDrift.Json.Reader
import PerfDrift.Json.Writer

/-! Texts and numbers in JSON.

Every character of a text is written so that the reader finds one unit for it, its code point,
and no character is half of a surrogate pair: a text is read back (`text_escaped`). A number is
read to where its digits end, whatever follows that no numeral goes on with
(`numberAfter_append`). -/
namespace PerfDrift.Json

/-- A unit before those of the characters that follow. -/
def consUnit (u : Nat) : List Nat × List Char → List Nat × List Char
  | (us, rest) => (u :: us, rest)

/-! ### Characters -/

theorem textUnits_letter {e : Char} {u : Nat} {cs : List Char} (hletter : escaped? e = some u) :
    textUnits ('\\' :: e :: cs) = (textUnits cs).map (consUnit u) := by
  have hu : e ≠ 'u' := by
    rintro rfl
    cases hletter
  rw [textUnits, hletter]
  · cases textUnits cs <;> rfl
  · rintro a b c d rest he -
    exact hu he

/-- A character without a letter of its own is written by two zeros and two digits. -/
theorem hexOf_control :
    ∀ n < 0x20,
      List.replicate (4 - (Text.hexOf n).length) '0' ++ Text.hexOf n =
          ['0', '0', Nat.digitChar (n / 16), Nat.digitChar (n % 16)] ∧
        fourHex '0' '0' (Nat.digitChar (n / 16)) (Nat.digitChar (n % 16)) = some n := by
  decide

theorem textUnits_hex {a b c d : Char} {u : Nat} {cs : List Char}
    (hhex : fourHex a b c d = some u) :
    textUnits ('\\' :: 'u' :: a :: b :: c :: d :: cs) = (textUnits cs).map (consUnit u) := by
  rw [textUnits, hhex]
  cases textUnits cs <;> rfl

theorem textUnits_plain {c : Char} {cs : List Char} (hquote : c ≠ '"') (hslash : c ≠ '\\')
    (hcontrol : ¬c.toNat < 0x20) :
    textUnits (c :: cs) = (textUnits cs).map (consUnit c.toNat) := by
  rw [textUnits, if_neg hcontrol]
  · cases textUnits cs <;> rfl
  · exact hquote
  · rintro a b d e rest he -
    exact hslash he
  · rintro e rest he -
    exact hslash he

/-- A character is read as its code point, however it is written. -/
theorem textUnits_escapeChar (c : Char) (cs : List Char) :
    textUnits (escapeChar c ++ cs) = (textUnits cs).map (consUnit c.toNat) := by
  unfold escapeChar
  split_ifs with hquote hslash hback hfeed hline hreturn htab hcontrol
  · subst hquote
    exact textUnits_letter rfl
  · subst hslash
    exact textUnits_letter rfl
  · subst hback
    exact textUnits_letter rfl
  · subst hfeed
    exact textUnits_letter rfl
  · subst hline
    exact textUnits_letter rfl
  · subst hreturn
    exact textUnits_letter rfl
  · subst htab
    exact textUnits_letter rfl
  · obtain ⟨hdigits, hunit⟩ := hexOf_control c.toNat hcontrol
    dsimp only
    rw [List.append_assoc ['\\', 'u'], hdigits]
    exact textUnits_hex hunit
  · exact textUnits_plain hquote hslash hcontrol

/-! ### Texts -/

theorem textUnits_escaped (cs rest : List Char) :
    textUnits (cs.flatMap escapeChar ++ '"' :: rest) = some (cs.map Char.toNat, rest) := by
  induction cs with
  | nil => rfl
  | cons c cs ih =>
    rw [List.flatMap_cons, List.append_assoc, textUnits_escapeChar, ih]
    rfl

/-- No character is half of a surrogate pair. -/
theorem not_isHigh_or_isLow (c : Char) : isHigh c.toNat = false ∧ isLow c.toNat = false := by
  have hvalid : c.toNat < 0xD800 ∨ 0xDFFF < c.toNat ∧ c.toNat < 0x110000 := c.valid
  unfold isHigh isLow
  simp only [Bool.and_eq_false_iff, decide_eq_false_iff_not]
  omega

theorem joinUnits_toNat (cs : List Char) : joinUnits (cs.map Char.toNat) = some cs := by
  induction cs with
  | nil => rfl
  | cons c cs ih =>
    obtain ⟨hhigh, hlow⟩ := not_isHigh_or_isLow c
    cases cs with
    | nil => simp [joinUnits, hhigh, hlow]
    | cons d cs =>
      simp only [List.map_cons] at ih ⊢
      rw [joinUnits, hhigh, hlow, ih]
      simp

/-- What is written between the quotes of a text is read as the text. -/
theorem text_escaped (s : String) (rest : List Char) :
    text (s.toList.flatMap escapeChar ++ '"' :: rest) = some (some s, rest) := by
  unfold text
  rw [textUnits_escaped]
  simp [joinUnits_toNat]

/-! ### Numerals -/

/-- No numeral goes on here. -/
def Delimited (cs : List Char) : Prop :=
  ∀ c ∈ cs.head?, c.isDigit = false ∧ c ≠ '.' ∧ c ≠ 'e' ∧ c ≠ 'E'

section Numerals
variable {cs rest tail : List Char}

theorem takeDigits_of_delimited (h : Delimited tail) : takeDigits tail = ([], tail) := by
  cases tail with
  | nil => rfl
  | cons c tail =>
    obtain ⟨hdigit, -⟩ := h c rfl
    simp [takeDigits, hdigit]

theorem takeDigits_append (h : Delimited tail) :
    takeDigits (cs ++ tail) = ((takeDigits cs).1, (takeDigits cs).2 ++ tail) := by
  induction cs with
  | nil => exact takeDigits_of_delimited h
  | cons c cs ih =>
    unfold takeDigits at ih ⊢
    by_cases hdigit : c.isDigit
    · rw [Prod.mk.injEq] at ih
      simp only [List.cons_append, List.takeWhile_cons, List.dropWhile_cons, hdigit, if_true,
        List.map_cons, ih.1, ih.2]
    · simp [hdigit]

theorem wholePart_append {ds : List Nat} (h : Delimited tail)
    (hcs : wholePart cs = some (ds, rest)) :
    wholePart (cs ++ tail) = some (ds, rest ++ tail) := by
  unfold wholePart at hcs ⊢
  rw [takeDigits_append h]
  generalize takeDigits cs = taken at hcs
  obtain ⟨ds', rest'⟩ := taken
  split at hcs <;> simp_all

theorem fractionPart_append {ds : Option (List Nat)} (h : Delimited tail)
    (hcs : fractionPart cs = some (ds, rest)) :
    fractionPart (cs ++ tail) = some (ds, rest ++ tail) := by
  unfold fractionPart at hcs
  split at hcs
  · next cs =>
    rw [List.cons_append, fractionPart, takeDigits_append h]
    generalize takeDigits cs = taken at hcs
    obtain ⟨ds', rest'⟩ := taken
    split at hcs <;> simp_all
  · next hpoint =>
    cases hcs
    cases cs with
    | nil =>
      rw [List.nil_append, fractionPart]
      rintro cs rfl
      exact (h '.' rfl).2.1 rfl
    | cons c cs =>
      rw [List.cons_append, fractionPart]
      rintro cs' he
      cases he
      exact hpoint _ rfl

theorem exponentDigits_append {down : Bool} {e : Option (Bool × Nat)} (h : Delimited tail)
    (hcs : exponentDigits down cs = some (e, rest)) :
    exponentDigits down (cs ++ tail) = some (e, rest ++ tail) := by
  unfold exponentDigits at hcs ⊢
  rw [takeDigits_append h]
  generalize takeDigits cs = taken at hcs
  obtain ⟨ds', rest'⟩ := taken
  split at hcs <;> simp_all

theorem exponentPart_append {e : Option (Bool × Nat)} (h : Delimited tail)
    (hcs : exponentPart cs = some (e, rest)) :
    exponentPart (cs ++ tail) = some (e, rest ++ tail) := by
  cases cs with
  | nil =>
    cases hcs
    cases tail with
    | nil => rfl
    | cons c tail =>
      obtain ⟨-, -, hlower, hupper⟩ := h c rfl
      simp [exponentPart, hlower, hupper]
  | cons c cs =>
    unfold exponentPart at hcs ⊢
    simp only [List.cons_append] at hcs ⊢
    split_ifs at hcs ⊢ with hletter
    · split at hcs
      · exact exponentDigits_append h hcs
      · exact exponentDigits_append h hcs
      · next hplus hminus =>
        cases cs with
        | nil => cases hcs
        | cons d cs =>
          rw [List.cons_append]
          split
          · next he =>
            cases he
            exact absurd rfl (hplus _)
          · next he =>
            cases he
            exact absurd rfl (hminus _)
          · exact exponentDigits_append h hcs
    · cases hcs
      rfl

theorem numeral_append {negative : Bool} {n : Numeral} (h : Delimited tail)
    (hcs : numeral negative cs = some (n, rest)) :
    numeral negative (cs ++ tail) = some (n, rest ++ tail) := by
  unfold numeral at hcs ⊢
  simp only [Option.bind_eq_bind, Option.bind_eq_some_iff, Prod.exists] at hcs ⊢
  obtain ⟨ds, cs', hwhole, f, cs'', hfraction, e, cs''', hexponent, ⟨⟩⟩ := hcs
  exact ⟨_, _, wholePart_append h hwhole, _, _, fractionPart_append h hfraction, _, _,
    exponentPart_append h hexponent, rfl⟩

end Numerals

/-! ### Scalars -/

/-- What becomes of the characters after the sign of a number. -/
def numberAfter (negative : Bool) (cs : List Char) : Document × Option (List Char) :=
  match numeral negative cs with
  | some (n, rest) => (numberOf n, some rest)
  | none => (.broken, none)

theorem numberAfter_append {negative : Bool} {d : Document} {cs rest tail : List Char}
    (h : Delimited tail) (hcs : numberAfter negative cs = (d, some rest)) :
    numberAfter negative (cs ++ tail) = (d, some (rest ++ tail)) := by
  unfold numberAfter at hcs ⊢
  split at hcs
  · next m rest' hm =>
    obtain ⟨hnumber, hrest⟩ := Prod.mk.inj hcs
    rw [numeral_append h hm]
    exact Prod.ext hnumber (congrArg some (Option.some.inj hrest ▸ rfl))
  · cases hcs

theorem scalar_digit {c : Char} {cs : List Char} (h : c.isDigit) :
    scalar (c :: cs) = numberAfter false (c :: cs) := by
  have hne : ∀ d : Char, d.isDigit = false → c ≠ d := by
    rintro d hd rfl
    rw [h] at hd
    cases hd
  unfold scalar
  split
  · next he => exact absurd (List.cons.inj he).1 (hne _ rfl)
  · next he => exact absurd (List.cons.inj he).1 (hne _ rfl)
  · next he => exact absurd (List.cons.inj he).1 (hne _ rfl)
  · next he => exact absurd (List.cons.inj he).1 (hne _ rfl)
  · next he => exact absurd (List.cons.inj he).1 (hne _ rfl)
  · rfl

end PerfDrift.Json
