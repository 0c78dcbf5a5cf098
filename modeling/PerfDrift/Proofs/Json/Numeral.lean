import PerfDrift.Proofs.Json.Scalar

/-! Numbers are written as numerals.

Whatever digits a number has, its text is a whole part without needless zeros, maybe a point and
a fraction, maybe an exponent (`isNumeral_write`). So it is read to its end, as the number or as
another one, and what follows it is left alone (`scalar_numberText`). -/
namespace PerfDrift.Json

/-! ### Digits -/

/-- One digit or more. -/
structure Digits (cs : List Char) : Prop where
  ne_nil : cs ≠ []
  isDigit : ∀ c ∈ cs, c.isDigit

namespace Digits
variable {cs cs' : List Char}

theorem append (h : Digits cs) (h' : ∀ c ∈ cs', c.isDigit) : Digits (cs ++ cs') :=
  ⟨by simp [h.ne_nil], List.forall_mem_append.mpr ⟨h.isDigit, h'⟩⟩

theorem sublist (h : Digits cs) (hs : cs'.Sublist cs) (hne : cs' ≠ []) : Digits cs' :=
  ⟨hne, fun c hc => h.isDigit c (hs.subset hc)⟩

theorem head?_append (h : Digits cs) : (cs ++ cs').head? = cs.head? := by
  obtain ⟨c, cs, rfl⟩ := List.exists_cons_of_ne_nil h.ne_nil
  rfl

end Digits

theorem digitsOf_eq (n : Nat) : digitsOf n = Nat.toDigits 10 n := Nat.toList_repr

theorem digits_digitsOf (n : Nat) : Digits (digitsOf n) := by
  rw [digitsOf_eq]
  exact ⟨Nat.toDigits_ne_nil, fun c => Nat.isDigit_of_mem_toDigits (by decide) (by decide)⟩

theorem digitChar_ne_zero : ∀ n < 10, 0 < n → n.digitChar ≠ '0' := by
  decide

/-- Only zero is written with a zero in front. -/
theorem head?_digitsOf {n : Nat} (h : 0 < n) : (digitsOf n).head? ≠ some '0' := by
  induction n using Nat.strongRecOn with
  | _ n ih =>
    rw [digitsOf_eq]
    by_cases hlt : n < 10
    · rw [Nat.toDigits_of_lt_base hlt, List.head?_cons, ne_eq, Option.some.injEq]
      exact digitChar_ne_zero n hlt h
    · rw [Nat.toDigits_of_base_le (by decide) (Nat.not_lt.mp hlt), ← digitsOf_eq,
        (digits_digitsOf (n / 10)).head?_append]
      exact ih (n / 10) (by omega) (by omega)

/-! ### Parts of a numeral -/

/-- A whole part: it begins with a zero only if that is all there is. -/
structure IsWhole (cs : List Char) : Prop extends Digits cs where
  head : cs.head? = some '0' → cs = ['0']

def IsFraction (cs : List Char) : Prop := cs = [] ∨ ∃ ds, Digits ds ∧ cs = '.' :: ds

def IsExponent (cs : List Char) : Prop :=
  cs = [] ∨ ∃ sign ds, (sign = '+' ∨ sign = '-') ∧ Digits ds ∧ cs = 'e' :: sign :: ds

/-- A numeral without its sign. -/
def IsNumeral (cs : List Char) : Prop :=
  ∃ ws fs es, IsWhole ws ∧ IsFraction fs ∧ IsExponent es ∧ cs = ws ++ (fs ++ es)

section Parts
variable {cs ds ws fs es rest : List Char}

theorem isWhole_zero : IsWhole ['0'] where
  ne_nil := by simp
  isDigit := by simp
  head _ := rfl

theorem isWhole_of_head (h : Digits cs) (hhead : cs.head? ≠ some '0') : IsWhole cs where
  toDigits := h
  head h := absurd h hhead

theorem takeDigits_digits (h : ∀ c ∈ cs, c.isDigit) (hrest : ∀ c ∈ rest.head?, c.isDigit = false) :
    takeDigits (cs ++ rest) = (cs.map digitOf, rest) := by
  have hstop : rest.takeWhile Char.isDigit = [] ∧ rest.dropWhile Char.isDigit = rest := by
    cases rest with
    | nil => exact ⟨rfl, rfl⟩
    | cons c rest => simp [hrest c rfl]
  rw [takeDigits, List.takeWhile_append_of_pos h, List.dropWhile_append_of_pos h, hstop.1, hstop.2,
    List.append_nil]

theorem digitOf_eq_zero {c : Char} (h : c.isDigit) (hzero : digitOf c = 0) : c = '0' := by
  have hrange := Char.isDigit_iff_toNat.mp h
  refine Char.toNat_inj.mp ?_
  simp only [digitOf] at hzero
  omega

theorem wholePart_eq (h : IsWhole ws) (hrest : ∀ c ∈ rest.head?, c.isDigit = false) :
    wholePart (ws ++ rest) = some (ws.map digitOf, rest) := by
  rw [wholePart, takeDigits_digits h.isDigit hrest]
  split
  · next he => exact absurd (List.map_eq_nil_iff.mp (Prod.mk.inj he).1) h.ne_nil
  · next he =>
    -- two digits of which the first is a zero
    obtain ⟨hdigits, -⟩ := Prod.mk.inj he
    obtain ⟨c, cs, rfl, hc, hcs⟩ := List.map_eq_cons_iff.mp hdigits
    obtain rfl := digitOf_eq_zero (h.isDigit c List.mem_cons_self) hc
    obtain ⟨-, rfl⟩ := List.cons.inj (h.head rfl)
    cases hcs
  · next he =>
    obtain ⟨hdigits, hrest⟩ := Prod.mk.inj he
    rw [hdigits, hrest]

theorem takeDigits_all (h : Digits ds) (hrest : ∀ c ∈ rest.head?, c.isDigit = false) :
    ∃ n ns, takeDigits (ds ++ rest) = (n :: ns, rest) := by
  obtain ⟨c, cs, rfl⟩ := List.exists_cons_of_ne_nil h.ne_nil
  exact ⟨_, _, takeDigits_digits h.isDigit hrest⟩

theorem fractionPart_eq (h : IsFraction fs)
    (hrest : ∀ c ∈ rest.head?, c.isDigit = false ∧ c ≠ '.') :
    ∃ f, fractionPart (fs ++ rest) = some (f, rest) := by
  obtain rfl | ⟨ds, hds, rfl⟩ := h
  · refine ⟨none, ?_⟩
    rw [List.nil_append, fractionPart]
    rintro cs rfl
    exact (hrest '.' rfl).2 rfl
  · obtain ⟨n, ns, htaken⟩ := takeDigits_all hds fun c hc => (hrest c hc).1
    refine ⟨some (n :: ns), ?_⟩
    rw [List.cons_append, fractionPart, htaken]

theorem exponentPart_eq (h : IsExponent es) : ∃ e, exponentPart es = some (e, []) := by
  obtain rfl | ⟨sign, ds, hsign, hds, rfl⟩ := h
  · exact ⟨none, rfl⟩
  · have hnothing : ∀ c ∈ ([] : List Char).head?, c.isDigit = false := by simp
    obtain ⟨n, ns, htaken⟩ := takeDigits_all hds hnothing
    rw [List.append_nil] at htaken
    obtain rfl | rfl := hsign
    · exact ⟨some (false, ofDigits (n :: ns)), by simp [exponentPart, exponentDigits, htaken]⟩
    · exact ⟨some (true, ofDigits (n :: ns)), by simp [exponentPart, exponentDigits, htaken]⟩

theorem head?_exponent (h : IsExponent es) : ∀ c ∈ es.head?, c = 'e' := by
  obtain rfl | ⟨sign, ds, -, -, rfl⟩ := h
  · simp
  · simp

theorem head?_fraction (hf : IsFraction fs) (he : IsExponent es) :
    ∀ c ∈ (fs ++ es).head?, c = '.' ∨ c = 'e' := by
  intro c hc
  obtain rfl | ⟨ds, -, rfl⟩ := hf
  · exact .inr (head?_exponent he c hc)
  · exact .inl (Option.some.inj hc).symm

/-- A numeral is read to its end. -/
theorem numeral_eq (h : IsNumeral cs) (negative : Bool) :
    ∃ n, numeral negative cs = some (n, []) := by
  obtain ⟨ws, fs, es, hw, hf, he, rfl⟩ := h
  have hwhole : wholePart (ws ++ (fs ++ es)) = some (ws.map digitOf, fs ++ es) := by
    refine wholePart_eq hw fun c hc => ?_
    obtain rfl | rfl := head?_fraction hf he c hc
    · rfl
    · rfl
  obtain ⟨f, hfraction⟩ : ∃ f, fractionPart (fs ++ es) = some (f, es) := by
    refine fractionPart_eq hf fun c hc => ?_
    obtain rfl := head?_exponent he c hc
    exact ⟨rfl, by decide⟩
  obtain ⟨e, hexponent⟩ := exponentPart_eq he
  refine ⟨⟨negative, ws.map digitOf, f, e⟩, ?_⟩
  simp [numeral, hwhole, hfraction, hexponent]

theorem head_of_isNumeral (h : IsNumeral cs) : ∃ c cs', cs = c :: cs' ∧ c.isDigit := by
  obtain ⟨ws, fs, es, hw, -, -, rfl⟩ := h
  obtain ⟨c, ws, rfl⟩ := List.exists_cons_of_ne_nil hw.ne_nil
  exact ⟨c, _, rfl, hw.isDigit c List.mem_cons_self⟩

end Parts

/-! ### Layouts -/

theorem isDigit_zeros (n : Nat) : ∀ c ∈ List.replicate n '0', c.isDigit := by
  intro c hc
  rw [List.eq_of_mem_replicate hc]
  rfl

section Layouts
variable {ds : List Char}

theorem isNumeral_positionalText (h : Digits ds) (hhead : ds.head? ≠ some '0') (place : Int)
    (pointed : Bool) : IsNumeral (positionalText ds place pointed) := by
  unfold positionalText
  split
  · -- nothing in front of the point
    refine ⟨['0'], '.' :: (List.replicate (-place).toNat '0' ++ ds), [], isWhole_zero,
      .inr ⟨_, ?_, rfl⟩, .inl rfl, by simp⟩
    exact ⟨by simp [h.ne_nil], List.forall_mem_append.mpr ⟨isDigit_zeros _, h.isDigit⟩⟩
  · next hplace =>
    dsimp only
    split
    · -- nothing behind it but a zero
      have hw : IsWhole (ds ++ List.replicate (place.toNat - ds.length) '0') := by
        refine isWhole_of_head (h.append (isDigit_zeros _)) ?_
        rwa [h.head?_append]
      cases pointed
      · exact ⟨_, [], [], hw, .inl rfl, .inl rfl, by simp⟩
      · exact ⟨_, ['.', '0'], [], hw, .inr ⟨['0'], isWhole_zero.toDigits, rfl⟩, .inl rfl, by simp⟩
    · next hlength =>
      have hne : ds.take place.toNat ≠ [] := by
        simp only [ne_eq, List.take_eq_nil_iff, h.ne_nil, or_false]
        omega
      have hw : IsWhole (ds.take place.toNat) := by
        refine isWhole_of_head (h.sublist (List.take_sublist _ _) hne) ?_
        rw [List.head?_take]
        simp only [show place.toNat ≠ 0 by omega, if_false]
        exact hhead
      refine ⟨_, '.' :: ds.drop place.toNat, [], hw, .inr ⟨_, ?_, rfl⟩, .inl rfl, by simp⟩
      refine h.sublist (List.drop_sublist _ _) ?_
      simp only [ne_eq, List.drop_eq_nil_iff]
      omega

theorem isNumeral_exponentText (h : Digits ds) (hhead : ds.head? ≠ some '0') (exponent : Int) :
    IsNumeral (exponentText ds exponent) := by
  have he : IsExponent ('e' :: (if exponent < 0 then '-' else '+') :: digitsOf exponent.natAbs) :=
    .inr ⟨_, _, by split <;> simp, digits_digitsOf _, rfl⟩
  obtain ⟨d, rest, rfl⟩ := List.exists_cons_of_ne_nil h.ne_nil
  have hd : IsWhole [d] :=
    isWhole_of_head (h.sublist (by simp) (by simp)) hhead
  cases rest with
  | nil => exact ⟨[d], [], _, hd, .inl rfl, he, rfl⟩
  | cons d' rest =>
    refine ⟨[d], '.' :: d' :: rest, _, hd, .inr ⟨_, ?_, rfl⟩, he, by simp [exponentText]⟩
    exact h.sublist (List.sublist_cons_self _ _) (by simp)

/-- Every decimal is written as a numeral, in every layout. -/
theorem isNumeral_write (l : Layout) (d : Decimal) : IsNumeral (l.write d) := by
  unfold Layout.write
  split
  · cases l.pointed
    · exact ⟨['0'], [], [], isWhole_zero, .inl rfl, .inl rfl, rfl⟩
    · exact ⟨['0'], ['.', '0'], [], isWhole_zero, .inr ⟨['0'], isWhole_zero.toDigits, rfl⟩,
        .inl rfl, rfl⟩
  · next hdigits =>
    have hds := digits_digitsOf d.digits
    have hhead := head?_digitsOf (Nat.pos_of_ne_zero hdigits)
    dsimp only
    split
    · exact isNumeral_positionalText hds hhead _ _
    · split
      · exact isNumeral_positionalText hds hhead _ _
      · exact isNumeral_exponentText hds hhead _

end Layouts

/-! ### Numbers -/

/-- What the text of a number is read as. -/
def numberRead (n : Number) : Document := (scalar (numberText n).toList).1

/-- A number is written as a numeral with or without a minus sign, if it is written at all. -/
theorem numberText_form (n : Number) :
    (numberText n).toList = ['n', 'u', 'l', 'l'] ∨
      ∃ cs, IsNumeral cs ∧ ((numberText n).toList = cs ∨ (numberText n).toList = '-' :: cs) := by
  cases n with
  | integer i =>
    refine .inr ⟨digitsOf i.natAbs, ⟨_, [], [], ?_, .inl rfl, .inl rfl, (List.append_nil _).symm⟩,
      ?_⟩
    · by_cases hzero : i.natAbs = 0
      · rw [hzero]
        exact isWhole_zero
      · exact isWhole_of_head (digits_digitsOf _) (head?_digitsOf (Nat.pos_of_ne_zero hzero))
    · rw [numberText, Int.toString_eq_repr, Int.repr_eq_if]
      split
      · next hi =>
        rw [show i.toNat = i.natAbs by omega]
        exact .inl rfl
      · next hi =>
        rw [show (-i).toNat = i.natAbs by omega]
        exact .inr String.toList_append
  | real x =>
    by_cases hx : x.isFinite
    · refine .inr ⟨_, isNumeral_write .json ((Binary.ofFloat x).2.shortest Layout.json.tie), ?_⟩
      rw [numberText, if_pos hx, Layout.text, if_pos hx, String.toList_ofList]
      cases (Binary.ofFloat x).1
      · exact .inl rfl
      · exact .inr rfl
    · rw [numberText, if_neg hx]
      exact .inl rfl

theorem scalar_of_isNumeral {cs : List Char} (h : IsNumeral cs) :
    scalar cs = numberAfter false cs := by
  obtain ⟨c, cs, rfl, hdigit⟩ := head_of_isNumeral h
  exact scalar_digit hdigit

theorem numberAfter_of_isNumeral {cs tail : List Char} (h : IsNumeral cs) (negative : Bool)
    (htail : Delimited tail) :
    numberAfter negative (cs ++ tail) = ((numberAfter negative cs).1, some tail) := by
  obtain ⟨n, hn⟩ := numeral_eq h negative
  have hcs : numberAfter negative cs = (numberOf n, some []) := by
    rw [numberAfter, hn]
  rw [numberAfter_append htail hcs, hcs, List.nil_append]

/-- The text of a number is read to its end, whatever stands behind it. -/
theorem scalar_numberText (n : Number) {tail : List Char} (htail : Delimited tail) :
    scalar ((numberText n).toList ++ tail) = (numberRead n, some tail) := by
  rw [numberRead]
  obtain hnull | ⟨cs, hcs, htext | htext⟩ := numberText_form n
  · rw [hnull]
    rfl
  · obtain ⟨c, cs', rfl, hdigit⟩ := head_of_isNumeral hcs
    rw [htext, scalar_of_isNumeral hcs, List.cons_append, scalar_digit hdigit, ← List.cons_append]
    exact numberAfter_of_isNumeral hcs false htail
  · rw [htext]
    exact numberAfter_of_isNumeral hcs true htail

end PerfDrift.Json
