/-! Outcomes of what may fail.

A computation of several steps succeeds if each of them does (`bind_eq_ok`), and else fails for
what the first one fails for (`errorOf_bind`).

When it succeeds and with what, and when it fails and for which reason, are said by two
predicates. They are exact once each of them is sound and one of them always holds
(`Decides.of_total`), and of two steps the first that fails decides (`Decides.bind`). -/
namespace PerfDrift
variable {ε ε' α β : Type}

theorem bind_eq_ok {a : Except ε α} {f : α → Except ε β} {y : β} :
    (a >>= f) = .ok y ↔ ∃ x, a = .ok x ∧ f x = .ok y := by
  cases a with
  | error e => simp [bind, Except.bind]
  | ok x => simp [bind, Except.bind]

theorem mapError_eq_ok {g : ε → ε'} {a : Except ε α} {x : α} :
    a.mapError g = .ok x ↔ a = .ok x := by
  cases a with
  | error e => exact ⟨fun h => (nomatch h), fun h => (nomatch h)⟩
  | ok y =>
    exact ⟨fun h => congrArg Except.ok (Except.ok.inj h),
      fun h => congrArg Except.ok (Except.ok.inj h)⟩

/-- Why a computation fails, `none` if it does not. -/
def errorOf : Except ε α → Option ε
  | .ok _ => none
  | .error e => some e

theorem errorOf_eq_some {a : Except ε α} {e : ε} : errorOf a = some e ↔ a = .error e := by
  cases a with
  | error e' => simp [errorOf]
  | ok x => simp [errorOf]

theorem errorOf_eq_none {a : Except ε α} : errorOf a = none ↔ ∃ x, a = .ok x := by
  cases a with
  | error e => simp [errorOf]
  | ok x => simp [errorOf]

theorem errorOf_bind {a : Except ε α} {f : α → Except ε β} {rest : Option ε}
    (h : ∀ x, a = .ok x → errorOf (f x) = rest) : errorOf (a >>= f) = (errorOf a).or rest := by
  cases a with
  | error e => rfl
  | ok x => exact h x rfl

/-- The computation succeeds with what `P` says, and fails for what `Q` says. -/
structure Decides (a : Except ε α) (P : α → Prop) (Q : ε → Prop) : Prop where
  ok : ∀ x, a = .ok x ↔ P x
  error : ∀ e, a = .error e ↔ Q e

namespace Decides
variable {a : Except ε α} {P : α → Prop} {Q : ε → Prop}

theorem of_total (hP : ∀ x, P x → a = .ok x) (hQ : ∀ e, Q e → a = .error e)
    (htotal : (∃ x, P x) ∨ ∃ e, Q e) : Decides a P Q := by
  constructor
  · refine fun x => ⟨fun h => ?_, hP x⟩
    rcases htotal with ⟨x', hx'⟩ | ⟨e, he⟩
    · obtain rfl := Except.ok.inj (h.symm.trans (hP x' hx'))
      exact hx'
    · cases h.symm.trans (hQ e he)
  · refine fun e => ⟨fun h => ?_, hQ e⟩
    rcases htotal with ⟨x, hx⟩ | ⟨e', he'⟩
    · cases h.symm.trans (hP x hx)
    · obtain rfl := Except.error.inj (h.symm.trans (hQ e' he'))
      exact he'

theorem pure (x : α) : Decides (pure x : Except ε α) (· = x) fun _ => False where
  ok _ := ⟨fun h => (Except.ok.inj h).symm, fun h => h ▸ rfl⟩
  error _ := ⟨fun h => (nomatch h), False.elim⟩

/-- The second step is taken only after the first one succeeded. -/
theorem bind {f : α → Except ε β} {P' : α → β → Prop} {Q' : α → ε → Prop} (h : Decides a P Q)
    (hf : ∀ x, P x → Decides (f x) (P' x) (Q' x)) :
    Decides (a >>= f) (fun y => ∃ x, P x ∧ P' x y) fun e => Q e ∨ ∃ x, P x ∧ Q' x e := by
  cases a with
  | ok x =>
    have hx : P x := (h.ok x).mp rfl
    have huniq : ∀ x', P x' → x' = x := fun x' hx' => (Except.ok.inj ((h.ok x').mpr hx')).symm
    have hnone : ∀ e, ¬Q e := fun e he => nomatch (h.error e).mpr he
    constructor
    · refine fun y => ⟨fun hy => ⟨x, hx, ((hf x hx).ok y).mp hy⟩, ?_⟩
      rintro ⟨x', hx', hy⟩
      obtain rfl := huniq x' hx'
      exact ((hf x' hx).ok y).mpr hy
    · refine fun e => ⟨fun he => .inr ⟨x, hx, ((hf x hx).error e).mp he⟩, ?_⟩
      rintro (he | ⟨x', hx', he⟩)
      · exact absurd he (hnone e)
      · obtain rfl := huniq x' hx'
        exact ((hf x' hx).error e).mpr he
  | error e =>
    have hnone : ∀ x, ¬P x := fun x hx => nomatch (h.ok x).mpr hx
    have hstop : (Except.error e >>= f) = Except.error e := rfl
    constructor
    · rw [hstop]
      refine fun y => ⟨fun hy => (nomatch hy), ?_⟩
      rintro ⟨x, hx, -⟩
      exact absurd hx (hnone x)
    · rw [hstop]
      refine fun e' => ⟨fun he => .inl ((h.error e').mp ?_), ?_⟩
      · exact congrArg Except.error (Except.error.inj he)
      · rintro (he | ⟨x, hx, -⟩)
        · exact congrArg Except.error (Except.error.inj ((h.error e').mpr he))
        · exact absurd hx (hnone x)

theorem mapError (g : ε → ε') (h : Decides a P Q) :
    Decides (a.mapError g) P fun e' => ∃ e, Q e ∧ e' = g e := by
  cases a with
  | ok x =>
    constructor
    · exact fun y => ⟨fun hy => (h.ok y).mp (congrArg Except.ok (Except.ok.inj hy)),
        fun hy => congrArg Except.ok (Except.ok.inj ((h.ok y).mpr hy))⟩
    · refine fun e' => ⟨fun he => (nomatch he), ?_⟩
      rintro ⟨e, he, -⟩
      cases (h.error e).mpr he
  | error e =>
    constructor
    · refine fun y => ⟨fun hy => (nomatch hy), fun hy => ?_⟩
      cases (h.ok y).mpr hy
    · refine fun e' => ⟨fun he => ⟨e, (h.error e).mp rfl, (Except.error.inj he).symm⟩, ?_⟩
      rintro ⟨e'', he, rfl⟩
      obtain rfl := Except.error.inj ((h.error e'').mpr he)
      rfl

/-- The same outcomes in other words. -/
theorem congr {P' : α → Prop} {Q' : ε → Prop} (h : Decides a P Q) (hP : ∀ x, P x ↔ P' x)
    (hQ : ∀ e, Q e ↔ Q' e) : Decides a P' Q' where
  ok x := (h.ok x).trans (hP x)
  error e := (h.error e).trans (hQ e)

end Decides
end PerfDrift
