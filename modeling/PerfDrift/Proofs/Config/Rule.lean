import Mathlib.Data.List.Forall2
import PerfDrift.Config.Resolve
import PerfDrift.Proofs.Outcome
import PerfDrift.Proofs.Toml.Document

/-! Rules read from tables.

A rule is read from a table that names a method, with its constraints as texts. A moment is taken
as its text there (`ConstraintRead`). What else an item may be is refused, for the first reason
that applies (`RuleRefused`). -/
namespace PerfDrift
open Document Toml

/-! ### Methods -/

/-- A text names a method by its short or its long name. -/
def Method.Names (m : Method) (s : String) : Prop := normalize s = m.id ∨ normalize s = m.longName

/-- No name is that of two methods. -/
theorem Method.eq_of_names {m m' : Method} {s : String} (h : m.Names s) (h' : m'.Names s) :
    m = m' := by
  have hdistinct : ∀ m' : Method, ∀ n ∈ [m.id, m.longName], n ∈ [m'.id, m'.longName] → m = m' := by
    intro m'
    cases m <;> cases m' <;> decide
  exact hdistinct m' (normalize s) (by simpa [Names] using h) (by simpa [Names] using h')

theorem Method.ofName?_eq_some_iff {s : String} {m : Method} : ofName? s = some m ↔ m.Names s := by
  have hfound : ∀ m', ofName? s = some m' → m'.Names s := by
    intro m' h
    have hm : m'.id = normalize s ∨ m'.longName = normalize s := by simpa using List.find?_some h
    exact hm.imp Eq.symm Eq.symm
  constructor
  · exact hfound m
  · intro h
    cases hfind : ofName? s with
    | some m' => rw [eq_of_names h (hfound m' hfind)]
    | none =>
      have hm := List.find?_eq_none.mp hfind m (by cases m <;> decide)
      exact absurd (h.imp Eq.symm Eq.symm) (by simpa using hm)

theorem Method.ofName?_eq_none_iff {s : String} :
    ofName? s = none ↔ ∀ m : Method, ¬m.Names s := by
  rw [Option.eq_none_iff_forall_ne_some]
  exact forall_congr' fun m => not_congr ofName?_eq_some_iff

theorem Method.ofName_of_names {s : String} {m : Method} (h : m.Names s) : ofName s = .ok m := by
  unfold ofName
  rw [ofName?_eq_some_iff.mpr h]

theorem Method.ofName_of_unnamed {s : String} (h : ∀ m : Method, ¬m.Names s) :
    ofName s = .error (.unknownMethod s) := by
  unfold ofName
  rw [ofName?_eq_none_iff.mpr h]

theorem Method.decode_text_of_names {s : String} {m : Method} (h : m.Names s) :
    decode (.text s) = .ok m := by
  rw [decode, asText, bind_eq_ok]
  refine ⟨s, rfl, ?_⟩
  rw [ofName?_eq_some_iff.mpr h]

theorem Method.decode_text_of_unnamed {s : String} (h : ∀ m : Method, ¬m.Names s) :
    decode (.text s) = .error (.unknownMethod s) := by
  simp only [decode, asText, bind, Except.bind, ofName?_eq_none_iff.mpr h]

/-! ### Constraints -/

/-- What a rule asks of a text: nothing if the key is not there, else the text, or that of the
moment. -/
inductive ConstraintRead : Option Value → Option String → Prop
  | absent : ConstraintRead none none
  | text (s : String) : ConstraintRead (some (.string s)) (some s)
  | moment (m : Moment) : ConstraintRead (some (.moment m)) (some m.text)

theorem constraintRead_iff {t : Table} {key : String} {x : Option String} :
    Lookup.getD (fun key => (t.get? key).map Value.toDocument) key (asOption asText) none = .ok x ↔
      ConstraintRead (t.get? key) x := by
  rw [Lookup.getD]
  cases t.get? key with
  | none =>
    constructor
    · rintro ⟨⟩
      exact .absent
    · rintro ⟨⟩
      rfl
  | some v =>
    constructor
    · intro h
      cases v with
      | string s =>
        cases h
        exact .text s
      | moment m =>
        cases h
        exact .moment m
      | integer i => cases h
      | float y => cases h
      | boolean b => cases h
      | array items => cases h
      | table entries => cases h
    · intro h
      cases h with
      | text s => rfl
      | moment m => rfl

/-! ### Rules -/

namespace Rule

def slots : List (Slot Rule) :=
  [.mandatory "method" Method.decode (·.method),
    .defaulted "collector" (asOption asText) none (·.collector),
    .defaulted "postprocessor" (asOption asText) none (·.postprocessor),
    .defaulted "cmd" (asOption asText) none (·.command)]

theorem decodesBy : DecodesBy decode slots := by
  refine decodesBy_asRecord rfl fun l r => ?_
  simp only [slots, Slot.fill_mandatory, Slot.fill_defaulted, Slot.fill_nil, and_true, bind_eq_ok]
  constructor
  · rintro ⟨_, hmethod, _, hcollector, _, hstep, _, hcommand, ⟨⟩⟩
    exact ⟨hmethod, hcollector, hstep, hcommand⟩
  · rintro ⟨hmethod, hcollector, hstep, hcommand⟩
    exact ⟨_, hmethod, _, hcollector, _, hstep, _, hcommand, rfl⟩

/-- The constraints of a rule are read from a table. -/
structure ConstraintsRead (t : Table) (r : Rule) : Prop where
  collector : ConstraintRead (t.get? "collector") r.collector
  postprocessor : ConstraintRead (t.get? "postprocessor") r.postprocessor
  command : ConstraintRead (t.get? "cmd") r.command

/-- A rule is read from a table that names its method. -/
inductive Read : Value → Rule → Prop
  | table {t : Table} {r : Rule} {s : String} (hmethod : t.get? "method" = some (.string s))
    (hm : r.method.Names s) (hconstraints : ConstraintsRead t r) : Read (.table t) r

/-- Why no rule is read from a value. -/
inductive Refused : Value → Failure → Prop
  | notTable {v : Value} (h : ∀ t, v ≠ .table t) :
    Refused v (.configuration (.ruleNotTable v.typeName))
  | noMethod {t : Table} (h : ∀ s, t.get? "method" ≠ some (.string s)) :
    Refused (.table t) (.configuration .ruleWithoutMethod)
  | unknownMethod {t : Table} {s : String} (hmethod : t.get? "method" = some (.string s))
    (h : ∀ m : Method, ¬m.Names s) : Refused (.table t) (.unknownMethod s)
  | constraint {t : Table} {s : String} {m : Method} {key : String} {e : DecodeError}
    (hmethod : t.get? "method" = some (.string s)) (hm : m.Names s)
    (hkey : key ∈ ["collector", "postprocessor", "cmd"])
    (h : ∀ x, ¬ConstraintRead (t.get? key) x)
    (he : decode (Value.table t).toDocument = .error e) :
    Refused (.table t) (.configuration (.invalidRule e))

variable {t : Table} {v : Value} {r : Rule}

/-- The method that was looked at is the one that is decoded. -/
theorem decode_table_eq_ok_iff {s : String} {m : Method}
    (hmethod : t.get? "method" = some (.string s)) (hm : m.Names s) :
    decode (Value.table t).toDocument = .ok r ↔ r.method = m ∧ ConstraintsRead t r := by
  have hlookup : Lookup.get (fun key => (t.get? key).map Value.toDocument) "method" Method.decode =
      .ok m := by
    rw [Lookup.get_of_some (d := .text s) (by rw [hmethod]; rfl), Method.decode_text_of_names hm]
  rw [decode_table_iff decodesBy]
  simp only [slots, Slot.fill_mandatory, Slot.fill_defaulted, Slot.fill_nil, and_true, hlookup,
    constraintRead_iff]
  constructor
  · rintro ⟨he, hcollector, hstep, hcommand⟩
    exact ⟨(Except.ok.inj he).symm, hcollector, hstep, hcommand⟩
  · rintro ⟨rfl, hcollector, hstep, hcommand⟩
    exact ⟨rfl, hcollector, hstep, hcommand⟩

/-- If no constraints are read, there is one that is not. -/
theorem exists_unread {m : Method} (h : ∀ r : Rule, r.method = m → ¬ConstraintsRead t r) :
    ∃ key ∈ ["collector", "postprocessor", "cmd"], ∀ x, ¬ConstraintRead (t.get? key) x := by
  by_contra hall
  push Not at hall
  obtain ⟨collector, hcollector⟩ := hall "collector" (by decide)
  obtain ⟨step, hstep⟩ := hall "postprocessor" (by decide)
  obtain ⟨command, hcommand⟩ := hall "cmd" (by decide)
  exact h ⟨m, collector, step, command⟩ rfl ⟨hcollector, hstep, hcommand⟩

theorem ruleOf_of_read (h : Read v r) : Config.ruleOf v = .ok r := by
  cases h with
  | @table t r s hmethod hm hconstraints =>
    have hdecode : decode (Value.table t).toDocument = .ok r :=
      (decode_table_eq_ok_iff hmethod hm).mpr ⟨rfl, hconstraints⟩
    rw [Config.ruleOf, hmethod]
    dsimp only
    rw [Method.ofName_of_names hm, hdecode]
    rfl

theorem ruleOf_of_refused {e : Failure} (h : Refused v e) : Config.ruleOf v = .error e := by
  cases h with
  | notTable h =>
    cases v with
    | table t => exact absurd rfl (h t)
    | string s => rfl
    | integer i => rfl
    | float x => rfl
    | boolean b => rfl
    | moment m => rfl
    | array items => rfl
  | @noMethod t h =>
    rw [Config.ruleOf]
    split
    · next s hmethod => exact absurd hmethod (h s)
    · rfl
  | unknownMethod hmethod h =>
    rw [Config.ruleOf, hmethod]
    dsimp only
    rw [Method.ofName_of_unnamed h]
    rfl
  | constraint hmethod hm hkey h he =>
    rw [Config.ruleOf, hmethod]
    dsimp only
    rw [Method.ofName_of_names hm, he]
    rfl

/-- Every value is a rule or refused. -/
theorem read_or_refused (v : Value) : (∃ r, Read v r) ∨ ∃ e, Refused v e := by
  by_cases htable : ∃ t, v = .table t
  · obtain ⟨t, rfl⟩ := htable
    by_cases hmethod : ∃ s, Table.get? t "method" = some (.string s)
    · obtain ⟨s, hmethod⟩ := hmethod
      by_cases hm : ∃ m : Method, m.Names s
      · obtain ⟨m, hm⟩ := hm
        cases hdecode : decode (Value.table t).toDocument with
        | ok r =>
          obtain ⟨rfl, hconstraints⟩ := (decode_table_eq_ok_iff hmethod hm).mp hdecode
          exact .inl ⟨r, .table hmethod hm hconstraints⟩
        | error e =>
          have hnone : ∀ r : Rule, r.method = m → ¬ConstraintsRead t r := by
            intro r hr hconstraints
            cases hdecode.symm.trans ((decode_table_eq_ok_iff hmethod hm).mpr ⟨hr, hconstraints⟩)
          obtain ⟨key, hkey, hunread⟩ := exists_unread hnone
          exact .inr ⟨_, .constraint hmethod hm hkey hunread hdecode⟩
      · exact .inr ⟨_, .unknownMethod hmethod (not_exists.mp hm)⟩
    · exact .inr ⟨_, .noMethod (not_exists.mp hmethod)⟩
  · exact .inr ⟨_, .notTable (not_exists.mp htable)⟩

theorem ruleOf_decides (v : Value) : Decides (Config.ruleOf v) (Read v) (Refused v) :=
  .of_total (fun _ => ruleOf_of_read) (fun _ => ruleOf_of_refused) (read_or_refused v)

/-- The first value that is refused, after values that are not. -/
inductive FirstRefused : List Value → Failure → Prop
  | mk {front back : List Value} {v : Value} {e : Failure} (hfront : ∀ v ∈ front, ∃ r, Read v r)
    (hv : Refused v e) : FirstRefused (front ++ v :: back) e

theorem firstRefused_cons_iff {vs : List Value} {e : Failure} :
    FirstRefused (v :: vs) e ↔ Refused v e ∨ ∃ r, Read v r ∧ FirstRefused vs e := by
  constructor
  · intro h
    generalize hl : v :: vs = l at h
    obtain @⟨front, back, v', e, hfront, hv'⟩ := h
    cases front with
    | nil =>
      obtain ⟨rfl, rfl⟩ := List.cons.inj hl
      exact .inl hv'
    | cons u front =>
      obtain ⟨rfl, rfl⟩ := List.cons.inj hl
      rw [List.forall_mem_cons] at hfront
      obtain ⟨⟨r, hr⟩, hfront⟩ := hfront
      exact .inr ⟨r, hr, ⟨hfront, hv'⟩⟩
  · rintro (hv | ⟨r, hr, ⟨hfront, hv'⟩⟩)
    · exact @FirstRefused.mk [] vs v e (fun _ hu => nomatch hu) hv
    · rw [← List.cons_append]
      exact .mk (List.forall_mem_cons.mpr ⟨⟨r, hr⟩, hfront⟩) hv'

/-- The rules of a list are those of its items, in their order, unless one is refused. -/
theorem rulesOf_decides (vs : List Value) :
    Decides (Config.rulesOf vs) (List.Forall₂ Read vs) (FirstRefused vs) := by
  induction vs with
  | nil =>
    constructor
    · intro rs
      rw [List.forall₂_nil_left_iff, Config.rulesOf]
      exact ⟨fun h => (Except.ok.inj h).symm, fun h => h ▸ rfl⟩
    · refine fun e => ⟨fun h => (nomatch h), fun h => ?_⟩
      generalize hl : ([] : List Value) = l at h
      obtain @⟨front, back, v, e, -, -⟩ := h
      cases front <;> cases hl
  | cons v vs ih =>
    have hstep := (ruleOf_decides v).bind fun r _ => ih.bind fun rs _ => .pure (r :: rs)
    refine hstep.congr (fun rs => ?_) fun e => ?_
    · rw [List.forall₂_cons_left_iff]
      constructor
      · rintro ⟨r, hr, rs', hrs', rfl⟩
        exact ⟨r, rs', hr, hrs', rfl⟩
      · rintro ⟨r, rs', hr, hrs', rfl⟩
        exact ⟨r, hr, rs', hrs', rfl⟩
    · rw [firstRefused_cons_iff]
      simp

end Rule
end PerfDrift
