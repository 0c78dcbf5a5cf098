import Mathlib.Logic.Relation
import PerfDrift.Config.Written
import PerfDrift.Proofs.Config.Resolve

/-! Configurations written and read back.

What a configuration is written as is read as that configuration (`Config.read_entries`). A key
may be left out if its value is what holds without it, and a method may go by any of its names.
Every such change keeps what is read (`Config.Rewrite.read`), so any number of them does. -/
namespace PerfDrift
open Toml Document

/-! ### Keys left out and values exchanged -/

namespace Toml.Table
variable {t : Table} {key k : String} {v : Value}

/-- The table without a key. -/
def erase (t : Table) (key : String) : Table := t.filter (·.1 ≠ key)

/-- The table with another value for a key that it has. -/
def set (t : Table) (key : String) (v : Value) : Table :=
  t.map fun e => (e.1, if e.1 = key then v else e.2)

theorem get?_erase_self : (t.erase key).get? key = none := by
  rw [get?, List.lookup_eq_none_iff]
  intro e he
  have hne : e.1 ≠ key := by simpa using (List.mem_filter.mp he).2
  simpa using Ne.symm hne

theorem get?_erase_of_ne (h : k ≠ key) : (t.erase key).get? k = t.get? k := by
  induction t with
  | nil => rfl
  | cons e t ih =>
    unfold erase get? at ih ⊢
    by_cases he : e.1 = key
    · have hbeq : (k == e.1) = false := beq_eq_false_iff_ne.mpr (he ▸ h)
      rw [List.filter_cons_of_neg (by simpa using he), List.lookup_cons, hbeq, ih]
    · rw [List.filter_cons_of_pos (by simpa using he), List.lookup_cons, List.lookup_cons, ih]

theorem get?_set : (t.set key v).get? k = (t.get? k).map fun u => if k = key then v else u := by
  induction t with
  | nil => rfl
  | cons e t ih =>
    unfold set get? at ih ⊢
    rw [List.map_cons, List.lookup_cons, List.lookup_cons, ih]
    by_cases he : k = e.1
    · simp [he]
    · have hbeq : (k == e.1) = false := beq_eq_false_iff_ne.mpr he
      rw [hbeq]

theorem get?_set_of_ne (h : k ≠ key) : (t.set key v).get? k = t.get? k := by
  rw [get?_set]
  simp [h]

theorem get?_append (t t' : Table) (key : String) :
    get? (t ++ t') key = (t.get? key).or (t'.get? key) :=
  List.lookup_append

theorem get?_cons_of_ne (h : k ≠ key) : get? ((key, v) :: t) k = t.get? k := by
  have hbeq : (k == key) = false := beq_eq_false_iff_ne.mpr h
  rw [get?, List.lookup_cons, hbeq, get?]

theorem get?_optional_self (key : String) (x : Option String) :
    (optional key x).get? key = x.map .string := by
  cases x with
  | none => rfl
  | some s => simp [optional, get?]

theorem get?_optional_of_ne (h : k ≠ key) (x : Option String) : (optional key x).get? k = none := by
  cases x with
  | none => rfl
  | some s => exact get?_cons_of_ne h

/-- Keys are left out, all of them with a value of which `D` holds. -/
def Omits (D : String → Value → Prop) (find find' : String → Option Value) : Prop :=
  ∀ key, find' key = find key ∨ find' key = none ∧ ∀ v, find key = some v → D key v

theorem omits_erase {D : String → Value → Prop} (hfound : t.get? key = some v) (hv : D key v) :
    Omits D t.get? (t.erase key).get? := by
  intro k
  by_cases hk : k = key
  · subst hk
    refine .inr ⟨get?_erase_self, fun u hu => ?_⟩
    obtain rfl := Option.some.inj (hfound.symm.trans hu)
    exact hv
  · exact .inl (get?_erase_of_ne hk)

/-- What is read under a key is read without it if it would be read without a value as well. -/
theorem Omits.read {α : Type} {D : String → Value → Prop} {find find' : String → Option Value}
    {R : Option Value → α → Prop} {x : α} (h : Omits D find find')
    (hdefault : ∀ v, D key v → R (some v) x → R none x) (hread : R (find key) x) :
    R (find' key) x := by
  rcases h key with hsame | ⟨hnone, hD⟩
  · rw [hsame]
    exact hread
  · rw [hnone]
    cases hfind : find key with
    | none => exact hfind ▸ hread
    | some v => exact hdefault v (hD v hfind) (hfind ▸ hread)

end Toml.Table
open Toml.Table

/-! ### Rules -/

theorem constraintRead_written (x : Option String) : ConstraintRead (x.map .string) x := by
  cases x with
  | none => exact .absent
  | some s => exact .text s

/-- A written rule is read as that rule. -/
theorem Rule.read_toToml (r : Rule) : Read r.toToml r := by
  have hname : r.method.Names r.method.id := by
    cases r.method <;> exact .inl (by decide)
  refine .table rfl hname ⟨?_, ?_, ?_⟩
  · simpa [get?_append, get?_cons_of_ne, get?_optional_self, get?_optional_of_ne]
      using constraintRead_written r.collector
  · simpa [get?_append, get?_cons_of_ne, get?_optional_self, get?_optional_of_ne]
      using constraintRead_written r.postprocessor
  · simpa [get?_append, get?_cons_of_ne, get?_optional_self, get?_optional_of_ne]
      using constraintRead_written r.command

/-- A rule may name its method otherwise. -/
theorem Rule.Read.respell {t : Table} {r : Rule} {m : Method} {s s' : String}
    (h : Read (.table t) r) (hmethod : t.get? "method" = some (.string s)) (hs : m.Names s)
    (hs' : m.Names s') : Read (.table (t.set "method" (.string s'))) r := by
  obtain @⟨_, _, s₀, hmethod₀, hname, hconstraints⟩ := h
  cases hmethod.symm.trans hmethod₀
  -- no name is that of two methods, so the new one is a name of the rule's own method
  have hm : r.method = m := Method.eq_of_names hname hs
  refine .table (s := s') (by rw [get?_set, hmethod]; rfl) (hm ▸ hs') ⟨?_, ?_, ?_⟩
  · rw [get?_set_of_ne (by decide)]
    exact hconstraints.collector
  · rw [get?_set_of_ne (by decide)]
    exact hconstraints.postprocessor
  · rw [get?_set_of_ne (by decide)]
    exact hconstraints.command

/-! ### Thresholds -/

namespace Thresholds
variable {t t' : Table} {th : Thresholds Float}

theorem fieldsRead_entries (th : Thresholds Float) : th.FieldsRead th.entries :=
  ⟨.float _, .float _, .float _, .float _, .float _, .float _⟩

/-- A field has the value that it has by default. -/
def IsDefault (name : String) (v : Value) : Prop :=
  Table.get? (standard (α := Float)).entries name = some v

theorem numberRead_of_omits {name : String} {default x : Float}
    (h : Omits IsDefault t.get? t'.get?) (hdefault : IsDefault name (.float default))
    (hread : NumberRead default (t.get? name) x) : NumberRead default (t'.get? name) x := by
  refine h.read (fun v hv hx => ?_) hread
  obtain rfl := Option.some.inj (hv.symm.trans hdefault)
  cases hx
  exact .absent

/-- Fields with their defaults may be left out. -/
theorem FieldsRead.of_omits (h : Omits IsDefault t.get? t'.get?) (hread : th.FieldsRead t) :
    th.FieldsRead t' where
  averageChange := numberRead_of_omits h rfl hread.averageChange
  modelFit := numberRead_of_omits h rfl hread.modelFit
  fastBand := numberRead_of_omits h rfl hread.fastBand
  fastConfidence := numberRead_of_omits h rfl hread.fastConfidence
  fenceFactor := numberRead_of_omits h rfl hread.fenceFactor
  noiseTolerance := numberRead_of_omits h rfl hread.noiseTolerance

/-- Where no field is there, the thresholds are the standard ones. -/
theorem FieldsRead.eq_standard (h : th.FieldsRead []) : th = standard := by
  obtain ⟨hchange, hfit, hband, hconfidence, hfactor, hnoise⟩ := h
  obtain ⟨change, fit, band, confidence, factor, noise⟩ := th
  cases hchange
  cases hfit
  cases hband
  cases hconfidence
  cases hfactor
  cases hnoise
  rfl

end Thresholds

/-! ### Whole configurations -/

namespace Config
variable {t t' : Table} {c : Config}

/-- What a configuration is written as is read as that configuration. -/
theorem read_entries (h : c.thresholds.validate = .ok ()) : Read c.entries.get? c where
  policy := .named (by cases c.policy <;> decide)
  collects := .flag c.collects
  rules := .array (List.forall₂_map_left_iff.mpr (List.forall₂_same.mpr fun r _ => r.read_toToml))
  thresholds := .table (Thresholds.fieldsRead_entries _) h

/-- A key has the value that it has by default; no field of the thresholds may have another one. -/
def IsDefault : String → Value → Prop
  | "apply", v => v = .string Policy.first.name
  | "collect_before_check", v => v = .boolean false
  | "strategies", v => v = .array []
  | "thresholds", v => ∃ fields : Table, v = .table fields ∧
      ∀ name u, fields.get? name = some u → Thresholds.IsDefault name u
  | _, _ => False

/-- The default configuration is written with defaults only. -/
theorem isDefault_entries {key : String} {v : Value}
    (h : Table.get? ({} : Config).entries key = some v) : IsDefault key v := by
  have hmem : (key, v) ∈ ({} : Config).entries := by
    obtain ⟨before, after, he, -⟩ := List.lookup_eq_some_iff.mp h
    rw [he]
    exact List.mem_append_right _ List.mem_cons_self
  simp only [entries, List.map_nil, List.mem_cons, Prod.mk.injEq, List.not_mem_nil,
    or_false] at hmem
  obtain ⟨rfl, rfl⟩ | ⟨rfl, rfl⟩ | ⟨rfl, rfl⟩ | ⟨rfl, rfl⟩ := hmem
  · rfl
  · rfl
  · rfl
  · exact ⟨_, rfl, fun name u hu => hu⟩

/-- Keys with their defaults may be left out. -/
theorem Read.of_omits {find find' : String → Option Value} (h : Omits IsDefault find find')
    (hread : Read find c) : Read find' c where
  policy := by
    refine h.read (fun v hv hp => ?_) hread.policy
    obtain rfl : v = .string Policy.first.name := hv
    generalize c.policy = p at hp
    obtain ⟨⟩ | ⟨hname⟩ := hp
    cases p with
    | first => exact .absent
    | all => exact absurd hname (by decide)
  collects := by
    refine h.read (fun v hv hb => ?_) hread.collects
    obtain rfl : v = .boolean false := hv
    generalize c.collects = b at hb
    cases hb
    exact .absent
  rules := by
    refine h.read (fun v hv hrs => ?_) hread.rules
    obtain rfl : v = .array [] := hv
    obtain ⟨⟩ | ⟨hrs⟩ := hrs
    rw [List.forall₂_nil_left_iff.mp hrs]
    exact .absent
  thresholds := by
    refine h.read (fun v hv hth => ?_) hread.thresholds
    obtain ⟨fields, rfl, hfields⟩ := hv
    obtain ⟨⟩ | ⟨hread, -⟩ := hth
    -- all of the fields could have been left out, and without any the thresholds are standard
    have hempty : Omits Thresholds.IsDefault fields.get? (Table.get? []) :=
      fun name => .inr ⟨rfl, hfields name⟩
    rw [(hread.of_omits hempty).eq_standard]
    exact .absent

/-- One change to a section that leaves its meaning alone: a key or a threshold that has its
default is left out, or the method of a rule goes by another of its names. -/
inductive Rewrite : Table → Table → Prop
  | omitKey {t : Table} {key : String} {v : Value} (hfound : t.get? key = some v)
    (hv : IsDefault key v) : Rewrite t (t.erase key)
  | omitThreshold {t fields : Table} {name : String} {v : Value}
    (hfound : t.get? "thresholds" = some (.table fields)) (hname : fields.get? name = some v)
    (hv : Thresholds.IsDefault name v) :
    Rewrite t (t.set "thresholds" (.table (fields.erase name)))
  | respell {t rule : Table} {before after : List Value} {m : Method} {s s' : String}
    (hfound : t.get? "strategies" = some (.array (before ++ .table rule :: after)))
    (hmethod : rule.get? "method" = some (.string s)) (hs : m.Names s) (hs' : m.Names s') :
    Rewrite t
      (t.set "strategies" (.array (before ++ .table (rule.set "method" (.string s')) :: after)))

theorem Rewrite.read (h : Rewrite t t') (hread : Read t.get? c) : Read t'.get? c := by
  cases h with
  | omitKey hfound hv => exact hread.of_omits (omits_erase hfound hv)
  | omitThreshold hfound hname hv =>
    obtain ⟨hpolicy, hcollects, hrules, hthresholds⟩ := hread
    refine ⟨?_, ?_, ?_, ?_⟩
    · rwa [get?_set_of_ne (by decide)]
    · rwa [get?_set_of_ne (by decide)]
    · rwa [get?_set_of_ne (by decide)]
    · rw [hfound] at hthresholds
      obtain ⟨⟩ | ⟨hfields, hvalid⟩ := hthresholds
      rw [get?_set, hfound]
      exact .table (hfields.of_omits (omits_erase hname hv)) hvalid
  | respell hfound hmethod hs hs' =>
    obtain ⟨hpolicy, hcollects, hrules, hthresholds⟩ := hread
    refine ⟨?_, ?_, ?_, ?_⟩
    · rwa [get?_set_of_ne (by decide)]
    · rwa [get?_set_of_ne (by decide)]
    · rw [hfound] at hrules
      obtain ⟨⟩ | ⟨hrs⟩ := hrules
      rw [get?_set, hfound]
      exact .array (forall₂_exchange (fun r hr => hr.respell hmethod hs hs') hrs)
    · rwa [get?_set_of_ne (by decide)]

/-- Any number of such changes to what a configuration is written as gives that configuration,
and where only defaults are left the section itself may be missing. -/
theorem resolve_rewritten (h : c.thresholds.validate = .ok ())
    (hrewritten : Relation.ReflTransGen Rewrite c.entries t) :
    resolve [("degradation", .table t)] = .ok c ∧
      ((∀ key v, t.get? key = some v → IsDefault key v) → resolve [] = .ok c) := by
  have hread : Read t.get? c := by
    induction hrewritten with
    | refl => exact read_entries h
    | tail _ hrewrite ih => exact hrewrite.read ih
  refine ⟨((resolve_decides _).ok c).mpr hread, fun hdefault => ?_⟩
  have hempty : Omits IsDefault t.get? (find []) := fun key => .inr ⟨rfl, hdefault key⟩
  exact ((resolve_decides []).ok c).mpr (hread.of_omits hempty)

/-- A section without the flag and one threshold, and no section at all. -/
theorem resolve_rewritten_terse :
    resolve [("degradation", .table
        [("apply", .string "all"),
          ("strategies", .array [.table
            [("method", .string " Fast-Check"), ("collector", .string "perf")]]),
          ("thresholds", .table
            (Table.erase (Thresholds.standard (α := Float)).entries "fast_band"))])] =
        .ok ⟨.all, false, [⟨.fastCheck, some "perf", none, none⟩], .standard⟩ ∧
      resolve [] = .ok {} := by
  constructor
  · let c : Config := ⟨.all, false, [⟨.fastCheck, some "perf", none, none⟩], .standard⟩
    let shorter : Table := c.entries.erase "collect_before_check"
    let fields : Table := Table.erase (Thresholds.standard (α := Float)).entries "fast_band"
    have hflag : Rewrite c.entries shorter :=
      @Rewrite.omitKey _ "collect_before_check" _ rfl rfl
    have hfield : Rewrite shorter (shorter.set "thresholds" (.table fields)) :=
      @Rewrite.omitThreshold _ _ "fast_band" _ rfl rfl rfl
    have hmethod := @Rewrite.respell (shorter.set "thresholds" (.table fields)) _ [] [] .fastCheck
      "fast" " Fast-Check" rfl rfl (.inl (by decide)) (.inr (by decide))
    have hrewritten := ((Relation.ReflTransGen.single hflag).tail hfield).tail hmethod
    exact (resolve_rewritten (c := c) Thresholds.validate_standard hrewritten).1
  · have hwritten := Relation.ReflTransGen.refl (r := Rewrite) (a := ({} : Config).entries)
    exact (resolve_rewritten (c := {}) Thresholds.validate_standard hwritten).2 fun _ _ =>
      isDefault_entries

end Config
end PerfDrift
