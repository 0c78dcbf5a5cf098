import PerfDrift.Proofs.Config.Rule
import PerfDrift.Proofs.Thresholds

/-! Configurations read from tables.

Every key of the section is read or refused, and the first that is refused, in the order in which
the keys are looked at, decides (`Config.resolve_decides`). -/
namespace PerfDrift
open Document Toml

/-! ### Policies and flags -/

/-- The policy under a key: the nearest ancestor if the key is not there, else what is named. -/
inductive PolicyRead : Option Value → Policy → Prop
  | absent : PolicyRead none .first
  | named {s : String} {p : Policy} (h : Text.lower (Text.trim s) = p.name) :
    PolicyRead (some (.string s)) p

inductive PolicyRefused : Option Value → ConfigError → Prop
  | unknown {s : String} (h : ∀ p : Policy, Text.lower (Text.trim s) ≠ p.name) :
    PolicyRefused (some (.string s)) (.unknownPolicy (Text.lower (Text.trim s)))
  | wrongType {v : Value} (h : ∀ s, v ≠ .string s) :
    PolicyRefused (some v) (.wrongType "degradation.apply" "a string" v.typeName)

/-- The flag under a key: off if the key is not there. -/
inductive FlagRead : Option Value → Bool → Prop
  | absent : FlagRead none false
  | flag (b : Bool) : FlagRead (some (.boolean b)) b
  | on {s : String} (h : Text.lower (Text.trim s) ∈ ["true", "yes", "1"]) :
    FlagRead (some (.string s)) true
  | off {s : String} (h : Text.lower (Text.trim s) ∈ ["false", "no", "0"]) :
    FlagRead (some (.string s)) false

inductive FlagRefused : Option Value → ConfigError → Prop
  | unknown {s : String}
    (h : Text.lower (Text.trim s) ∉ ["true", "yes", "1", "false", "no", "0"]) :
    FlagRefused (some (.string s)) (.notFlag (Text.lower (Text.trim s)))
  | wrongType {v : Value} (hflag : ∀ b, v ≠ .boolean b) (htext : ∀ s, v ≠ .string s) :
    FlagRefused (some v) (.wrongType "degradation.collect_before_check" "a boolean" v.typeName)

/-! ### Rules and thresholds -/

/-- The rules under a key: none if the key is not there, else those of the items. -/
inductive RulesRead : Option Value → List Rule → Prop
  | absent : RulesRead none []
  | array {vs : List Value} {rs : List Rule} (h : List.Forall₂ Rule.Read vs rs) :
    RulesRead (some (.array vs)) rs

inductive RulesRefused : Option Value → Failure → Prop
  | item {vs : List Value} {e : Failure} (h : Rule.FirstRefused vs e) :
    RulesRefused (some (.array vs)) e
  | wrongType {v : Value} (h : ∀ vs, v ≠ .array vs) :
    RulesRefused (some v)
      (.configuration (.wrongType "degradation.strategies" "an array of rules" v.typeName))

/-- The number under a key: the default if the key is not there. -/
inductive NumberRead (default : Float) : Option Value → Float → Prop
  | absent : NumberRead default none default
  | integer (i : Int) : NumberRead default (some (.integer i)) (Number.integer i).toFloat
  | float (x : Float) : NumberRead default (some (.float x)) x

/-- The thresholds of a table, those that are not there by their defaults. -/
structure Thresholds.FieldsRead (t : Table) (th : Thresholds Float) : Prop where
  averageChange :
    NumberRead (standard (α := Float)).averageChange (t.get? "aat_threshold") th.averageChange
  modelFit : NumberRead (standard (α := Float)).modelFit (t.get? "bmoe_min_fit") th.modelFit
  fastBand : NumberRead (standard (α := Float)).fastBand (t.get? "fast_band") th.fastBand
  fastConfidence :
    NumberRead (standard (α := Float)).fastConfidence (t.get? "fast_confidence") th.fastConfidence
  fenceFactor :
    NumberRead (standard (α := Float)).fenceFactor (t.get? "eto_iqr_multiplier") th.fenceFactor
  noiseTolerance :
    NumberRead (standard (α := Float)).noiseTolerance (t.get? "eto_noise_tolerance")
      th.noiseTolerance

/-- The thresholds under a key: the standard ones if the key is not there, else valid ones that
are given by name, or in a list. -/
inductive ThresholdsRead : Option Value → Thresholds Float → Prop
  | absent : ThresholdsRead none .standard
  | table {t : Table} {th : Thresholds Float} (h : th.FieldsRead t)
    (hvalid : th.validate = .ok ()) : ThresholdsRead (some (.table t)) th
  | array {vs : List Value} {th : Thresholds Float}
    (h : Thresholds.decode (Value.array vs).toDocument = .ok th) (hvalid : th.validate = .ok ()) :
    ThresholdsRead (some (.array vs)) th

inductive ThresholdsRefused : Option Value → ConfigError → Prop
  | undecodable {v : Value} {e : DecodeError} (h : Thresholds.decode v.toDocument = .error e) :
    ThresholdsRefused (some v) (.invalidThresholds e)
  | invalid {v : Value} {th : Thresholds Float} {e : ThresholdError Float}
    (h : Thresholds.decode v.toDocument = .ok th) (he : th.validate = .error e) :
    ThresholdsRefused (some v) (.badThreshold e)

namespace Thresholds

def slots : List (Slot (Thresholds Float)) :=
  [.defaulted "aat_threshold" asFloat standard.averageChange (·.averageChange),
    .defaulted "bmoe_min_fit" asFloat standard.modelFit (·.modelFit),
    .defaulted "fast_band" asFloat standard.fastBand (·.fastBand),
    .defaulted "fast_confidence" asFloat standard.fastConfidence (·.fastConfidence),
    .defaulted "eto_iqr_multiplier" asFloat standard.fenceFactor (·.fenceFactor),
    .defaulted "eto_noise_tolerance" asFloat standard.noiseTolerance (·.noiseTolerance)]

theorem decodesBy : DecodesBy decode slots := by
  refine decodesBy_asRecord rfl fun l th => ?_
  simp only [slots, Slot.fill_defaulted, Slot.fill_nil, and_true, bind_eq_ok]
  constructor
  · rintro ⟨_, hchange, _, hfit, _, hband, _, hconfidence, _, hfactor, _, hnoise, ⟨⟩⟩
    exact ⟨hchange, hfit, hband, hconfidence, hfactor, hnoise⟩
  · rintro ⟨hchange, hfit, hband, hconfidence, hfactor, hnoise⟩
    exact ⟨_, hchange, _, hfit, _, hband, _, hconfidence, _, hfactor, _, hnoise, rfl⟩

theorem numberRead_iff {t : Table} {key : String} {default x : Float} :
    Lookup.getD (fun key => (t.get? key).map Value.toDocument) key asFloat default = .ok x ↔
      NumberRead default (t.get? key) x := by
  rw [Lookup.getD]
  cases t.get? key with
  | none =>
    constructor
    · rintro ⟨⟩
      exact .absent
    · rintro ⟨⟩
      rfl
  | some v =>
    constructor
    · intro h
      cases v with
      | integer i =>
        cases h
        exact .integer i
      | float y =>
        cases h
        exact .float y
      | _ => cases h
    · intro h
      cases h with
      | integer i => rfl
      | float y => rfl

theorem decode_table_iff {t : Table} {th : Thresholds Float} :
    decode (Value.table t).toDocument = .ok th ↔ th.FieldsRead t := by
  rw [Toml.decode_table_iff decodesBy]
  simp only [slots, Slot.fill_defaulted, Slot.fill_nil, and_true, numberRead_iff]
  constructor
  · rintro ⟨hchange, hfit, hband, hconfidence, hfactor, hnoise⟩
    exact ⟨hchange, hfit, hband, hconfidence, hfactor, hnoise⟩
  · rintro ⟨hchange, hfit, hband, hconfidence, hfactor, hnoise⟩
    exact ⟨hchange, hfit, hband, hconfidence, hfactor, hnoise⟩

theorem validate_standard : (standard (α := Float)).validate = .ok () := by
  decide +kernel

end Thresholds

theorem ThresholdsRead.sound {found : Option Value} {th : Thresholds Float}
    (h : ThresholdsRead found th) : th.Sound := by
  cases h with
  | absent => exact Thresholds.sound_of_validate Thresholds.validate_standard
  | table _ hvalid => exact Thresholds.sound_of_validate hvalid
  | array _ hvalid => exact Thresholds.sound_of_validate hvalid

/-! ### Keys -/

theorem Policy.ofName_of_name {s : String} {p : Policy} (h : Text.lower (Text.trim s) = p.name) :
    ofName s = .ok p := by
  unfold ofName
  rw [h]
  cases p <;> rfl

theorem Policy.ofName_of_unnamed {s : String}
    (h : ∀ p : Policy, Text.lower (Text.trim s) ≠ p.name) :
    ofName s = .error (.unknownPolicy (Text.lower (Text.trim s))) := by
  unfold ofName
  split
  · next hfirst => exact absurd hfirst (h first)
  · next hall => exact absurd hall (h all)
  · rfl

namespace Config
variable {t : Table}

/-- What is found under a key of the section; nothing if there is no section. -/
def find (t : Table) (key : String) : Option Value :=
  match t.get? "degradation" with
  | some (.table inner) => Table.get? inner key
  | _ => none

theorem lookup_eq_find (key : String) {dotted : String}
    (h : splitKey dotted = ["degradation", key]) : t.lookup dotted = find t key := by
  unfold Table.lookup find
  rw [h]
  rfl

theorem policyRead_or_refused (found : Option Value) :
    (∃ p, PolicyRead found p) ∨ ∃ e, PolicyRefused found e := by
  cases found with
  | none => exact .inl ⟨_, .absent⟩
  | some v =>
    by_cases htext : ∃ s, v = .string s
    · obtain ⟨s, rfl⟩ := htext
      by_cases hname : ∃ p : Policy, Text.lower (Text.trim s) = p.name
      · obtain ⟨p, hp⟩ := hname
        exact .inl ⟨p, .named hp⟩
      · exact .inr ⟨_, .unknown (not_exists.mp hname)⟩
    · exact .inr ⟨_, .wrongType (not_exists.mp htext)⟩

theorem resolvePolicy_decides (t : Table) :
    Decides (resolvePolicy t) (PolicyRead (find t "apply")) (PolicyRefused (find t "apply")) := by
  unfold resolvePolicy
  rw [lookup_eq_find "apply" (by decide)]
  generalize find t "apply" = found
  refine .of_total (fun p hp => ?_) (fun e he => ?_) (policyRead_or_refused found)
  · cases hp with
    | absent => rfl
    | named h => exact Policy.ofName_of_name h
  · cases he with
    | unknown h => exact Policy.ofName_of_unnamed h
    | @wrongType v h =>
      cases v with
      | string s => exact absurd rfl (h s)
      | _ => rfl

theorem flagOf_of_read {v : Value} {b : Bool} (h : FlagRead (some v) b) : flagOf v = .ok b := by
  cases h with
  | flag b => rfl
  | on h =>
    dsimp only [flagOf]
    rw [if_pos h]
  | @off s h =>
    have hnot : Text.lower (Text.trim s) ∉ ["true", "yes", "1"] := by
      generalize Text.lower (Text.trim s) = text at h
      simp only [List.mem_cons, List.not_mem_nil, or_false] at h
      rcases h with rfl | rfl | rfl <;> decide
    dsimp only [flagOf]
    rw [if_neg hnot, if_pos h]

theorem flagOf_of_refused {v : Value} {e : ConfigError} (h : FlagRefused (some v) e) :
    flagOf v = .error e := by
  cases h with
  | unknown h =>
    have hnot := not_or.mp fun hmem => h (List.mem_append (s := ["true", "yes", "1"]).mpr hmem)
    dsimp only [flagOf]
    rw [if_neg hnot.1, if_neg hnot.2]
  | wrongType hflag htext =>
    cases v with
    | boolean b => exact absurd rfl (hflag b)
    | string s => exact absurd rfl (htext s)
    | _ => rfl

theorem flagRead_or_refused (found : Option Value) :
    (∃ b, FlagRead found b) ∨ ∃ e, FlagRefused found e := by
  cases found with
  | none => exact .inl ⟨_, .absent⟩
  | some v =>
    by_cases hflag : ∃ b, v = .boolean b
    · obtain ⟨b, rfl⟩ := hflag
      exact .inl ⟨b, .flag b⟩
    · by_cases htext : ∃ s, v = .string s
      · obtain ⟨s, rfl⟩ := htext
        by_cases hon : Text.lower (Text.trim s) ∈ ["true", "yes", "1"]
        · exact .inl ⟨_, .on hon⟩
        · by_cases hoff : Text.lower (Text.trim s) ∈ ["false", "no", "0"]
          · exact .inl ⟨_, .off hoff⟩
          · refine .inr ⟨_, .unknown fun h => ?_⟩
            exact (List.mem_append (s := ["true", "yes", "1"]).mp h).elim hon hoff
      · exact .inr ⟨_, .wrongType (not_exists.mp hflag) (not_exists.mp htext)⟩

theorem resolveCollects_decides (t : Table) :
    Decides (resolveCollects t) (FlagRead (find t "collect_before_check"))
      (FlagRefused (find t "collect_before_check")) := by
  unfold resolveCollects
  rw [lookup_eq_find "collect_before_check" (by decide)]
  generalize find t "collect_before_check" = found
  refine .of_total (fun b hb => ?_) (fun e he => ?_) (flagRead_or_refused found)
  · cases found with
    | none =>
      cases hb
      rfl
    | some v => exact flagOf_of_read hb
  · cases found with
    | none => cases he
    | some v => exact flagOf_of_refused he

theorem resolveRules_decides (t : Table) :
    Decides (resolveRules t) (RulesRead (find t "strategies"))
      (RulesRefused (find t "strategies")) := by
  unfold resolveRules
  rw [lookup_eq_find "strategies" (by decide)]
  generalize find t "strategies" = found
  cases found with
  | none =>
    refine .of_total (fun rs hrs => ?_) (fun e he => nomatch he) (.inl ⟨_, .absent⟩)
    cases hrs
    rfl
  | some v =>
    by_cases harray : ∃ vs, v = .array vs
    · obtain ⟨vs, rfl⟩ := harray
      refine (Rule.rulesOf_decides vs).congr (fun rs => ⟨.array, ?_⟩) fun e => ⟨.item, ?_⟩
      · rintro ⟨⟩
        assumption
      · rintro (⟨h⟩ | ⟨h⟩)
        · exact h
        · exact absurd rfl (h vs)
    · have hwrong := not_exists.mp harray
      refine .of_total (fun rs hrs => ?_) (fun e he => ?_) (.inr ⟨_, .wrongType hwrong⟩)
      · cases hrs
        exact absurd rfl (hwrong _)
      · cases he with
        | item h => exact absurd rfl (hwrong _)
        | wrongType h =>
          cases v with
          | array vs => exact absurd rfl (h vs)
          | _ => rfl

theorem thresholdsRead_or_refused (found : Option Value) :
    (∃ th, ThresholdsRead found th) ∨ ∃ e, ThresholdsRefused found e := by
  cases found with
  | none => exact .inl ⟨_, .absent⟩
  | some v =>
    cases hdecode : Thresholds.decode v.toDocument with
    | error e => exact .inr ⟨_, .undecodable hdecode⟩
    | ok th =>
      cases hvalid : th.validate with
      | error e => exact .inr ⟨_, .invalid hdecode hvalid⟩
      | ok u =>
        -- only tables and arrays are decoded at all
        cases v with
        | table t => exact .inl ⟨th, .table (Thresholds.decode_table_iff.mp hdecode) hvalid⟩
        | array vs => exact .inl ⟨th, .array hdecode hvalid⟩
        | _ => cases hdecode

/-- Thresholds that are there are decoded and then validated. -/
theorem resolveThresholds_of_decoded {v : Value} {th : Thresholds Float}
    (hfound : find t "thresholds" = some v) (h : Thresholds.decode v.toDocument = .ok th) :
    resolveThresholds t = th.validate.mapError .badThreshold >>= fun _ => .ok th := by
  unfold resolveThresholds
  rw [lookup_eq_find "thresholds" (by decide), hfound]
  dsimp only
  rw [h]
  rfl

theorem resolveThresholds_decides (t : Table) :
    Decides (resolveThresholds t) (ThresholdsRead (find t "thresholds"))
      (ThresholdsRefused (find t "thresholds")) := by
  have hlookup : t.lookup "degradation.thresholds" = find t "thresholds" :=
    lookup_eq_find "thresholds" (by decide)
  generalize hfound : find t "thresholds" = found at hlookup
  refine .of_total (fun th hth => ?_) (fun e he => ?_) (thresholdsRead_or_refused found)
  · cases hth with
    | absent =>
      unfold resolveThresholds
      rw [hlookup]
      dsimp only
      rw [pure_bind, Thresholds.validate_standard]
      rfl
    | table h hvalid =>
      rw [resolveThresholds_of_decoded hfound (Thresholds.decode_table_iff.mpr h), hvalid]
      rfl
    | array h hvalid =>
      rw [resolveThresholds_of_decoded hfound h, hvalid]
      rfl
  · cases he with
    | undecodable h =>
      unfold resolveThresholds
      rw [hlookup]
      dsimp only
      rw [h]
      rfl
    | invalid h he =>
      rw [resolveThresholds_of_decoded hfound h, he]
      rfl

/-! ### Whole configurations -/

/-- The configuration is what the keys of the section say. -/
structure Read (find : String → Option Value) (c : Config) : Prop where
  policy : PolicyRead (find "apply") c.policy
  collects : FlagRead (find "collect_before_check") c.collects
  rules : RulesRead (find "strategies") c.rules
  thresholds : ThresholdsRead (find "thresholds") c.thresholds

/-- A key is refused, and those that are looked at before it are read. -/
inductive Refused (find : String → Option Value) : Failure → Prop
  | policy {e : ConfigError} (h : PolicyRefused (find "apply") e) :
    Refused find (.configuration e)
  | collects {p : Policy} {e : ConfigError} (hp : PolicyRead (find "apply") p)
    (h : FlagRefused (find "collect_before_check") e) : Refused find (.configuration e)
  | rules {p : Policy} {b : Bool} {e : Failure} (hp : PolicyRead (find "apply") p)
    (hb : FlagRead (find "collect_before_check") b) (h : RulesRefused (find "strategies") e) :
    Refused find e
  | thresholds {p : Policy} {b : Bool} {rs : List Rule} {e : ConfigError}
    (hp : PolicyRead (find "apply") p) (hb : FlagRead (find "collect_before_check") b)
    (hrs : RulesRead (find "strategies") rs) (h : ThresholdsRefused (find "thresholds") e) :
    Refused find (.configuration e)

theorem resolve_decides (t : Table) : Decides (resolve t) (Read (find t)) (Refused (find t)) := by
  have hsteps := ((resolvePolicy_decides t).mapError Failure.configuration).bind fun p _ =>
    ((resolveCollects_decides t).mapError Failure.configuration).bind fun b _ =>
      (resolveRules_decides t).bind fun rs _ =>
        ((resolveThresholds_decides t).mapError Failure.configuration).bind fun th _ =>
          .pure (⟨p, b, rs, th⟩ : Config)
  refine hsteps.congr (fun c => ?_) fun e => ?_
  · constructor
    · rintro ⟨p, hp, b, hb, rs, hrs, th, hth, rfl⟩
      exact ⟨hp, hb, hrs, hth⟩
    · rintro ⟨hp, hb, hrs, hth⟩
      exact ⟨_, hp, _, hb, _, hrs, _, hth, rfl⟩
  · constructor
    · rintro (⟨e, he, rfl⟩ | ⟨p, hp, h⟩)
      · exact .policy he
      · rcases h with ⟨e, he, rfl⟩ | ⟨b, hb, h⟩
        · exact .collects hp he
        · rcases h with he | ⟨rs, hrs, h⟩
          · exact .rules hp hb he
          · rcases h with ⟨e, he, rfl⟩ | ⟨_, _, ⟨⟩⟩
            exact .thresholds hp hb hrs he
    · intro h
      cases h with
      | policy h => exact .inl ⟨_, h, rfl⟩
      | collects hp h => exact .inr ⟨_, hp, .inl ⟨_, h, rfl⟩⟩
      | rules hp hb h => exact .inr ⟨_, hp, .inr ⟨_, hb, .inl h⟩⟩
      | thresholds hp hb hrs h =>
        exact .inr ⟨_, hp, .inr ⟨_, hb, .inr ⟨_, hrs, .inl ⟨_, h, rfl⟩⟩⟩⟩

/-- Only an item of the rules is refused for its method. -/
theorem refused_unknownMethod_iff {find : String → Option Value} {s : String} :
    Refused find (.unknownMethod s) ↔
      (∃ p, PolicyRead (find "apply") p) ∧ (∃ b, FlagRead (find "collect_before_check") b) ∧
        ∃ front inner back, find "strategies" = some (.array (front ++ .table inner :: back)) ∧
          (∀ v ∈ front, ∃ r, Rule.Read v r) ∧ Table.get? inner "method" = some (.string s) ∧
            ∀ m : Method, ¬m.Names s := by
  constructor
  · intro h
    generalize he : Failure.unknownMethod s = e at h
    cases h with
    | policy h => cases he
    | collects hp h => cases he
    | thresholds hp hb hrs h => cases he
    | @rules p b e hp hb h =>
      generalize hfound : find "strategies" = found at h
      cases h with
      | wrongType h => cases he
      | item h =>
        obtain @⟨front, back, v, e, hfront, hv⟩ := h
        cases hv with
        | notTable h => cases he
        | noMethod h => cases he
        | constraint hmethod hm hkey h hdecode => cases he
        | unknownMethod hmethod hunknown =>
          cases he
          exact ⟨⟨p, hp⟩, ⟨b, hb⟩, front, _, back, rfl, hfront, hmethod, hunknown⟩
  · rintro ⟨⟨p, hp⟩, ⟨b, hb⟩, front, inner, back, hstrategies, hfront, hmethod, hunknown⟩
    refine .rules hp hb ?_
    rw [hstrategies]
    exact .item (.mk hfront (.unknownMethod hmethod hunknown))

theorem unknownMethod_or_configuration {find : String → Option Value} {e : Failure}
    (h : Refused find e) : (∃ s, e = .unknownMethod s) ∨ ∃ cause, e = .configuration cause := by
  cases h with
  | policy h => exact .inr ⟨_, rfl⟩
  | collects hp h => exact .inr ⟨_, rfl⟩
  | thresholds hp hb hrs h => exact .inr ⟨_, rfl⟩
  | rules hp hb h =>
    generalize find "strategies" = found at h
    cases h with
    | wrongType h => exact .inr ⟨_, rfl⟩
    | item h =>
      obtain ⟨hfront, hv⟩ := h
      cases hv with
      | notTable h => exact .inr ⟨_, rfl⟩
      | noMethod h => exact .inr ⟨_, rfl⟩
      | unknownMethod hmethod hunknown => exact .inl ⟨_, rfl⟩
      | constraint hmethod hm hkey h hdecode => exact .inr ⟨_, rfl⟩

/-- Which tables are configurations, which one each of them is, and why the others are not. -/
theorem resolve_exact (t : Table) :
    (∀ c, resolve t = .ok c ↔ Read (find t) c) ∧
      (∀ c, resolve t = .ok c → c.thresholds.Sound) ∧
      (∀ e, resolve t = .error e ↔ Refused (find t) e) ∧
      (∀ e, resolve t = .error e →
        (∃ s, e = .unknownMethod s) ∨ ∃ cause, e = .configuration cause) ∧
      ∀ s, resolve t = .error (.unknownMethod s) ↔
        (∃ p, PolicyRead (find t "apply") p) ∧
          (∃ b, FlagRead (find t "collect_before_check") b) ∧
          ∃ front inner back,
            find t "strategies" = some (.array (front ++ .table inner :: back)) ∧
              (∀ v ∈ front, ∃ r, Rule.Read v r) ∧
              Table.get? inner "method" = some (.string s) ∧ ∀ m : Method, ¬m.Names s := by
  obtain ⟨hok, herror⟩ := resolve_decides t
  refine ⟨hok, fun c h => ((hok c).mp h).thresholds.sound, herror, fun e h => ?_, fun s => ?_⟩
  · exact unknownMethod_or_configuration ((herror e).mp h)
  · rw [herror, refused_unknownMethod_iff]

/-- A section of one rule, whose command is a time of day. -/
def timed : Table :=
  [("degradation", .table [("strategies", .array [.table
    [("cmd", .moment ⟨none, some ⟨7, 32, 0, 0⟩, none⟩), ("method", .string "eto")]])])]

theorem read_timed :
    Read (find timed)
      ⟨.first, false, [⟨.timeOutliers, none, none, some "07:32:00"⟩], .standard⟩ := by
  have hconstraints : Rule.ConstraintsRead
      [("cmd", .moment ⟨none, some ⟨7, 32, 0, 0⟩, none⟩), ("method", .string "eto")]
      ⟨.timeOutliers, none, none, some "07:32:00"⟩ :=
    ⟨.absent, .absent, .moment ⟨none, some ⟨7, 32, 0, 0⟩, none⟩⟩
  have hname : Method.timeOutliers.Names "eto" := .inl (by decide)
  exact ⟨.absent, .absent, .array (.cons (.table rfl hname hconstraints) .nil), .absent⟩

/-- A section with a flag, a rule with a method that nobody knows, and a number for thresholds. -/
def faulty (flag : Value) : Table :=
  [("degradation", .table [("collect_before_check", flag),
    ("strategies", .array [.table [("method", .string "mean")]]), ("thresholds", .integer 3)])]

theorem not_names_mean (m : Method) : ¬m.Names "mean" := by
  rw [← Method.ofName?_eq_some_iff]
  cases m <;> decide

/-- The time of day is taken as a text. Of the faults in a section the first one decides: the flag
that is none, and where it is one the method. -/
theorem resolve_exact_timed :
    (resolve timed =
        .ok ⟨.first, false, [⟨.timeOutliers, none, none, some "07:32:00"⟩], .standard⟩ ∧
      (Thresholds.standard (α := Float)).Sound) ∧
      resolve (faulty (.string "maybe")) = .error (.configuration (.notFlag "maybe")) ∧
      resolve (faulty (.string "Yes")) = .error (.unknownMethod "mean") := by
  have hresolve := ((resolve_exact timed).1 _).mpr read_timed
  have hflag : Refused (find (faulty (.string "maybe"))) (.configuration (.notFlag "maybe")) :=
    .collects .absent (.unknown (s := "maybe") (by decide))
  have hmethod : resolve (faulty (.string "Yes")) = .error (.unknownMethod "mean") :=
    ((resolve_exact _).2.2.2.2 "mean").mpr ⟨⟨.first, .absent⟩, ⟨true, .on (by decide)⟩, [],
      [("method", .string "mean")], [], rfl, by simp, rfl, not_names_mean⟩
  exact ⟨⟨hresolve, (resolve_exact timed).2.1 _ hresolve⟩, ((resolve_exact _).2.2.1 _).mpr hflag,
    hmethod⟩

/-- A constraint need not be a text to be taken as one. -/
theorem resolve_takes_moments :
    ¬∀ (t : Table) (c : Config) (vs : List Value), resolve t = .ok c →
      find t "strategies" = some (.array vs) → ∀ v ∈ vs, ∃ inner, v = .table inner ∧
        ∀ key ∈ ["collector", "postprocessor", "cmd"],
          Table.get? inner key = none ∨ ∃ s, Table.get? inner key = some (.string s) := by
  intro h
  have hresolve := ((resolve_decides timed).ok _).mpr read_timed
  obtain ⟨inner, he, hconstraints⟩ := h timed _ _ hresolve rfl _ (.head _)
  cases he
  rcases hconstraints "cmd" (by decide) with hnone | ⟨s, hs⟩
  · cases hnone
  · cases hs

end Config
end PerfDrift
