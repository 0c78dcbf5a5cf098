import PerfDrift.Detection.Registry
import PerfDrift.Proofs.Config.Rule
import PerfDrift.Proofs.Text.Spelling

/-! Names of methods, wherever they are read.

A method is read by its name alone, from a document, in a registry of strategies, as a selection
and as the method of a rule. All of them take the same texts for names, and for those of the same
methods (`names_read_alike`): the texts that spell the short or the long name in either case, with
`-` or `_` between words, and with white space around it. Every other text is refused and quoted
as it was given; only a selection may still be read as one of all methods. -/
namespace PerfDrift
open Document Toml

namespace Method

/-- A character of a name as it is compared. -/
def letter (c : Char) : Char := joint c.toLower

/-- A text spells one of the names of a method. -/
def SpeltBy (m : Method) (s : String) : Prop :=
  Text.Spells letter m.id s ∨ Text.Spells letter m.longName s

/-- A text is no name of any method. -/
def Unnamed (s : String) : Prop := ∀ m : Method, ¬m.Names s

/-! ### Spelling -/

theorem isBlank_letter (c : Char) : Text.isBlank (letter c) = Text.isBlank c := by
  rw [← Text.isBlank_toLower c, letter, joint]
  split
  · next hdash =>
    rw [hdash]
    decide
  · rfl

theorem normalize_eq (s : String) :
    normalize s = String.ofList ((Text.trimChars s.toList).map letter) := by
  simp only [normalize, Text.lower, Text.trim, String.toList_ofList, List.map_map]
  rfl

theorem normalize_eq_iff {name s : String} (hname : name.toList.any Text.isBlank = false) :
    normalize s = name ↔ Text.Spells letter name s := by
  rw [← Text.map_trimChars_eq_iff isBlank_letter hname, normalize_eq, ← String.toList_inj,
    String.toList_ofList]

theorem names_iff_speltBy (m : Method) (s : String) : m.Names s ↔ m.SpeltBy s := by
  have hid : m.id.toList.any Text.isBlank = false := by cases m <;> decide
  have hlong : m.longName.toList.any Text.isBlank = false := by cases m <;> decide
  rw [Names, SpeltBy, normalize_eq_iff hid, normalize_eq_iff hlong]

/-! ### Methods and strategies -/

theorem named_or_unnamed (s : String) : (∃ m : Method, m.Names s) ∨ Unnamed s := by
  rw [Unnamed, ← not_exists]
  exact em _

/-- A reader is exact that takes a text for the method that it names, and refuses it if it names
none. -/
theorem decides_names {ε : Type} {a : Except ε Method} {s : String} {refusal : ε}
    (hnamed : ∀ m : Method, m.Names s → a = .ok m) (hunnamed : Unnamed s → a = .error refusal) :
    Decides a (·.Names s) fun e => Unnamed s ∧ e = refusal := by
  refine .of_total hnamed (fun e he => ?_) ?_
  · rw [he.2]
    exact hunnamed he.1
  · exact (named_or_unnamed s).imp_right fun h => ⟨refusal, h, rfl⟩

theorem ofName_decides (s : String) :
    Decides (ofName s) (·.Names s) fun e => Unnamed s ∧ e = .unknownMethod s :=
  decides_names (fun _ => ofName_of_names) ofName_of_unnamed

theorem decode_text_decides (s : String) :
    Decides (decode (.text s)) (·.Names s) fun e => Unnamed s ∧ e = .unknownMethod s :=
  decides_names (fun _ => decode_text_of_names) decode_text_of_unnamed

/-- A strategy is found by the names of its method. -/
theorem resolve_decides {α : Type} (r : Detection.Registry α) (s : String) :
    Decides (r.resolve s)
      (fun strategy => strategy.method.Names s ∧ strategy = r.get strategy.method)
      fun e => Unnamed s ∧ e = .unknownMethod s := by
  refine ((ofName_decides s).bind fun m _ => .pure (r.get m)).congr (fun strategy => ?_) ?_
  · constructor
    · rintro ⟨m, hm, rfl⟩
      rw [r.get_method]
      exact ⟨hm, rfl⟩
    · rintro ⟨hm, hget⟩
      exact ⟨strategy.method, hm, hget⟩
  · simp

theorem compare_of_resolve {α : Type} [Arithmetic α] {t : Thresholds α} {s : String}
    {strategy : Detection.Strategy α}
    (h : (Detection.Registry.ofThresholds t).resolve s = .ok strategy) (b p : Profile α) :
    strategy.compare b p = Detection.run t b p strategy.method := by
  obtain ⟨-, hget⟩ := ((resolve_decides _ s).ok strategy).mp h
  rw [Detection.Registry.get_ofThresholds] at hget
  rw [hget]

end Method

/-! ### Selections -/

namespace Selection

/-- A text is read as all methods. -/
def SpeltAll (s : String) : Prop := Text.Spells Char.toLower "all" s

theorem lower_trim_eq_iff (s : String) : Text.lower (Text.trim s) = "all" ↔ SpeltAll s := by
  have hplain : "all".toList.any Text.isBlank = false := by decide
  rw [SpeltAll, ← Text.map_trimChars_eq_iff Text.isBlank_toLower hplain, ← String.toList_inj,
    Text.lower, Text.trim, String.toList_ofList, String.toList_ofList]

/-- No method has the name that all of them are selected by. -/
theorem unnamed_of_speltAll {s : String} (h : SpeltAll s) : Method.Unnamed s := by
  have hnormal : Method.normalize s = "all" := by
    rw [Method.normalize, (lower_trim_eq_iff s).mpr h]
    decide
  intro m
  rw [Method.Names, hnormal]
  cases m <;> decide

theorem ofName_of_speltAll {s : String} (h : SpeltAll s) : ofName s = .ok .all := by
  rw [ofName, ofName?, if_pos ((lower_trim_eq_iff s).mpr h)]

theorem ofName_of_not_speltAll {s : String} (h : ¬SpeltAll s) :
    ofName s = Method.ofName s >>= fun m => pure (only m) := by
  rw [ofName, ofName?, if_neg (mt (lower_trim_eq_iff s).mp h)]
  rcases Method.named_or_unnamed s with ⟨m, hm⟩ | hunnamed
  · rw [Method.ofName?_eq_some_iff.mpr hm, Method.ofName_of_names hm]
    rfl
  · rw [Method.ofName?_eq_none_iff.mpr hunnamed, Method.ofName_of_unnamed hunnamed]
    rfl

/-- A text selects all methods, or the one that it names, or nothing. -/
theorem ofName_decides (s : String) :
    Decides (ofName s) (fun x => x = .all ∧ SpeltAll s ∨ ∃ m : Method, m.Names s ∧ x = .only m)
      fun e => ¬SpeltAll s ∧ Method.Unnamed s ∧ e = .unknownMethod s := by
  by_cases hall : SpeltAll s
  · -- the look for `all` comes first, but it takes no method's name away
    refine .of_total (fun x hx => ?_) (fun e he => absurd hall he.1) (.inl ⟨_, .inl ⟨rfl, hall⟩⟩)
    rcases hx with ⟨rfl, -⟩ | ⟨m, hm, -⟩
    · exact ofName_of_speltAll hall
    · exact absurd hm (unnamed_of_speltAll hall m)
  · have hdecides := (Method.ofName_decides s).bind fun m _ => .pure (only m)
    rw [ofName_of_not_speltAll hall]
    refine hdecides.congr (fun x => ?_) fun e => ?_
    · simp [hall]
    · simp [hall]

end Selection

/-! ### Rules -/

namespace Rule
variable {entries : Table} {s : String}

theorem ruleOf_eq_ok_iff (hmethod : entries.get? "method" = some (.string s)) {r : Rule} :
    Config.ruleOf (.table entries) = .ok r ↔ r.method.Names s ∧ ConstraintsRead entries r := by
  rw [(ruleOf_decides _).ok]
  constructor
  · intro h
    cases h with
    | table hmethod' hm hconstraints =>
      cases hmethod.symm.trans hmethod'
      exact ⟨hm, hconstraints⟩
  · rintro ⟨hm, hconstraints⟩
    exact .table hmethod hm hconstraints

theorem ruleOf_eq_unknownMethod_iff (hmethod : entries.get? "method" = some (.string s))
    {text : String} :
    Config.ruleOf (.table entries) = .error (.unknownMethod text) ↔
      Method.Unnamed s ∧ text = s := by
  rw [(ruleOf_decides _).error]
  constructor
  · intro h
    cases h with
    | unknownMethod hmethod' h =>
      cases hmethod.symm.trans hmethod'
      exact ⟨h, rfl⟩
  · rintro ⟨h, rfl⟩
    exact .unknownMethod hmethod h

end Rule

/-! ### All readings -/

namespace Method

/-- What a text is read as, wherever a method is read: the method that it names, and if it names
none, a failure that quotes it. -/
structure Readings (s : String) : Prop where
  name : Decides (ofName s) (·.Names s) fun e => Unnamed s ∧ e = .unknownMethod s
  document : Decides (decode (.text s)) (·.Names s) fun e => Unnamed s ∧ e = .unknownMethod s
  strategy : ∀ {α : Type} (r : Detection.Registry α), Decides (r.resolve s)
    (fun strategy => strategy.method.Names s ∧ strategy = r.get strategy.method)
    fun e => Unnamed s ∧ e = .unknownMethod s
  compares : ∀ {α : Type} [Arithmetic α] (t : Thresholds α) (strategy : Detection.Strategy α),
    (Detection.Registry.ofThresholds t).resolve s = .ok strategy →
      ∀ b p, strategy.compare b p = Detection.run t b p strategy.method
  selection : Decides (Selection.ofName s)
    (fun x => x = .all ∧ Selection.SpeltAll s ∨ ∃ m : Method, m.Names s ∧ x = .only m)
    fun e => ¬Selection.SpeltAll s ∧ Unnamed s ∧ e = .unknownMethod s
  rule : ∀ entries : Table, entries.get? "method" = some (.string s) →
    ∀ r, Config.ruleOf (.table entries) = .ok r ↔
      r.method.Names s ∧ Rule.ConstraintsRead entries r
  ruleRefused : ∀ entries : Table, entries.get? "method" = some (.string s) →
    ∀ text, Config.ruleOf (.table entries) = .error (.unknownMethod text) ↔
      Unnamed s ∧ text = s

theorem readings (s : String) : Readings s where
  name := ofName_decides s
  document := decode_text_decides s
  strategy r := resolve_decides r s
  compares _ _ h := compare_of_resolve h
  selection := Selection.ofName_decides s
  rule _ hmethod _ := Rule.ruleOf_eq_ok_iff hmethod
  ruleRefused _ hmethod _ := Rule.ruleOf_eq_unknownMethod_iff hmethod

theorem joint_eq_iff {c d : Char} (h : '_' ≠ d) (h' : '-' ≠ d) : joint c = d ↔ c = d := by
  rw [joint]
  split
  · next hdash => simp [hdash, h, h']
  · rfl

/-- How words are joined makes no difference to a word without joints. -/
theorem map_joint_eq_iff {cs word : List Char} (h : '_' ∉ word) (h' : '-' ∉ word) :
    cs.map joint = word ↔ cs = word := by
  induction cs generalizing word with
  | nil => rfl
  | cons c cs ih =>
    cases word with
    | nil => simp
    | cons d word =>
      rw [List.mem_cons, not_or] at h h'
      rw [List.map_cons, List.cons.injEq, List.cons.injEq, joint_eq_iff h.1 h'.1, ih h.2 h'.2]

theorem speltAll_iff (s : String) : Selection.SpeltAll s ↔ normalize s = "all" := by
  have hjoints : (normalize s).toList = (Text.lower (Text.trim s)).toList.map joint :=
    String.toList_ofList
  rw [← Selection.lower_trim_eq_iff, ← String.toList_inj, ← String.toList_inj, hjoints,
    map_joint_eq_iff (by decide) (by decide)]

/-- **A name is read alike wherever it is read.** A text is taken for a method by its name alone,
in a document, in a registry, as a selection and in a rule if it spells one of the names of the
method, and everywhere for the same one; how it is spelt makes no difference. No other text is
taken for a method: it is refused and quoted as it was given, unless it selects all methods. -/
theorem names_read_alike (s : String) :
    Readings s ∧ (∀ m : Method, m.Names s ↔ m.SpeltBy s) ∧
      (Selection.SpeltAll s → Unnamed s) ∧
      ∀ s', normalize s = normalize s' →
        (∀ m : Method, m.Names s ↔ m.Names s') ∧
          (Selection.SpeltAll s ↔ Selection.SpeltAll s') := by
  refine ⟨readings s, fun m => names_iff_speltBy m s, Selection.unnamed_of_speltAll, ?_⟩
  intro s' h
  constructor
  · intro m
    rw [Names, Names, h]
  · rw [speltAll_iff, speltAll_iff, h]

/-- White space, case and both joints at once; a letter that only looks like one of the name; and
a text that selects all methods, which names none. -/
theorem names_read_alike_trial :
    let s := "\u00a0\tFast-CHECK \u2003"
    let lookalike := "fast_chec\u212a"
    (normalize s = normalize "FAST_check" ∧ ofName s = .ok .fastCheck ∧
        decode (.text s) = .ok .fastCheck ∧ Selection.ofName s = .ok (.only .fastCheck) ∧
        Config.ruleOf (.table [("method", .string s)]) = .ok {method := .fastCheck}) ∧
      ofName lookalike = .error (.unknownMethod lookalike) ∧
      Config.ruleOf (.table [("method", .string lookalike)]) =
        .error (.unknownMethod lookalike) ∧
      Selection.ofName " aLL\n" = .ok .all := by
  intro s lookalike
  obtain ⟨hs, -, -, halike⟩ := names_read_alike s
  obtain ⟨hlookalike, -⟩ := names_read_alike lookalike
  have hnormal : normalize s = normalize "FAST_check" := by decide +kernel
  have hname : Names .fastCheck s := by
    rw [(halike _ hnormal).1]
    exact .inr (by decide +kernel)
  have hunnamed : Unnamed lookalike := by
    intro m
    rw [Names]
    cases m <;> decide +kernel
  have hall : Selection.SpeltAll " aLL\n" := (speltAll_iff _).mpr (by decide +kernel)
  refine ⟨⟨hnormal, (hs.name.ok _).mpr hname, (hs.document.ok _).mpr hname,
    (hs.selection.ok _).mpr (.inr ⟨_, hname, rfl⟩),
    (hs.rule _ rfl _).mpr ⟨hname, .absent, .absent, .absent⟩⟩,
    (hlookalike.name.error _).mpr ⟨hunnamed, rfl⟩,
    (hlookalike.ruleRefused _ rfl _).mpr ⟨hunnamed, rfl⟩, ?_⟩
  exact ((names_read_alike _).1.selection.ok _).mpr (.inl ⟨rfl, hall⟩)

end Method
end PerfDrift
