import PerfDrift.CommandLine.Session
import PerfDrift.Proofs.Detection.Survival
import PerfDrift.Proofs.Outcome

/-! A comparison answers in full or not at all.

Five stages can fail, and `Comparison.fault?` judges each of them by itself, whatever becomes of
the others. A comparison fails for what is wrong at the first stage at fault
(`Comparison.errorOf_findings`), and succeeds with the findings of what it goes by
(`Comparison.findings_eq_ok_iff`). A session prints the findings or the error, whatever the words
of the readers are, and the label of the version is in neither (`session_all_or_nothing`). -/
namespace PerfDrift.CommandLine
open Detection

/-! ### Stages -/

/-- What can fail in a comparison. -/
inductive Stage where
  | configuration
  | method
  | baseline
  | target
  | compatibility
deriving DecidableEq, Repr

namespace Stage

/-- The stages in their order. -/
def all : List Stage := [.configuration, .method, .baseline, .target, .compatibility]

theorem findSome?_all {β : Type} (f : Stage → Option β) :
    all.findSome? f = (f .configuration).or ((f .method).or ((f .baseline).or
      ((f .target).or (f .compatibility)))) := by
  have hcons : ∀ stage rest, List.findSome? f (stage :: rest) =
      (f stage).or (rest.findSome? f) := by
    intro stage rest
    rw [List.findSome?_cons]
    cases f stage <;> rfl
  rw [all, hcons, hcons, hcons, hcons, hcons, List.findSome?_nil, Option.or_none]

end Stage

namespace Comparison

/-- What is wrong at a stage, whatever is wrong at the others. Only profiles that can be loaded
are incompatible. -/
def fault? (files : Files) (c : Comparison) : Stage → Option ComparisonError
  | .configuration => errorOf (c.configuration files)
  | .method => errorOf ((Selection.ofName c.method).mapError .failed)
  | .baseline => errorOf ((Profile.load files c.baseline).mapError .failed)
  | .target => errorOf ((Profile.load files c.target).mapError .failed)
  | .compatibility =>
    match Profile.load files c.baseline, Profile.load files c.target with
    | .ok baseline, .ok target =>
      errorOf ((Check.requireCompatible baseline target).mapError .failed)
    | _, _ => none

/-- What a comparison goes by: a configuration, a selection of methods, and two profiles. -/
structure GoesBy (files : Files) (c : Comparison) (config : Config) (selection : Selection)
    (baseline target : Profile Float) : Prop where
  configuration : c.configuration files = .ok config
  method : Selection.ofName c.method = .ok selection
  baseline : Profile.load files c.baseline = .ok baseline
  target : Profile.load files c.target = .ok target

variable {files : Files} {c : Comparison} {config : Config} {selection : Selection}
  {baseline target : Profile Float} {fs : List (Finding Float)}

/-! ### Findings -/

theorem compareProfiles_eq_ok_iff {t : Thresholds Float} :
    Check.compareProfiles t baseline target selection = .ok fs ↔
      compare? t baseline target selection = some fs := by
  rw [Check.compareProfiles]
  cases compare? t baseline target selection with
  | none => simp
  | some fs' => simp

/-- Two profiles that are there can be at fault only for being incompatible. -/
theorem GoesBy.fault?_compatibility (h : GoesBy files c config selection baseline target)
    (t : Thresholds Float) :
    errorOf ((Check.compareProfiles t baseline target selection).mapError .failed) =
      c.fault? files .compatibility := by
  rw [fault?, h.baseline, h.target]
  by_cases hcompatible : baseline.Compatible target
  · rw [Check.compareProfiles, compare?, if_pos hcompatible]
    simp only [Check.requireCompatible, if_pos hcompatible]
    rfl
  · rw [Check.compareProfiles, compare?, if_neg hcompatible]
    simp only [Check.requireCompatible, if_neg hcompatible]
    rfl

/-- A comparison succeeds with the findings of what it goes by. -/
theorem findings_eq_ok_iff :
    c.findings files = .ok fs ↔
      ∃ config selection baseline target, GoesBy files c config selection baseline target ∧
        compare? config.thresholds baseline target selection = some fs := by
  simp only [findings, bind_eq_ok, mapError_eq_ok, compareProfiles_eq_ok_iff]
  constructor
  · rintro ⟨config, hconfig, selection, hselection, baseline, hbaseline, target, htarget, hfs⟩
    exact ⟨config, selection, baseline, target, ⟨hconfig, hselection, hbaseline, htarget⟩, hfs⟩
  · rintro ⟨config, selection, baseline, target, h, hfs⟩
    exact ⟨config, h.configuration, selection, h.method, baseline, h.baseline, target, h.target,
      hfs⟩

/-- A comparison fails for what is wrong at the first stage at fault. -/
theorem errorOf_findings (files : Files) (c : Comparison) :
    errorOf (c.findings files) = Stage.all.findSome? (c.fault? files) := by
  rw [Stage.findSome?_all]
  -- a stage that succeeds leaves the error to the stages after it
  refine errorOf_bind fun config hconfig => errorOf_bind fun selection hselection =>
    errorOf_bind fun baseline hbaseline => errorOf_bind fun target htarget => ?_
  have h : GoesBy files c config selection baseline target :=
    ⟨hconfig, mapError_eq_ok.mp hselection, mapError_eq_ok.mp hbaseline,
      mapError_eq_ok.mp htarget⟩
  exact h.fault?_compatibility config.thresholds

end Comparison

/-! ### Sessions -/

/-- A JSON text of findings. It is complete, and it is read as a list with one item for each of
them in their order, which is its document with every number as its own text is read. Findings
whose numbers are carried are decoded from it. -/
structure Renders (s : String) (fs : List (Finding Float)) : Prop where
  read : Json.read s = (.ofList (fs.map fun f => Json.asRead f.encode), true)
  decoded : (∀ f ∈ fs, ∀ x ∈ f.numbers, Json.Carries (.real x)) →
    Json.decode (Document.asList Finding.decode) s = .ok fs

theorem renders_indented (fs : List (Finding Float)) :
    Renders (lineOf (Json.indented (Finding.encodeAll fs))) fs where
  read := by
    rw [lineOf, Json.read_indented _ Json.isSpace_newline, Finding.encodeAll, Json.asRead_ofList,
      List.map_map]
    rfl
  decoded := by
    intro hcarries
    have hfinite : ∀ f ∈ fs, f.IsFinite := fun f hf x hx =>
      Json.isFinite_of_carries (hcarries f hf x hx)
    refine (Finding.survives_all hfinite).2 (fun x hx => ?_) "\n" Json.isSpace_newline
    obtain ⟨f, hf, hx⟩ := List.mem_flatMap.mp hx
    exact hcarries f hf x hx

/-- A session that shows findings: in text a line for each of them and then the summary, in JSON
the list of them. -/
structure Shows (format : Format) (fs : List (Finding Float)) (o : Output) : Prop where
  exit : o.exit = 0
  stderr : o.stderr = ""
  text : format = .text →
    o.stdout = String.join ((fs.map Finding.line ++ [(Tally.ofFindings fs).summary]).map lineOf)
  json : format = .json →
    o.stdout = lineOf (Json.indented (Finding.encodeAll fs)) ∧ Renders o.stdout fs

theorem shows_print (format : Format) (fs : List (Finding Float)) :
    Shows format fs {exit := 0, stdout := format.print fs} where
  exit := rfl
  stderr := rfl
  text := by
    intro h
    subst h
    simp [Format.print, Function.comp_def]
  json := by
    intro h
    subst h
    exact ⟨rfl, renders_indented fs⟩

/-- **All or nothing.** With any files, and with any arguments that ask for a comparison, a
session prints no more than the error of the first stage at fault, whatever the later stages
would come to; or there is none, and it shows the findings on the two profiles under the
thresholds that are configured. The label of the version makes no difference. -/
theorem session_all_or_nothing {args : List String} {debug : Bool} {c : Comparison}
    (h : Invocation.ofArguments args = .ok ⟨debug, .checkProfiles c⟩) (w : Wording)
    (files : Files) :
    (∀ e, Stage.all.findSome? (c.fault? files) = some e →
        session w files args =
          {exit := 1, stdout := "", stderr := "Error: " ++ e.message w.toWording ++ "\n"}) ∧
      (Stage.all.findSome? (c.fault? files) = none →
        ∃ config selection baseline target fs, c.GoesBy files config selection baseline target ∧
          compare? config.thresholds baseline target selection = some fs ∧
          Shows c.format fs (session w files args)) ∧
      ∀ args' debug' minor,
        Invocation.ofArguments args' = .ok ⟨debug', .checkProfiles {c with minor}⟩ →
          session w files args' = session w files args := by
  have hsession : session w files args = c.run w files := by
    rw [session, h]
    rfl
  rw [← Comparison.errorOf_findings, hsession]
  refine ⟨fun e he => ?_, fun hnone => ?_, fun args' debug' minor h' => ?_⟩
  · rw [Comparison.run, errorOf_eq_some.mp he]
    rfl
  · obtain ⟨fs, hfs⟩ := errorOf_eq_none.mp hnone
    obtain ⟨config, selection, baseline, target, hgoes, hcompared⟩ :=
      Comparison.findings_eq_ok_iff.mp hfs
    refine ⟨config, selection, baseline, target, fs, hgoes, hcompared, ?_⟩
    rw [Comparison.run, hfs]
    exact shows_print c.format fs
  · rw [session, h']
    rfl

namespace Trial

/-- Three profiles and a configuration that is cut off, and nothing else. -/
def files : Files := fun path =>
  if path = "old.json" then .ok "[\"ci\", \"time\", [], \"ls\", [[\"sort\", 100]]]"
  else if path = "new.json" then .ok "[\"ci\", \"time\", [], \"ls\", [[\"sort\", 130]]]"
  else if path = "slow.json" then .ok "[\"ci\", \"time\", [], \"ls\", [[\"sort\", 200]]]"
  else if path = "cut.toml" then .ok "[degradation"
  else .error ⟨"No such file or directory (os error 2)"⟩

def wording : Wording where
  toml _ :=
    "TOML parse error at line 1, column 13\n  |\n1 | [degradation\n  |             ^\n"
      ++ "invalid table header\nexpected `.`, `]`\n"
  json _ := "expected value"
  place _ := (1, 1)
  arguments _ := "unexpected argument"

/-- What there is between the old profile and the slow one. -/
def doubled : Finding Float := ⟨"aat", "sort", .degradation, some 1, .none, none, none, none⟩

theorem carries_doubled : ∀ f ∈ [doubled], ∀ x ∈ f.numbers, Json.Carries (.real x) := by
  simp [doubled, Finding.numbers, Json.carries_one]

end Trial

/-- A comparison of two profiles shows what it finds: in text, under one label as under another,
and in JSON, from which it is decoded. Where the configuration is cut off, nobody knows the method
and a profile is not there, the configuration is reported. -/
theorem session_all_or_nothing_trial :
    let args := ["check-profiles", "old.json", "new.json", "--method", "aat"]
    let args' := ["check-profiles", "old.json", "slow.json", "--method=aat", "--format", "json"]
    let args'' := ["check-profiles", "old.json", "none.json", "--method=mean", "-c", "cut.toml"]
    let c : Comparison := ⟨"old.json", "new.json", "aat", "HEAD", none, .text⟩
    let c' : Comparison := ⟨"old.json", "slow.json", "aat", "HEAD", none, .json⟩
    let c'' : Comparison := ⟨"old.json", "none.json", "mean", "HEAD", some "cut.toml", .text⟩
    (Invocation.ofArguments args = .ok ⟨false, .checkProfiles c⟩ ∧
        (∃ fs, Shows .text fs (session Trial.wording Trial.files args)) ∧
        session Trial.wording Trial.files (args ++ ["--minor", "v2"]) =
          ⟨0, "aat: Degradation at sort (rate: +30.00%)\n- 0 optimizations, 1 degradation\n", ""⟩) ∧
      (Invocation.ofArguments args' = .ok ⟨false, .checkProfiles c'⟩ ∧
        Json.decode (Document.asList Finding.decode)
            (session Trial.wording Trial.files args').stdout = .ok [Trial.doubled]) ∧
      Invocation.ofArguments args'' = .ok ⟨false, .checkProfiles c''⟩ ∧
        c''.fault? Trial.files .method ≠ none ∧ c''.fault? Trial.files .target ≠ none ∧
        session Trial.wording Trial.files args'' =
          ⟨1, "", "Error: failed to load configuration cut.toml\n\nCaused by:\n    "
            ++ "invalid degradation configuration: invalid TOML: TOML parse error at "
            ++ "line 1, column 13\n      |\n    1 | [degradation\n      |             ^\n"
            ++ "    invalid table header\n    expected `.`, `]`\n    \n"⟩ := by
  intro args args' args'' c c' c''
  have h : Invocation.ofArguments args = .ok ⟨false, .checkProfiles c⟩ := rfl
  have h' : Invocation.ofArguments args' = .ok ⟨false, .checkProfiles c'⟩ := rfl
  have h'' : Invocation.ofArguments args'' = .ok ⟨false, .checkProfiles c''⟩ := rfl
  obtain ⟨-, hfull, hlabel⟩ := session_all_or_nothing h Trial.wording Trial.files
  obtain ⟨-, -, -, -, fs, -, -, hshows⟩ := hfull (by decide +kernel)
  refine ⟨⟨h, ⟨fs, hshows⟩, ?_⟩, ⟨h', ?_⟩, h'', by decide +kernel, by decide +kernel, ?_⟩
  · refine (hlabel (args ++ ["--minor", "v2"]) false "v2" rfl).trans ?_
    decide +kernel
  · obtain ⟨-, hfull', -⟩ := session_all_or_nothing h' Trial.wording Trial.files
    obtain ⟨config, selection, baseline, target, fs', hgoes, hcompared, hshows'⟩ :=
      hfull' (by decide +kernel)
    have hfindings : c'.findings Trial.files = .ok fs' :=
      Comparison.findings_eq_ok_iff.mpr ⟨config, selection, baseline, target, hgoes, hcompared⟩
    have hfound : c'.findings Trial.files = .ok [Trial.doubled] := by decide +kernel
    obtain rfl := Except.ok.inj (hfindings.symm.trans hfound)
    exact (hshows'.json rfl).2.decoded Trial.carries_doubled
  · refine ((session_all_or_nothing h'' Trial.wording Trial.files).1
      (.config "cut.toml" (.configuration (.notToml "[degradation"))) (by decide +kernel)).trans ?_
    decide +kernel

end PerfDrift.CommandLine
