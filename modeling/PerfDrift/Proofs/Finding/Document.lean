import PerfDrift.Finding.Document
import PerfDrift.Proofs.Document.Record
import PerfDrift.Proofs.Document.Scalar
import PerfDrift.Proofs.Json.Written

/-! Findings, records and entries survive their documents.

What is made of a finding with finite numbers is decoded to the finding, with every number that
it has and no other. The same goes for what holds findings, and for their JSON texts as far as
the texts of the numbers are read back. -/
namespace PerfDrift
open Document

theorem Verdict.decode_name (v : Verdict) : Verdict.decode (.text v.name) = .ok v :=
  asVariant_name (by decide) (by cases v <;> decide)

theorem ConfidenceKind.decode_name (k : ConfidenceKind) :
    ConfidenceKind.decode (.text k.name) = .ok k :=
  asVariant_name (by decide) (by cases k <;> decide)

/-! ### Findings -/

namespace Finding

/-- The numbers that a finding has. -/
def numbers (f : Finding Float) : List Float := f.rate.toList ++ f.confidence.toList

/-- The numbers that a finding has are finite. -/
def IsFinite (f : Finding Float) : Prop := ∀ x ∈ f.numbers, x.isFinite

def slots : List (Slot (Finding Float)) :=
  [.mandatory "strategy" asText (·.strategy), .mandatory "location" asText (·.location),
    .mandatory "classification" Verdict.decode (·.verdict),
    .defaulted "rate" (asOption asFloat) none (·.rate),
    .mandatory "confidence_type" ConfidenceKind.decode (·.confidenceKind),
    .defaulted "confidence_rate" (asOption asFloat) none (·.confidence),
    .defaulted "from_baseline" (asOption asText) none (·.fromModel),
    .defaulted "to_target" (asOption asText) none (·.toModel)]

theorem decodesBy : DecodesBy decode slots := by
  refine decodesBy_asRecord rfl fun l f => ?_
  simp only [slots, Slot.fill_mandatory, Slot.fill_defaulted, Slot.fill_nil, and_true, bind_eq_ok]
  constructor
  · rintro ⟨_, hstrategy, _, hlocation, _, hverdict, _, hrate, _, hkind, _, hconfidence, _, hfrom,
      _, hto, ⟨⟩⟩
    exact ⟨hstrategy, hlocation, hverdict, hrate, hkind, hconfidence, hfrom, hto⟩
  · rintro ⟨hstrategy, hlocation, hverdict, hrate, hkind, hconfidence, hfrom, hto⟩
    exact ⟨_, hstrategy, _, hlocation, _, hverdict, _, hrate, _, hkind, _, hconfidence, _, hfrom,
      _, hto, rfl⟩

variable {f : Finding Float}

theorem IsFinite.rate (h : f.IsFinite) : ∀ x, f.rate = some x → x.isFinite := by
  intro x hx
  refine h x (List.mem_append_left _ ?_)
  rw [hx]
  exact List.mem_singleton_self x

theorem IsFinite.confidence (h : f.IsFinite) : ∀ x, f.confidence = some x → x.isFinite := by
  intro x hx
  refine h x (List.mem_append_right _ ?_)
  rw [hx]
  exact List.mem_singleton_self x

theorem optional_names (name : String) (s : Option String) :
    ((optional name s).map (·.1)).Sublist [name] := by
  cases s with
  | none => exact List.nil_sublist _
  | some s => exact .refl _

theorem decode_encode (h : f.IsFinite) : decode f.encode = .ok f := by
  refine (decodesBy ..).mpr ⟨rfl, legible_ofMembers ?_ (by decide), ?_⟩
  · rw [List.map_append, List.map_append]
    exact ((List.Sublist.refl _).append (optional_names _ _)).append (optional_names _ _)
  · simp only [slots, Slot.fill_mandatory, Slot.fill_defaulted, Slot.fill_nil, and_true]
    have hverdict := Verdict.decode_name f.verdict
    have hrate := asOption_ofFloat? h.rate
    have hkind := ConfidenceKind.decode_name f.confidenceKind
    have hconfidence := asOption_ofFloat? h.confidence
    refine ⟨rfl, rfl, (Lookup.get_of_some rfl).trans hverdict,
      (Lookup.getD_of_some rfl).trans hrate, (Lookup.get_of_some rfl).trans hkind,
      (Lookup.getD_of_some rfl).trans hconfidence, ?_, ?_⟩
    -- a model that is not there has no member, and the other one may have none either
    · obtain ⟨_, _, _, _, _, _, fromModel, toModel⟩ := f
      cases fromModel <;> cases toModel <;> rfl
    · obtain ⟨_, _, _, _, _, _, fromModel, toModel⟩ := f
      cases fromModel <;> cases toModel <;> rfl

/-- The document of the finding has a number wherever the finding has one. -/
def KeepsNumbers (f : Finding Float) : Prop :=
  ∀ ms ending, f.encode = .record ms ending →
    (memberNamed ms "rate" = some .null ↔ f.rate = none) ∧
      (memberNamed ms "confidence_rate" = some .null ↔ f.confidence = none)

theorem keepsNumbers (h : f.IsFinite) : f.KeepsNumbers := by
  rintro ms ending ⟨⟩
  constructor
  · show some (ofFloat? f.rate) = some .null ↔ _
    rw [Option.some.injEq, ofFloat?_eq_null_iff h.rate]
  · show some (ofFloat? f.confidence) = some .null ↔ _
    rw [Option.some.injEq, ofFloat?_eq_null_iff h.confidence]

theorem writable_optional (name : String) (s : Option String) :
    ∀ m ∈ optional name s, Json.Writable m.2 := by
  cases s with
  | none => exact fun m hm => nomatch hm
  | some s => exact List.forall_mem_singleton.mpr (.text s)

/-- The text of a finding is read back if the texts of its numbers are. -/
theorem writable_encode (h : f.IsFinite) (hcarries : ∀ x ∈ f.numbers, Json.Carries (.real x)) :
    Json.Writable f.encode := by
  have hnumber : ∀ x : Option Float, (∀ y ∈ x.toList, y ∈ f.numbers) →
      Json.Writable (ofFloat? x) := by
    intro x hx
    cases x with
    | none => exact .null
    | some y =>
      have hy := hx y (List.mem_singleton_self y)
      rw [ofFloat?_of_isFinite (h y hy)]
      exact .number (hcarries y hy)
  have hrate := hnumber f.rate fun y hy => List.mem_append_left _ hy
  have hconfidence := hnumber f.confidence fun y hy => List.mem_append_right _ hy
  refine Json.writable_ofMembers ?_
  simp only [List.forall_mem_append, List.forall_mem_cons]
  exact ⟨⟨⟨.text _, .text _, .text _, hrate, .text _, hconfidence, by simp⟩,
    writable_optional _ _⟩, writable_optional _ _⟩

end Finding

/-! ### Records and entries -/

namespace Record

def slots : List (Slot (Record Float)) :=
  [.mandatory "info" Finding.decode (·.finding), .mandatory "baseline" asText (·.baseline),
    .mandatory "profile" asText (·.profile)]

theorem decodesBy : DecodesBy decode slots := by
  refine decodesBy_asRecord rfl fun l r => ?_
  simp only [slots, Slot.fill_mandatory, Slot.fill_nil, and_true, bind_eq_ok]
  constructor
  · rintro ⟨_, hfinding, _, hbaseline, _, hprofile, ⟨⟩⟩
    exact ⟨hfinding, hbaseline, hprofile⟩
  · rintro ⟨hfinding, hbaseline, hprofile⟩
    exact ⟨_, hfinding, _, hbaseline, _, hprofile, rfl⟩

variable {r : Record Float}

theorem decode_encode (h : r.finding.IsFinite) : decode r.encode = .ok r := by
  refine (decodesBy ..).mpr ⟨rfl, legible_ofMembers (.refl _) (by decide), ?_⟩
  simp only [slots, Slot.fill_mandatory, Slot.fill_nil, and_true]
  exact ⟨(Lookup.get_of_some rfl).trans (Finding.decode_encode h), rfl, rfl⟩

theorem writable_encode (h : r.finding.IsFinite)
    (hcarries : ∀ x ∈ r.finding.numbers, Json.Carries (.real x)) : Json.Writable r.encode := by
  refine Json.writable_ofMembers ?_
  simp only [List.forall_mem_cons]
  exact ⟨Finding.writable_encode h hcarries, .text _, .text _, by simp⟩

end Record

namespace Entry

def slots : List (Slot (Entry Float)) :=
  [.mandatory "target" asText (·.target), .mandatory "record" Record.decode (·.record)]

theorem decodesBy : DecodesBy decode slots := by
  refine decodesBy_asRecord rfl fun l e => ?_
  simp only [slots, Slot.fill_mandatory, Slot.fill_nil, and_true, bind_eq_ok]
  constructor
  · rintro ⟨_, htarget, _, hrecord, ⟨⟩⟩
    exact ⟨htarget, hrecord⟩
  · rintro ⟨htarget, hrecord⟩
    exact ⟨_, htarget, _, hrecord, rfl⟩

variable {e : Entry Float}

theorem decode_encode (h : e.record.finding.IsFinite) : decode e.encode = .ok e := by
  refine (decodesBy ..).mpr ⟨rfl, legible_ofMembers (.refl _) (by decide), ?_⟩
  simp only [slots, Slot.fill_mandatory, Slot.fill_nil, and_true]
  exact ⟨rfl, (Lookup.get_of_some rfl).trans (Record.decode_encode h)⟩

theorem writable_encode (h : e.record.finding.IsFinite)
    (hcarries : ∀ x ∈ e.record.finding.numbers, Json.Carries (.real x)) :
    Json.Writable e.encode := by
  refine Json.writable_ofMembers ?_
  simp only [List.forall_mem_cons]
  exact ⟨.text _, Record.writable_encode h hcarries, by simp⟩

end Entry
end PerfDrift
