import PerfDrift.Files
import PerfDrift.Proofs.Document.Edit
import PerfDrift.Proofs.Document.Scalar
import PerfDrift.Proofs.Json.Written

/-! Profiles and their documents.

A profile with finite numbers is decoded from the document that is made of it, and from every
document that edits make of that one: the order of members does not matter, nor does what nobody
asks for or what has its default. A missing, repeated or null field does matter, wherever it is
(`Profile.ofJson_edits`). -/
namespace PerfDrift
open Document

theorem ModelKind.decode_name (k : ModelKind) : ModelKind.decode (.text k.name) = .ok k :=
  asVariant_name (by decide) (by cases k <;> decide)

/-! ### Resources -/

namespace Resource

def slots : List (Slot (Resource Float)) :=
  [.mandatory "location" asText (·.location), .mandatory "amount" asFloat (·.amount),
    .defaulted "calls" asCount 1 (·.calls)]

theorem decodesBy : DecodesBy decode slots := by
  refine decodesBy_asRecord rfl fun l r => ?_
  simp only [slots, Slot.fill_mandatory, Slot.fill_defaulted, Slot.fill_nil, and_true, bind_eq_ok]
  constructor
  · rintro ⟨location, hlocation, amount, hamount, calls, hcalls, ⟨⟩⟩
    exact ⟨hlocation, hamount, hcalls⟩
  · rintro ⟨hlocation, hamount, hcalls⟩
    exact ⟨_, hlocation, _, hamount, _, hcalls, rfl⟩

def shape : Shape where
  required := ["location", "amount"]
  defaults := [("calls", .number (.integer 1))]
  lists := []

theorem describes : shape.Describes slots where
  names := by simp [slots, shape, Shape.names, Slot.mandatory, Slot.defaulted]
  required := by simp [slots, shape, Slot.mandatory, Slot.defaulted]
  defaults := by simp [slots, shape, Slot.mandatory, Slot.defaulted, asCount]
  null := by simp [slots, shape, Slot.mandatory, Slot.defaulted, asCount, mismatch, found?]
  listed := by simp [shape]
  lists := by simp [shape]

theorem decode_encode {r : Resource Float} (h : r.amount.isFinite) : decode r.encode = .ok r := by
  refine (decodesBy ..).mpr ⟨rfl, legible_ofMembers (.refl _) (by decide), ?_⟩
  simp only [slots, Slot.fill_mandatory, Slot.fill_defaulted, Slot.fill_nil, and_true]
  exact ⟨rfl, asFloat_ofFloat h, (Lookup.getD_of_some rfl).trans (asCount_toNat r.calls)⟩

end Resource

/-! ### Models -/

namespace FittedModel

def slots : List (Slot (FittedModel Float)) :=
  [.mandatory "location" asText (·.location), .mandatory "model" ModelKind.decode (·.kind),
    .mandatory "r_square" asFloat (·.fit),
    .defaulted "coefficients" (asList asFloat) [] (·.coefficients)]

theorem decodesBy : DecodesBy decode slots := by
  refine decodesBy_asRecord rfl fun l m => ?_
  simp only [slots, Slot.fill_mandatory, Slot.fill_defaulted, Slot.fill_nil, and_true, bind_eq_ok]
  constructor
  · rintro ⟨location, hlocation, kind, hkind, fit, hfit, coefficients, hcoefficients, ⟨⟩⟩
    exact ⟨hlocation, hkind, hfit, hcoefficients⟩
  · rintro ⟨hlocation, hkind, hfit, hcoefficients⟩
    exact ⟨_, hlocation, _, hkind, _, hfit, _, hcoefficients, rfl⟩

def shape : Shape where
  required := ["location", "model", "r_square"]
  defaults := [("coefficients", .ofList [])]
  lists := []

theorem describes : shape.Describes slots where
  names := by simp [slots, shape, Shape.names, Slot.mandatory, Slot.defaulted]
  required := by simp [slots, shape, Slot.mandatory, Slot.defaulted]
  defaults := by simp [slots, shape, Slot.mandatory, Slot.defaulted, ofList, asList_eq_ok_iff]
  null := by simp [slots, shape, Slot.mandatory, Slot.defaulted, asList, mismatch, found?]
  listed := by simp [shape]
  lists := by simp [shape]

theorem decode_encode {m : FittedModel Float} (hfit : m.fit.isFinite)
    (hcoefficients : ∀ x ∈ m.coefficients, x.isFinite) : decode m.encode = .ok m := by
  refine (decodesBy ..).mpr ⟨rfl, legible_ofMembers (.refl _) (by decide), ?_⟩
  simp only [slots, Slot.fill_mandatory, Slot.fill_defaulted, Slot.fill_nil, and_true]
  have hkind := ModelKind.decode_name m.kind
  have hlist := asList_map fun x hx => asFloat_ofFloat (hcoefficients x hx)
  exact ⟨rfl, (Lookup.get_of_some rfl).trans hkind,
    (Lookup.get_of_some rfl).trans (asFloat_ofFloat hfit), (Lookup.getD_of_some rfl).trans hlist⟩

end FittedModel

/-! ### Profiles -/

namespace Profile

/-- The numbers of a profile are finite. -/
structure IsFinite (p : Profile Float) : Prop where
  amounts : ∀ r ∈ p.resources, r.amount.isFinite
  fits : ∀ m ∈ p.models, m.fit.isFinite
  coefficients : ∀ m ∈ p.models, ∀ x ∈ m.coefficients, x.isFinite

theorem isFinite_of_resources {p : Profile Float} (hmodels : p.models = [])
    (h : ∀ r ∈ p.resources, r.amount.isFinite) : p.IsFinite where
  amounts := h
  fits := by simp [hmodels]
  coefficients := by simp [hmodels]

def slots : List (Slot (Profile Float)) :=
  [.mandatory "origin" asText (·.origin), .mandatory "collector" asText (·.collector),
    .defaulted "postprocessors" (asList asText) [] (·.postprocessors),
    .mandatory "cmd" asText (·.command),
    .defaulted "resources" (asList Resource.decode) [] (·.resources),
    .defaulted "models" (asList FittedModel.decode) [] (·.models)]

theorem decodesBy : DecodesBy decode slots := by
  refine decodesBy_asRecord rfl fun l p => ?_
  simp only [slots, Slot.fill_mandatory, Slot.fill_defaulted, Slot.fill_nil, and_true, bind_eq_ok]
  constructor
  · rintro ⟨_, horigin, _, hcollector, _, hsteps, _, hcommand, _, hresources, _, hmodels, ⟨⟩⟩
    exact ⟨horigin, hcollector, hsteps, hcommand, hresources, hmodels⟩
  · rintro ⟨horigin, hcollector, hsteps, hcommand, hresources, hmodels⟩
    exact ⟨_, horigin, _, hcollector, _, hsteps, _, hcommand, _, hresources, _, hmodels, rfl⟩

def shape : Shape where
  required := ["origin", "collector", "cmd"]
  defaults := [("postprocessors", .ofList []), ("resources", .ofList []), ("models", .ofList [])]
  lists := [("resources", Resource.shape), ("models", FittedModel.shape)]

theorem describes : shape.Describes slots where
  names name := by
    have hperm : (slots.map (·.name)).Perm shape.names := by decide
    exact hperm.mem_iff
  required := by simp [slots, shape, Slot.mandatory, Slot.defaulted]
  defaults := by simp [slots, shape, Slot.mandatory, Slot.defaulted, ofList, asList_eq_ok_iff]
  null := by simp [slots, shape, Slot.mandatory, Slot.defaulted, asList, mismatch, found?]
  listed name inner h := by
    have hnames : shape.lists.map (·.1) ⊆ shape.names := by decide
    exact hnames (List.mem_map.mpr ⟨_, h, rfl⟩)
  lists := by
    have hresources : (Slot.defaulted "resources" (asList Resource.decode) []
        Profile.resources).Lists Resource.shape :=
      Slot.lists_defaulted Resource.describes Resource.decodesBy
    have hmodels : (Slot.defaulted "models" (asList FittedModel.decode) []
        Profile.models).Lists FittedModel.shape :=
      Slot.lists_defaulted FittedModel.describes FittedModel.decodesBy
    simpa [slots, shape, Slot.mandatory, Slot.defaulted] using And.intro hresources hmodels

theorem decode_encode {p : Profile Float} (h : p.IsFinite) : decode p.encode = .ok p := by
  refine (decodesBy ..).mpr ⟨rfl, legible_ofMembers (.refl _) (by decide), ?_⟩
  simp only [slots, Slot.fill_mandatory, Slot.fill_defaulted, Slot.fill_nil, and_true]
  have hsteps : asList asText (.ofList (p.postprocessors.map .text)) = .ok p.postprocessors :=
    asList_map fun _ _ => rfl
  have hresources := asList_map fun r hr => Resource.decode_encode (h.amounts r hr)
  have hmodels := asList_map fun m hm =>
    FittedModel.decode_encode (h.fits m hm) (h.coefficients m hm)
  exact ⟨rfl, rfl, (Lookup.getD_of_some rfl).trans hsteps, rfl,
    (Lookup.getD_of_some rfl).trans hresources, (Lookup.getD_of_some rfl).trans hmodels⟩

theorem ofJson_of_read {s : String} {d : Document} {p : Profile Float}
    (hread : Json.read s = (d, true)) (h : decode d = .ok p) : ofJson s = .ok p := by
  unfold ofJson Json.decode
  rw [hread]
  simp [h, Except.mapError, bind, Except.bind, pure, Except.pure]

theorem ofJson_of_read_error {s : String} {d : Document} {alone : Bool} {e : DecodeError}
    (hread : Json.read s = (d, alone)) (h : decode d = .error e) :
    ofJson s = .error (.undecodable s e) := by
  unfold ofJson Json.decode
  rw [hread]
  simp [h, Except.mapError, bind, Except.bind]

/-- What does not matter in the document of a profile, and what does. -/
theorem ofJson_edits {p : Profile Float} (hp : p.IsFinite) :
    (∀ d, Relation.ReflTransGen (Edit shape) p.encode d →
      decode d = .ok p ∧ ∀ s, Json.read s = (d, true) → ofJson s = .ok p) ∧
    ∀ d, Flawed shape d → (∃ e, decode d = .error e) ∧
      ∀ s alone, Json.read s = (d, alone) → ∃ e, ofJson s = .error (.undecodable s e) := by
  constructor
  · intro d hedits
    have hdecode : decode d = .ok p :=
      describes.decode_edits decodesBy hedits (decode_encode hp)
    exact ⟨hdecode, fun s hread => ofJson_of_read hread hdecode⟩
  · intro d hflaw
    obtain ⟨e, he⟩ := describes.decode_flawed decodesBy hflaw
    exact ⟨⟨e, he⟩, fun s alone hread => ⟨e, ofJson_of_read_error hread he⟩⟩

/-- Neither calls nor models, the command first and a note after it; and a resource without an
amount. -/
theorem ofJson_edits_noted :
    let p : Profile Float := ⟨"o", "time", [], "ls", [⟨"f", 1, 1⟩], []⟩
    let noted : Document := .ofMembers
      [("cmd", .text "ls"), ("note", .ofList []), ("origin", .text "o"),
        ("collector", .text "time"), ("postprocessors", .ofList []),
        ("resources",
          .ofList [.ofMembers [("location", .text "f"), ("amount", .number (.real 1))]])]
    let flawed : Document := .ofMembers
      [("origin", .text "o"), ("collector", .text "time"), ("cmd", .text "ls"),
        ("resources", .ofList [.ofMembers [("location", .text "f")]])]
    let text := Json.indented flawed ++ "\n"
    ofJson (Json.indented noted ++ "\n") = .ok p ∧
      ∃ e, ofJson text = .error (.undecodable text e) := by
  intro p noted flawed text
  have hp : p.IsFinite := by
    refine isFinite_of_resources rfl fun r hr => ?_
    rw [List.mem_singleton.mp hr]
    rfl
  let resource : Document := .ofMembers [("location", .text "f"), ("amount", .number (.real 1))]
  let front : List (Name × Document) :=
    [(.text "origin", .text "o"), (.text "collector", .text "time"),
      (.text "postprocessors", .ofList []), (.text "cmd", .text "ls")]
  constructor
  · refine ((ofJson_edits hp).1 noted ?_).2 _
      (Json.read_indented_of_writable ?_ Json.isSpace_newline)
    · have hresource : Edit Resource.shape (Resource.encode ⟨"f", 1, 1⟩) resource :=
        .drop [(.text "location", .text "f"), (.text "amount", .number (.real 1))] []
          (List.mem_singleton_self _)
      have hcalls : Edit shape p.encode
          (.record
            (front ++ [(.text "resources", .ofList [resource]), (.text "models", .ofList [])])
            .closed) :=
        .inside front [(.text "models", .ofList [])] [] [] (.head _) hresource
      have hmodels := @Edit.drop shape "models" (.ofList [])
        (front ++ [(.text "resources", .ofList [resource])]) [] (by simp [shape])
      have hnote := @Edit.add shape "note" (.ofList []) front
        [(.text "resources", .ofList [resource])] (by decide) rfl
      refine .tail (.tail (.tail (.single hcalls) hmodels) hnote) (.permute ?_)
      exact (@List.perm_append_comm _ (front.take 3) [(.text "cmd", .text "ls"),
        (.text "note", .ofList [])]).append_right [(.text "resources", .ofList [resource])]
    · have hresource : Json.Writable resource := by
        refine Json.writable_ofMembers ?_
        simp only [List.forall_mem_cons]
        exact ⟨.text _, .number Json.carries_one, by simp⟩
      refine Json.writable_ofMembers ?_
      simp only [List.forall_mem_cons]
      exact ⟨.text _, .list (by simp), .text _, .text _, .list (by simp),
        .list (List.forall_mem_singleton.mpr hresource), by simp⟩
  · refine ((ofJson_edits hp).2 flawed ?_).2 _ true
      (Json.read_indented_of_writable ?_ Json.isSpace_newline)
    · refine .inside (.head _) (List.mem_cons_of_mem _ (.tail _ (.tail _ (.head _)))) (.head _) ?_
      refine .missing (.tail _ (.head _)) (by decide)
    · have hresource : Json.Writable (.ofMembers [("location", .text "f")]) :=
        Json.writable_ofMembers (List.forall_mem_singleton.mpr (.text _))
      refine Json.writable_ofMembers ?_
      simp only [List.forall_mem_cons]
      exact ⟨.text _, .text _, .text _, .list (List.forall_mem_singleton.mpr hresource), by simp⟩

end Profile
end PerfDrift
