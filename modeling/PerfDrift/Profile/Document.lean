import PerfDrift.Document.Decode
import PerfDrift.Profile.Basic

/-! Profiles as documents. -/
namespace PerfDrift
open Document

def ModelKind.decode : Decoder ModelKind := asVariant (ModelKind.all.map fun k => (k.name, k))

namespace Resource

def fields : List Field :=
  [.mandatory "location" asText, .mandatory "amount" asFloat, .defaulted "calls" asCount]

def decode : Decoder (Resource Float) :=
  asRecord "struct Resource" fields fun l => do
    let location ← l.get "location" asText
    let amount ← l.get "amount" asFloat
    let calls ← l.getD "calls" asCount 1
    pure {location, amount, calls}

def encode (r : Resource Float) : Document :=
  .ofMembers
    [("location", .text r.location), ("amount", .ofFloat r.amount),
      ("calls", .number (.integer r.calls.toNat))]

end Resource

namespace FittedModel

def fields : List Field :=
  [.mandatory "location" asText, .mandatory "model" ModelKind.decode, .mandatory "r_square" asFloat,
    .defaulted "coefficients" (asList asFloat)]

def decode : Decoder (FittedModel Float) :=
  asRecord "struct FittedModel" fields fun l => do
    let location ← l.get "location" asText
    let kind ← l.get "model" ModelKind.decode
    let fit ← l.get "r_square" asFloat
    let coefficients ← l.getD "coefficients" (asList asFloat) []
    pure {location, kind, fit, coefficients}

def encode (m : FittedModel Float) : Document :=
  .ofMembers
    [("location", .text m.location), ("model", .text m.kind.name), ("r_square", .ofFloat m.fit),
      ("coefficients", .ofList (m.coefficients.map .ofFloat))]

end FittedModel

namespace Profile

def fields : List Field :=
  [.mandatory "origin" asText, .mandatory "collector" asText,
    .defaulted "postprocessors" (asList asText), .mandatory "cmd" asText,
    .defaulted "resources" (asList Resource.decode),
    .defaulted "models" (asList FittedModel.decode)]

def decode : Decoder (Profile Float) :=
  asRecord "struct Profile" fields fun l => do
    let origin ← l.get "origin" asText
    let collector ← l.get "collector" asText
    let postprocessors ← l.getD "postprocessors" (asList asText) []
    let command ← l.get "cmd" asText
    let resources ← l.getD "resources" (asList Resource.decode) []
    let models ← l.getD "models" (asList FittedModel.decode) []
    pure {origin, collector, postprocessors, command, resources, models}

def encode (p : Profile Float) : Document :=
  .ofMembers
    [("origin", .text p.origin), ("collector", .text p.collector),
      ("postprocessors", .ofList (p.postprocessors.map .text)), ("cmd", .text p.command),
      ("resources", .ofList (p.resources.map Resource.encode)),
      ("models", .ofList (p.models.map FittedModel.encode))]

end Profile
end PerfDrift
