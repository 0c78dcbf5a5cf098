import PerfDrift.Document.Decode
import PerfDrift.Finding.Basic

/-! Findings, records and entries as documents. -/
namespace PerfDrift
open Document

def Verdict.decode : Decoder Verdict := asVariant (Verdict.all.map fun v => (v.name, v))

def ConfidenceKind.decode : Decoder ConfidenceKind :=
  asVariant (ConfidenceKind.all.map fun k => (k.name, k))

namespace Finding

def fields : List Field :=
  [.mandatory "strategy" asText, .mandatory "location" asText,
    .mandatory "classification" Verdict.decode, .mandatory "rate" (asOption asFloat),
    .mandatory "confidence_type" ConfidenceKind.decode,
    .mandatory "confidence_rate" (asOption asFloat),
    .defaulted "from_baseline" (asOption asText), .defaulted "to_target" (asOption asText)]

/-- A finding; a number or a model that is not there is absent. -/
def decode : Decoder (Finding Float) :=
  asRecord "struct DegradationInfo" fields fun l => do
    let strategy ← l.get "strategy" asText
    let location ← l.get "location" asText
    let verdict ← l.get "classification" Verdict.decode
    let rate ← l.getD "rate" (asOption asFloat) none
    let confidenceKind ← l.get "confidence_type" ConfidenceKind.decode
    let confidence ← l.getD "confidence_rate" (asOption asFloat) none
    let fromModel ← l.getD "from_baseline" (asOption asText) none
    let toModel ← l.getD "to_target" (asOption asText) none
    pure
      {strategy, location, verdict, rate, confidenceKind, confidence, fromModel, toModel}

/-- A member for a text that is there. -/
def optional (name : String) : Option String → List (String × Document)
  | none => []
  | some s => [(name, .text s)]

def encode (f : Finding Float) : Document :=
  .ofMembers
    ([("strategy", .text f.strategy), ("location", .text f.location),
      ("classification", .text f.verdict.name), ("rate", .ofFloat? f.rate),
      ("confidence_type", .text f.confidenceKind.name),
      ("confidence_rate", .ofFloat? f.confidence)]
      ++ optional "from_baseline" f.fromModel ++ optional "to_target" f.toModel)

end Finding

namespace Record

def fields : List Field :=
  [.mandatory "info" Finding.decode, .mandatory "baseline" asText, .mandatory "profile" asText]

def decode : Decoder (Record Float) :=
  asRecord "struct DegradationRecord" fields fun l => do
    let finding ← l.get "info" Finding.decode
    let baseline ← l.get "baseline" asText
    let profile ← l.get "profile" asText
    pure {finding, baseline, profile}

def encode (r : Record Float) : Document :=
  .ofMembers
    [("info", r.finding.encode), ("baseline", .text r.baseline), ("profile", .text r.profile)]

end Record

namespace Entry

def fields : List Field := [.mandatory "target" asText, .mandatory "record" Record.decode]

def decode : Decoder (Entry Float) :=
  asRecord "struct HistoryEntry" fields fun l => do
    let target ← l.get "target" asText
    let record ← l.get "record" Record.decode
    pure {target, record}

def encode (e : Entry Float) : Document :=
  .ofMembers [("target", .text e.target), ("record", e.record.encode)]

end Entry
end PerfDrift
