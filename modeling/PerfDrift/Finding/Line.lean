import PerfDrift.Finding.Basic
import PerfDrift.Number.Layout

/-! Findings as lines of text.

A line names the strategy, the verdict and the location, and then what there is of
the rate, the confidence and the two models. -/
namespace PerfDrift

namespace Finding

/-- The rate in hundredths. -/
def rateText : Option Float → String
  | none => ""
  | some rate => " (rate: " ++ twoPlaces true (rate * 100) ++ "%)"

/-- The confidence, unless nothing says what it measures. -/
def confidenceText : ConfidenceKind → Option Float → String
  | .none, _ => ""
  | _, none => ""
  | kind, some x => " with confidence " ++ kind.name ++ " = " ++ twoPlaces false x

/-- The two models, when both are known. -/
def modelsText : Option String → Option String → String
  | some a, some b => " [" ++ a ++ " -> " ++ b ++ "]"
  | _, _ => ""

def line (f : Finding Float) : String :=
  f.strategy ++ ": " ++ f.verdict.name ++ " at " ++ f.location ++ rateText f.rate
    ++ confidenceText f.confidenceKind f.confidence ++ modelsText f.fromModel f.toModel

end Finding

/-- The characters that take up the first `n` bytes, and whether they take up
exactly as many. -/
def takeBytes : (n : Nat) → List Char → List Char × Bool
  | 0, _ => ([], true)
  | _ + 1, [] => ([], false)
  | n + 1, c :: cs =>
    if c.utf8Size ≤ n + 1 then
      let (front, exact) := takeBytes (n + 1 - c.utf8Size) cs
      (c :: front, exact)
    else ([], false)
termination_by _ cs => cs.length

/-- The first seven bytes of a version, or all of it when there are fewer or a
character would be cut. -/
def shortVersion (version : String) : String :=
  match takeBytes 7 version.toList with
  | (front, true) => String.ofList front
  | (_, false) => version

def Record.line (r : Record Float) : String :=
  r.finding.line ++ " (baseline " ++ shortVersion r.baseline ++ ", profile " ++ r.profile ++ ")"

end PerfDrift
