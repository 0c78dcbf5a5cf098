import PerfDrift.Finding.Basic
import PerfDrift.Method.Basic
import PerfDrift.Profile.Basic
import PerfDrift.Samples

/-! The quick check.

Averages are compared as in `Detection.Average`, but every change is reported. It
is certain only when it leaves the band around zero and the baseline varies
little enough; the confidence is one less the variation of the baseline. -/
namespace PerfDrift.Detection.Quick
open Arithmetic
variable {α : Type} [Arithmetic α]

/-- An uncertain verdict. -/
def perhaps (slower : Bool) : Verdict := if slower then .maybeDegradation else .maybeOptimization

/-- The verdict on two averages and the relative change. -/
def classify (band least baseline target confidence : α) : Verdict × Option α :=
  match Samples.relativeRate baseline target with
  | none =>
    if !eq baseline zero || eq target zero then (.noChange, none)
    else (perhaps (lt zero target), none)
  | some rate =>
    if eq rate zero then (.noChange, some rate)
    else if le (abs rate) band || lt confidence least then (perhaps (lt zero rate), some rate)
    else if lt zero rate then (.degradation, some rate)
    else (.optimization, some rate)

/-- How little the samples vary. -/
def stability (xs : List α) : α := clampUnit (one - Samples.variation xs)

/-- The finding at a location with its samples on both sides. -/
def finding (band least : α) (location : String) (baseline target : List α) : Finding α :=
  let confidence := stability baseline
  let (verdict, rate) :=
    classify band least (Samples.mean baseline) (Samples.mean target) confidence
  Finding.withConfidence {strategy := Method.fastCheck.id, location, verdict, rate}
    .stability confidence

/-- The findings at the locations that both profiles measure. -/
def compare (band least : α) (baseline target : Profile α) : List (Finding α) :=
  (baseline.samples.meet target.samples).map fun (location, before, after) =>
    finding band least location before after

end PerfDrift.Detection.Quick
