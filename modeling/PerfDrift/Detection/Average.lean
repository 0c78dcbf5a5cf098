import PerfDrift.Finding.Basic
import PerfDrift.Method.Basic
import PerfDrift.Profile.Basic
import PerfDrift.Samples

/-! Detection by averages.

The average amount of a location is compared with that of the baseline; a change
beyond the threshold, either way, counts. -/
namespace PerfDrift.Detection.Average
open Arithmetic
variable {α : Type} [Arithmetic α]

/-- The verdict on two averages and the relative change. Where the change is not
defined, the sign of the target decides over a baseline of zero. -/
def classify (threshold baseline target : α) : Verdict × Option α :=
  match Samples.relativeRate baseline target with
  | some rate =>
    if lt threshold rate then (.degradation, some rate)
    else if lt rate (-threshold) then (.optimization, some rate)
    else (.noChange, some rate)
  | none =>
    if !eq baseline zero || eq target zero then (.noChange, none)
    else if lt zero target then (.degradation, none)
    else (.optimization, none)

/-- The finding at a location with its samples on both sides. -/
def finding (threshold : α) (location : String) (baseline target : List α) : Finding α :=
  let (verdict, rate) := classify threshold (Samples.mean baseline) (Samples.mean target)
  {strategy := Method.averageAmount.id, location, verdict, rate}

/-- The findings at the locations that both profiles measure. -/
def compare (threshold : α) (baseline target : Profile α) : List (Finding α) :=
  (baseline.samples.meet target.samples).map fun (location, before, after) =>
    finding threshold location before after

end PerfDrift.Detection.Average
