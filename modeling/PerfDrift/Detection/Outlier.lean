import PerfDrift.Finding.Basic
import PerfDrift.Method.Basic
import PerfDrift.Profile.Basic
import PerfDrift.Samples

/-! Detection by outliers.

The samples of the baseline put up a fence around their median, as far off on
either side as a multiple of the distance between their quartiles. A location
whose median lies outside is an outlier. One more finding tells what became of the
total over all locations of either profile. -/
namespace PerfDrift.Detection.Outlier
open Arithmetic
variable {α : Type} [Arithmetic α]

/-- The location that the finding about the total has. -/
def totalLocation : String := "<total>"

/-- The verdict on the samples of a location and the relative change of the median. -/
def classify (factor : α) (baseline target : List α) : Verdict × Option α :=
  let center := Samples.median baseline
  let fence := factor * Samples.interquartile baseline
  let current := Samples.median target
  let verdict : Verdict :=
    if lt (center + fence) current then .degradation
    else if lt current (center - fence) then .optimization
    else .noChange
  (verdict, Samples.relativeRate center current)

/-- The finding at a location with its samples on both sides. -/
def finding (factor : α) (location : String) (baseline target : List α) : Finding α :=
  let (verdict, rate) := classify factor baseline target
  {strategy := Method.timeOutliers.id, location, verdict, rate}

/-! ### The total -/

/-- The verdict on a change of the total. -/
def direction (change : α) : Verdict :=
  if lt zero change then .totalDegradation else .totalOptimization

/-- The verdict on the total of the baseline and its change. Over a total of zero
any change counts. -/
def classifyTotal (tolerance total change : α) : Verdict × Option α :=
  match Samples.relativeRate total (total + change) with
  | some rate => (if le (abs rate) tolerance then .noChange else direction rate, some rate)
  | none => (if eq total zero && !eq change zero then direction change else .noChange, none)

/-- The change of the total of each location of either profile. -/
def changes (baseline target : KeyMap α) : List α :=
  (KeyMap.namesOf (baseline.keys ++ target.keys)).map fun location =>
    (target.get? location).getD zero - (baseline.get? location).getD zero

/-- The finding about the total. -/
def totalFinding (tolerance : α) (baseline target : Profile α) : Finding α :=
  let (verdict, rate) :=
    classifyTotal tolerance (Samples.sum baseline.totals.values)
      (Samples.sum (changes baseline.totals target.totals))
  {strategy := Method.timeOutliers.id, location := totalLocation, verdict, rate}

/-- The findings at the locations that both profiles measure, then the one about the
total. -/
def compare (factor tolerance : α) (baseline target : Profile α) : List (Finding α) :=
  (baseline.samples.meet target.samples).map
    (fun (location, before, after) => finding factor location before after)
    ++ [totalFinding tolerance baseline target]

end PerfDrift.Detection.Outlier
