import PerfDrift.Detection.Average
import PerfDrift.Detection.Growth
import PerfDrift.Detection.Outlier
import PerfDrift.Detection.Quick
import PerfDrift.Thresholds

/-! Comparing two profiles.

Each method runs on its own. The findings of several methods are put in the order
of their locations and, at one location, of the methods' short names. -/
namespace PerfDrift.Detection
variable {α : Type} [Arithmetic α]

/-- The findings of one method. -/
def run (t : Thresholds α) (baseline target : Profile α) : Method → List (Finding α)
  | .averageAmount => Average.compare t.averageChange baseline target
  | .modelOrder => Growth.compare t.modelFit baseline target
  | .fastCheck => Quick.compare t.fastBand t.fastConfidence baseline target
  | .timeOutliers => Outlier.compare t.fenceFactor t.noiseTolerance baseline target

/-- The order by location, then by strategy. -/
def precedes (f g : Finding α) : Bool :=
  f.location < g.location || (f.location = g.location && f.strategy ≤ g.strategy)

/-- The findings of some methods. Those of a single method stay in its order; those
of several are put in order, and of two alike the one found first stays first. -/
def runAll (t : Thresholds α) (baseline target : Profile α) (methods : List Method) :
    List (Finding α) :=
  let found := methods.flatMap (run t baseline target)
  if methods.length ≤ 1 then found else found.mergeSort precedes

/-- The findings of a selection of methods, `none` for profiles that cannot be
compared. -/
def compare? (t : Thresholds α) (baseline target : Profile α) (selection : Selection) :
    Option (List (Finding α)) :=
  if baseline.Compatible target then some (runAll t baseline target selection.methods) else none

end PerfDrift.Detection
