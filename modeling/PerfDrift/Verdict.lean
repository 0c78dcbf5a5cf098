/-! Verdicts: what became of a location, or of the program as a whole. -/
namespace PerfDrift

/-- The verdict of a comparison. A change that is not certain is a `maybe`; a
`total` change is one of the whole program. -/
inductive Verdict where
  | noChange
  | optimization
  | degradation
  | maybeOptimization
  | maybeDegradation
  | totalOptimization
  | totalDegradation
deriving DecidableEq, Repr

namespace Verdict

/-- All verdicts in the order in which they are counted. -/
def all : List Verdict :=
  [noChange, optimization, degradation, maybeOptimization, maybeDegradation, totalOptimization,
    totalDegradation]

/-- The place in the order in which verdicts are counted. -/
def rank (v : Verdict) : Nat := all.idxOf v

def name : Verdict → String
  | noChange => "NoChange"
  | optimization => "Optimization"
  | degradation => "Degradation"
  | maybeOptimization => "MaybeOptimization"
  | maybeDegradation => "MaybeDegradation"
  | totalOptimization => "TotalOptimization"
  | totalDegradation => "TotalDegradation"

/-- The target is slower, certainly or perhaps. -/
def isDegradation : Verdict → Bool
  | degradation | maybeDegradation | totalDegradation => true
  | _ => false

/-- The target is faster, certainly or perhaps. -/
def isOptimization : Verdict → Bool
  | optimization | maybeOptimization | totalOptimization => true
  | _ => false

end Verdict
end PerfDrift
