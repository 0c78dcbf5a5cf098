import PerfDrift.Config.Rule
import PerfDrift.Text.Blank

/-! Configurations of a check. -/
namespace PerfDrift
open Document

/-- Which ancestors serve as baselines: the nearest with a profile of the same
configuration, or all of them. -/
inductive Policy where
  | first
  | all
deriving DecidableEq, Repr

namespace Policy

def name : Policy → String
  | first => "first"
  | all => "all"

/-- The policy of a name; case and the white space around it do not count. -/
def ofName (s : String) : Except ConfigError Policy :=
  match Text.lower (Text.trim s) with
  | "first" => .ok first
  | "all" => .ok all
  | other => .error (.unknownPolicy other)

end Policy

namespace Thresholds

def fields : List Field :=
  ["aat_threshold", "bmoe_min_fit", "fast_band", "fast_confidence", "eto_iqr_multiplier",
    "eto_noise_tolerance"].map fun name => .defaulted name asFloat

/-- Thresholds; those that are not given are the standard ones. -/
def decode : Decoder (Thresholds Float) :=
  asRecord "struct StrategyThresholds" fields fun l => do
    let averageChange ← l.getD "aat_threshold" asFloat standard.averageChange
    let modelFit ← l.getD "bmoe_min_fit" asFloat standard.modelFit
    let fastBand ← l.getD "fast_band" asFloat standard.fastBand
    let fastConfidence ← l.getD "fast_confidence" asFloat standard.fastConfidence
    let fenceFactor ← l.getD "eto_iqr_multiplier" asFloat standard.fenceFactor
    let noiseTolerance ← l.getD "eto_noise_tolerance" asFloat standard.noiseTolerance
    pure {averageChange, modelFit, fastBand, fastConfidence, fenceFactor, noiseTolerance}

end Thresholds

structure Config where
  policy : Policy := .first
  /-- Collect profiles of a version that has none a rule applies to. -/
  collects : Bool := false
  rules : List Rule := []
  thresholds : Thresholds Float := .standard
deriving DecidableEq

end PerfDrift
