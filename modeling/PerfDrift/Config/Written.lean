import PerfDrift.Config.Basic
import PerfDrift.Toml.Value

/-! Configurations as tables.

A rule is written with the short name of its method and the constraints that it has,
thresholds with all of their fields. -/
namespace PerfDrift
open Toml

/-- A binding for a text that is there. -/
def Toml.Table.optional (key : String) : Option String → Table
  | none => []
  | some s => [(key, .string s)]

def Rule.toToml (r : Rule) : Value :=
  .table
    ([("method", .string r.method.id)] ++ Table.optional "collector" r.collector
      ++ Table.optional "postprocessor" r.postprocessor ++ Table.optional "cmd" r.command)

def Thresholds.entries (t : Thresholds Float) : Table :=
  [("aat_threshold", .float t.averageChange), ("bmoe_min_fit", .float t.modelFit),
    ("fast_band", .float t.fastBand), ("fast_confidence", .float t.fastConfidence),
    ("eto_iqr_multiplier", .float t.fenceFactor), ("eto_noise_tolerance", .float t.noiseTolerance)]

/-- The section of a configuration. -/
def Config.entries (c : Config) : Table :=
  [("apply", .string c.policy.name), ("collect_before_check", .boolean c.collects),
    ("strategies", .array (c.rules.map Rule.toToml)), ("thresholds", .table c.thresholds.entries)]

end PerfDrift
