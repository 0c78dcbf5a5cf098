import PerfDrift.Config.Basic
import PerfDrift.Toml.Reader

/-! Configurations from TOML.

The keys under `degradation` are read in a fixed order, and the first that is not
as it should be is reported. Keys that are not there keep their default. -/
namespace PerfDrift
open Toml

namespace Config

/-- Which ancestors serve as baselines. -/
def resolvePolicy (t : Table) : Except ConfigError Policy :=
  match t.lookup "degradation.apply" with
  | none => .ok .first
  | some (.string s) => Policy.ofName s
  | some v => .error (.wrongType "degradation.apply" "a string" v.typeName)

/-- A flag, which may be written as a text. -/
def flagOf : Value → Except ConfigError Bool
  | .boolean b => .ok b
  | .string s =>
    let text := Text.lower (Text.trim s)
    if text ∈ ["true", "yes", "1"] then .ok true
    else if text ∈ ["false", "no", "0"] then .ok false
    else .error (.notFlag text)
  | v => .error (.wrongType "degradation.collect_before_check" "a boolean" v.typeName)

/-- Whether missing profiles are collected. -/
def resolveCollects (t : Table) : Except ConfigError Bool :=
  match t.lookup "degradation.collect_before_check" with
  | none => .ok false
  | some v => flagOf v

/-- A rule. Its method is looked at before its other keys. -/
def ruleOf : Value → Except Failure Rule
  | .table entries =>
    match Table.get? entries "method" with
    | some (.string s) => do
      let _ ← Method.ofName s
      match Rule.decode (Value.table entries).toDocument with
      | .ok rule => pure rule
      | .error e => .error (.configuration (.invalidRule e))
    | _ => .error (.configuration .ruleWithoutMethod)
  | v => .error (.configuration (.ruleNotTable v.typeName))

/-- The rules of a list, up to the first that is wrong. -/
def rulesOf : List Value → Except Failure (List Rule)
  | [] => .ok []
  | v :: rest => do
    let rule ← ruleOf v
    let rules ← rulesOf rest
    pure (rule :: rules)

def resolveRules (t : Table) : Except Failure (List Rule) :=
  match t.lookup "degradation.strategies" with
  | none => .ok []
  | some (.array items) => rulesOf items
  | some v =>
    .error (.configuration (.wrongType "degradation.strategies" "an array of rules" v.typeName))

/-- The thresholds, which have to make sense. -/
def resolveThresholds (t : Table) : Except ConfigError (Thresholds Float) := do
  let thresholds ←
    match t.lookup "degradation.thresholds" with
    | none => pure Thresholds.standard
    | some v => (Thresholds.decode v.toDocument).mapError .invalidThresholds
  thresholds.validate.mapError .badThreshold
  pure thresholds

/-- The configuration in a table. -/
def resolve (t : Table) : Except Failure Config := do
  let policy ← (resolvePolicy t).mapError .configuration
  let collects ← (resolveCollects t).mapError .configuration
  let rules ← resolveRules t
  let thresholds ← (resolveThresholds t).mapError .configuration
  pure {policy, collects, rules, thresholds}

/-- The configuration in a TOML document. -/
def ofToml (s : String) : Except Failure Config :=
  match Toml.read s with
  | some t => resolve t
  | none => .error (.configuration (.notToml s))

end Config
end PerfDrift
