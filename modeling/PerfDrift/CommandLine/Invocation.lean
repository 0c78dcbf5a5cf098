/-! What the command line can be asked for, and why it may not run. -/
namespace PerfDrift.CommandLine

/-- How findings are printed. -/
inductive Format where
  | text
  | json
deriving DecidableEq, Repr

/-- A comparison that is asked for. -/
structure Comparison where
  baseline : String
  target : String
  method : String
  /-- The version the results belong to. -/
  minor : String
  config : Option String
  format : Format
deriving DecidableEq, Repr

inductive Command where
  | methods
  | checkProfiles (c : Comparison)
deriving DecidableEq, Repr

structure Invocation where
  debug : Bool
  command : Command
deriving DecidableEq, Repr

/-- Why the arguments do not ask for a run. -/
inductive Stop where
  | help
  | version
  /-- Nothing is asked for. -/
  | nothing
  | noCommand
  | unknownCommand
  | unknownArgument
  /-- A flag has a value. -/
  | needlessValue
  /-- A flag or an option is given twice. -/
  | repeated
  | badValue
  | missingPath
deriving DecidableEq, Repr

end PerfDrift.CommandLine
