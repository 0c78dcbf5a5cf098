import PerfDrift.Check.Records
import PerfDrift.CommandLine.Arguments
import PerfDrift.Files
import PerfDrift.Finding.Document
import PerfDrift.Finding.Line
import PerfDrift.Json.Writer
import PerfDrift.Summary

/-! A session of the command line.

A session is a function of the files and the arguments: what it prints and how it
exits. Everything that can fail is done before the first line is printed. -/
namespace PerfDrift.CommandLine

/-- What is said in words that are not the program's. -/
structure Wording extends PerfDrift.Wording where
  /-- What is printed for arguments that ask for help, or for nothing that can be run. -/
  arguments : List String → String

/-- What a session prints, and its exit code. The trace that `--debug` asks for is no part of it. -/
structure Output where
  exit : UInt8
  stdout : String := ""
  stderr : String := ""
deriving DecidableEq, Repr

/-! ### Comparing two files -/

/-- Why a comparison fails. -/
inductive ComparisonError where
  /-- Something is wrong with the configuration in a file. -/
  | config (path : String) (cause : Failure)
  | failed (cause : Failure)
deriving DecidableEq

/-- A text below a heading: its lines, each four columns in. -/
def indent (s : String) : String :=
  String.ofList ([' ', ' ', ' ', ' '] ++ s.toList.flatMap fun c =>
    if c = '\n' then ['\n', ' ', ' ', ' ', ' '] else [c])

def ComparisonError.message (w : PerfDrift.Wording) : ComparisonError → String
  | .config path cause =>
    "failed to load configuration " ++ path ++ "\n\nCaused by:\n" ++ indent (cause.message w)
  | .failed cause => cause.message w

/-- The configuration of a comparison. -/
def Comparison.configuration (files : Files) (c : Comparison) : Except ComparisonError Config :=
  match c.config with
  | none => .ok {}
  | some path => (Config.load files path).mapError (.config path)

/-- The findings of a comparison. The configuration, the method, the baseline and the
target are looked at in this order, then whether the profiles can be compared. -/
def Comparison.findings (files : Files) (c : Comparison) :
    Except ComparisonError (List (Finding Float)) := do
  let config ← c.configuration files
  let selection ← (Selection.ofName c.method).mapError .failed
  let baseline ← (Profile.load files c.baseline).mapError .failed
  let target ← (Profile.load files c.target).mapError .failed
  (Check.compareProfiles config.thresholds baseline target selection).mapError .failed

/-- A text on a line of its own. -/
def lineOf (s : String) : String := s ++ "\n"

/-- Findings as they are printed. -/
def Format.print : Format → List (Finding Float) → String
  | .text, fs => String.join (fs.map fun f => lineOf f.line) ++ lineOf (Tally.ofFindings fs).summary
  | .json, fs => lineOf (Json.indented (.ofList (fs.map Finding.encode)))

def Comparison.run (w : Wording) (files : Files) (c : Comparison) : Output :=
  match c.findings files with
  | .ok fs => {exit := 0, stdout := c.format.print fs}
  | .error e => {exit := 1, stderr := lineOf ("Error: " ++ e.message w.toWording)}

/-! ### Sessions -/

def versionText : String := "perfguard 0.1.0"

/-- The exit code of a session that does not run. -/
def Stop.exit : Stop → UInt8
  | .help | .version => 0
  | _ => 2

/-- A session that does not run prints a help text, its version, or what is wrong. -/
def Stop.output (text : String) (s : Stop) : Output :=
  match s with
  | .help => {exit := s.exit, stdout := text}
  | .version => {exit := s.exit, stdout := lineOf versionText}
  | _ => {exit := s.exit, stderr := text}

def Command.run (w : Wording) (files : Files) : Command → Output
  | .methods => {exit := 0, stdout := String.join (Method.ids.map lineOf)}
  | .checkProfiles c => c.run w files

/-- A session with some arguments. -/
def session (w : Wording) (files : Files) (args : List String) : Output :=
  match Invocation.ofArguments args with
  | .ok i => i.command.run w files
  | .error s => s.output (w.arguments args)

/-- The files that a command reads. -/
def Command.paths : Command → List String
  | .methods => []
  | .checkProfiles c => c.config.toList ++ [c.baseline, c.target]

end PerfDrift.CommandLine
