import PerfDrift.CommandLine.Invocation
import PerfDrift.CommandLine.Word

/-! Reading the arguments of the command line.

Words that begin with a dash are flags and options, up to a word `--`; the others are
the command, then the paths of its profiles. An option takes the text attached to it
or the next word.

The value of an option and the path of a profile are looked at only when the next
flag, option or path is known to be one, or the words end: until then they are
`pending`. So an unknown argument is reported before a bad value in front of it. -/
namespace PerfDrift.CommandLine

/-- Something that is not looked at yet. -/
inductive Pending where
  /-- An option without its value. -/
  | awaiting (o : OptionName)
  | value (o : OptionName) (v : String)
  | path (p : String)
deriving DecidableEq, Repr

/-- What is read of the words of a command. -/
structure Draft where
  debug : Bool := false
  method : Option String := none
  minor : Option String := none
  config : Option String := none
  format : Option Format := none
  paths : List String := []
  pending : Option Pending := none
deriving DecidableEq, Repr

namespace Draft

/-- The format of a name. -/
def formatOf (v : String) : Except Stop Format :=
  if v = "text" then .ok .text else if v = "json" then .ok .json else .error .badValue

/-- The path in a text, which is not empty. -/
def pathOf (v : String) : Except Stop String := if v = "" then .error .badValue else .ok v

/-- The first value of an option. -/
def once {α : Type} (before : Option α) (value : Except Stop α) : Except Stop (Option α) :=
  if before.isSome then .error .repeated else some <$> value

def assign (d : Draft) (v : String) : OptionName → Except Stop Draft
  | .method => do
    let method ← once d.method (.ok v)
    pure {d with method}
  | .minor => do
    let minor ← once d.minor (.ok v)
    pure {d with minor}
  | .config => do
    let config ← once d.config (pathOf v)
    pure {d with config}
  | .format => do
    let format ← once d.format (formatOf v)
    pure {d with format}

/-- Looks at what is pending. -/
def settle (d : Draft) : Except Stop Draft :=
  match d.pending with
  | none => .ok d
  | some (.awaiting _) => .error .badValue
  | some (.value o v) => {d with pending := none}.assign v o
  | some (.path p) => do
    let p ← pathOf p
    pure {d with paths := d.paths ++ [p], pending := none}

/-- The number of paths that were given. -/
def given (d : Draft) : Nat :=
  match d.pending with
  | some (.path _) => d.paths.length + 1
  | _ => d.paths.length

def flag (d : Draft) (f : Flag) : Except Stop Draft := do
  let d ← d.settle
  match f with
  | .debug => if d.debug then .error .repeated else pure {d with debug := true}
  | .help => .error .help
  | .version => .error .version

def option (d : Draft) (o : OptionName) (value : Option String) : Except Stop Draft := do
  let d ← d.settle
  match value with
  | some v => d.assign v o
  | none => pure {d with pending := some (.awaiting o)}

/-- A word that is no flag and no option. -/
def path (d : Draft) (limit : Nat) (w : String) : Except Stop Draft :=
  if d.given < limit then do
    let d ← d.settle
    pure {d with pending := some (.path w)}
  else .error .unknownArgument

/-- A word that is no flag and no option, where one may be waiting for it. -/
def plain (d : Draft) (limit : Nat) (w : String) : Except Stop Draft :=
  match d.pending with
  | some (.awaiting o) => .ok {d with pending := some (.value o w)}
  | _ => d.path limit w

/-- A word that begins with a dash, as the name of a flag or an option. A flag of one
letter ends the reading, so what is attached to it does not count. -/
def dashed (d : Draft) (g : Grammar) : Word → Except Stop Draft
  | .long name value =>
    match g.long name, value with
    | none, _ => .error .unknownArgument
    | some (.inl _), some _ => .error .needlessValue
    | some (.inl f), none => d.flag f
    | some (.inr o), value => d.option o value
  | .short name rest =>
    match g.short name with
    | none => .error .unknownArgument
    | some (.inl f) => d.flag f
    | some (.inr o) => d.option o (shortValue rest)
  | .escape => .ok d
  | .plain => .ok d

/-- Reads the words of a command; `escaped` after the word `--`. -/
def read (g : Grammar) : (escaped : Bool) → Draft → List String → Except Stop Draft
  | _, d, [] => d.settle
  | true, d, w :: rest => do
    let d ← d.path g.paths w
    read g true d rest
  | false, d, w :: rest =>
    match Word.ofText w with
    | .escape => read g true d rest
    | .plain => do
      let d ← d.plain g.paths w
      read g false d rest
    | word => do
      let d ← d.dashed g word
      read g false d rest

/-- The comparison that the words ask for. -/
def comparison (d : Draft) : Except Stop Comparison :=
  match d.paths with
  | [baseline, target] =>
    .ok
      {baseline, target, method := d.method.getD "all", minor := d.minor.getD "HEAD",
       config := d.config, format := d.format.getD .text}
  | _ => .error .missingPath

end Draft

/-! ### Commands -/

/-- The names of the commands. -/
def commandNames : List String := ["check-profiles", "methods", "help"]

/-- The words after `help`: at most the name of a command. -/
def readHelp : List String → Stop
  | [] => .help
  | [w] => if w ∈ commandNames then .help else .unknownCommand
  | _ => .unknownCommand

/-- Reads a command and its words. -/
def readCommand (debug : Bool) (name : String) (rest : List String) : Except Stop Invocation :=
  if name = "check-profiles" then do
    let d ← Draft.read .checkProfiles false {} rest
    let c ← d.comparison
    pure ⟨debug || d.debug, .checkProfiles c⟩
  else if name = "methods" then do
    let d ← Draft.read .methods false {} rest
    pure ⟨debug || d.debug, .methods⟩
  else if name = "help" then .error (readHelp rest)
  else .error .unknownCommand

/-- No command was named. -/
def withoutCommand (d : Draft) : Stop := if d.debug then .noCommand else .nothing

/-- Reads what stands in front of the command, and the command. -/
def readWords (d : Draft) : List String → Except Stop Invocation
  | [] => .error (withoutCommand d)
  | w :: rest =>
    match Word.ofText w with
    | .escape =>
      match rest with
      | [] => .error (withoutCommand d)
      | name :: _ =>
        .error (if name ∈ commandNames then .unknownArgument else .unknownCommand)
    | .plain => readCommand d.debug w rest
    | word => do
      let d ← d.dashed .outer word
      readWords d rest

/-- What the arguments ask for. -/
def Invocation.ofArguments (args : List String) : Except Stop Invocation := readWords {} args

end PerfDrift.CommandLine
