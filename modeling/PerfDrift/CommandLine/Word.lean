/-! The words of the command line.

A word that begins with a dash names a flag or an option, by a long name after two
dashes or a letter after one. Which names there are depends on the command. -/
namespace PerfDrift.CommandLine

inductive Flag where
  | debug
  | help
  | version
deriving DecidableEq, Repr

inductive OptionName where
  | method
  | minor
  | config
  | format
deriving DecidableEq, Repr

/-- What a word looks like. -/
inductive Word where
  /-- The word `--`. -/
  | escape
  | long (name : List Char) (value : Option String)
  | short (name : Char) (rest : List Char)
  | plain
deriving DecidableEq, Repr

/-- The text after a long name: an equals sign and the value. -/
def longValue : List Char → Option String
  | '=' :: value => some (String.ofList value)
  | _ => none

/-- The text after a short name; an equals sign in front of the value is left out. -/
def shortValue : List Char → Option String
  | [] => none
  | '=' :: value => some (String.ofList value)
  | value => some (String.ofList value)

def Word.ofText (s : String) : Word :=
  match s.toList with
  | ['-', '-'] => .escape
  | '-' :: '-' :: cs => .long (cs.takeWhile (· ≠ '=')) (longValue (cs.dropWhile (· ≠ '=')))
  | '-' :: c :: cs => .short c cs
  | _ => .plain

/-! ### Names -/

/-- Which flags and options a command has, and how many paths. -/
structure Grammar where
  long : List Char → Option (Flag ⊕ OptionName)
  short : Char → Option (Flag ⊕ OptionName)
  paths : Nat

/-- What stands in front of the command. -/
def Grammar.outer : Grammar where
  long name :=
    if name = "debug".toList then some (.inl .debug)
    else if name = "help".toList then some (.inl .help)
    else if name = "version".toList then some (.inl .version)
    else none
  short c :=
    if c = 'h' then some (.inl .help) else if c = 'V' then some (.inl .version) else none
  paths := 0

def Grammar.methods : Grammar where
  long name :=
    if name = "debug".toList then some (.inl .debug)
    else if name = "help".toList then some (.inl .help)
    else none
  short c := if c = 'h' then some (.inl .help) else none
  paths := 0

def Grammar.checkProfiles : Grammar where
  long name :=
    if name = "method".toList then some (.inr .method)
    else if name = "minor".toList then some (.inr .minor)
    else if name = "config".toList then some (.inr .config)
    else if name = "format".toList then some (.inr .format)
    else Grammar.methods.long name
  short c :=
    if c = 'm' then some (.inr .method)
    else if c = 'c' then some (.inr .config)
    else Grammar.methods.short c
  paths := 2

end PerfDrift.CommandLine
