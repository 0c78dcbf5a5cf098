import PerfDrift.Toml.Lexer
import PerfDrift.Toml.Tree

/-! Reading TOML.

Values nest to a fixed depth, which bounds the recursion; lists and records inside
them and the lines of a document are read one after another, each taking at least
one character. -/
namespace PerfDrift.Toml

/-! ### Values -/

/-- The items of an array after its bracket, for at most `fuel` of them; a comma may
follow the last one. -/
def arrayItems (item : Reader Value) : (fuel : Nat) → Reader (List Value)
  | 0, _ => none
  | fuel + 1, cs => do
    let cs ← skipLines cs.length cs
    match cs with
    | ']' :: rest => pure ([], rest)
    | cs =>
      let (v, cs) ← item cs
      let cs ← skipLines cs.length cs
      match cs with
      | ',' :: rest => do
        let (vs, cs) ← arrayItems item fuel rest
        pure (v :: vs, cs)
      | ']' :: rest => pure ([v], rest)
      | _ => none

/-- A key, its equals sign and the blanks after it. -/
def keyAndEquals (cs : List Char) : Option (List String × List Char) := do
  let (key, cs) ← dottedKey cs
  match cs with
  | '=' :: rest => pure (key, skipSpace rest)
  | _ => none

/-- The bindings of an inline table after its brace or a comma, for at most `fuel` of
them. -/
def inlineEntries (item : Reader Value) : (fuel : Nat) → Branch → Reader Branch
  | 0, _, _ => none
  | fuel + 1, b, cs => do
    let (key, cs) ← keyAndEquals cs
    let (v, cs) ← item cs
    let (path, key) ← splitLast key
    let b ← b.bind path key v
    match skipSpace cs with
    | ',' :: rest => inlineEntries item fuel b rest
    | '\x7d' :: rest => pure (b, rest)
    | _ => none

/-- An inline table after its brace. -/
def inlineTable (item : Reader Value) (cs : List Char) : Option (Value × List Char) :=
  match skipSpace cs with
  | '\x7d' :: rest => some (.table [], rest)
  | cs => (inlineEntries item (cs.length + 1) [] cs).map fun (b, cs) => (.table (branchEntries b), cs)

/-- A value that holds no other values. -/
def scalar (cs : List Char) : Option (Value × List Char) :=
  match cs with
  | '"' :: _ | '\'' :: _ => (textValue cs).map fun (s, cs) => (.string s, cs)
  | 't' :: 'r' :: 'u' :: 'e' :: rest => some (.boolean true, rest)
  | 'f' :: 'a' :: 'l' :: 's' :: 'e' :: rest => some (.boolean false, rest)
  | _ =>
    match Moment.read cs with
    | some (m, rest) => some (.moment m, rest)
    | none => number cs

/-- A value with at most `depth` arrays and inline tables around one another. -/
def valueWithin : (depth : Nat) → Reader Value
  | 0, cs => scalar cs
  | depth + 1, cs =>
    match cs with
    | '[' :: rest =>
      (arrayItems (valueWithin depth) (rest.length + 1) rest).map fun (vs, cs) => (.array vs, cs)
    | '\x7b' :: rest => inlineTable (valueWithin depth) rest
    | cs => scalar cs

/-! ### Lines -/

/-- A header after its first bracket. -/
def header (d : Draft) (cs : List Char) : Option (Draft × List Char) :=
  match cs with
  | '[' :: rest => do
    let (key, cs) ← dottedKey rest
    match cs with
    | ']' :: ']' :: rest => do
      let d ← d.openListed key
      let rest ← restOfLine? rest
      pure (d, rest)
    | _ => none
  | cs => do
    let (key, cs) ← dottedKey cs
    match cs with
    | ']' :: rest => do
      let d ← d.openTable key
      let rest ← restOfLine? rest
      pure (d, rest)
    | _ => none

/-- A line that binds a key. -/
def binding (d : Draft) (cs : List Char) : Option (Draft × List Char) := do
  let (key, cs) ← keyAndEquals cs
  let (v, cs) ← valueWithin depthLimit cs
  let rest ← restOfLine? cs
  let d ← d.bind key v
  pure (d, rest)

/-- The lines of a document, for at most `fuel` of them. -/
def lines : (fuel : Nat) → Draft → List Char → Option Draft
  | 0, _, _ => none
  | fuel + 1, d, cs =>
    match skipSpace cs with
    | [] => some d
    | '[' :: rest => do
      let (d, cs) ← header d rest
      lines fuel d cs
    | '#' :: rest => do
      let cs ← lineEnd? (skipComment rest)
      lines fuel d cs
    | cs =>
      match newline? cs with
      | some rest => lines fuel d rest
      | none => do
        let (d, cs) ← binding d cs
        lines fuel d cs

/-- The table of a document; a byte order mark may stand before it. The table itself
states no moment, the tables in it may. -/
def read (s : String) : Option Table := do
  let cs := match s.toList with
    | '\uFEFF' :: rest => rest
    | cs => cs
  let d ← lines (cs.length + 1) Draft.start cs
  let root ← d.close
  Table.withMoments? (branchEntries root)

end PerfDrift.Toml
