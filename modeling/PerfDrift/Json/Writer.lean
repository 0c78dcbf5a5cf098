import PerfDrift.Document.Basic

/-! Writing JSON, on one line or indented by two spaces a level. -/
namespace PerfDrift.Json

/-- A character inside a text. -/
def escapeChar (c : Char) : List Char :=
  if c = '"' then ['\\', '"']
  else if c = '\\' then ['\\', '\\']
  else if c = '\x08' then ['\\', 'b']
  else if c = '\x0c' then ['\\', 'f']
  else if c = '\n' then ['\\', 'n']
  else if c = '\r' then ['\\', 'r']
  else if c = '\t' then ['\\', 't']
  else if c.toNat < 0x20 then
    let hex := Text.hexOf c.toNat
    ['\\', 'u'] ++ List.replicate (4 - hex.length) '0' ++ hex
  else [c]

/-- A text between quotes. -/
def quoted (s : String) : String :=
  String.ofList (['"'] ++ s.toList.flatMap escapeChar ++ ['"'])

def numberText : Number → String
  | .integer i => toString i
  | .real x => if x.isFinite then Layout.json.text x else "null"

def nameText : Name → String
  | .text s => quoted s
  | _ => quoted ""

/-- A value without structure. What cannot be written is written as nothing. -/
def scalarText : Document → String
  | .flag b => if b then "true" else "false"
  | .number n => numberText n
  | .text s => quoted s
  | _ => "null"

mutual

/-- A document on one line. -/
def compact : Document → String
  | .list items _ => "[" ++ String.intercalate "," (compactItems items) ++ "]"
  | .record members _ => "\x7b" ++ String.intercalate "," (compactMembers members) ++ "\x7d"
  | d => scalarText d

def compactItems : List Document → List String
  | [] => []
  | d :: rest => compact d :: compactItems rest

def compactMembers : List (Name × Document) → List String
  | [] => []
  | (name, d) :: rest => (nameText name ++ ":" ++ compact d) :: compactMembers rest

end

/-- Lines indented to `depth` levels between an opening and a closing bracket. -/
def block (left right : String) (depth : Nat) : List String → String
  | [] => left ++ right
  | lines =>
    let pad (n : Nat) : String := String.ofList (List.replicate (2 * n) ' ')
    left ++ "\n" ++ String.intercalate ",\n" (lines.map (pad (depth + 1) ++ ·))
      ++ "\n" ++ pad depth ++ right

mutual

/-- A document on lines of its own, nested `depth` levels. -/
def indentedAt (depth : Nat) : Document → String
  | .list items _ => block "[" "]" depth (indentedItems (depth + 1) items)
  | .record members _ => block "\x7b" "\x7d" depth (indentedMembers (depth + 1) members)
  | d => scalarText d

def indentedItems (depth : Nat) : List Document → List String
  | [] => []
  | d :: rest => indentedAt depth d :: indentedItems depth rest

def indentedMembers (depth : Nat) : List (Name × Document) → List String
  | [] => []
  | (name, d) :: rest =>
    (nameText name ++ ": " ++ indentedAt depth d) :: indentedMembers depth rest

end

/-- A document over several lines. -/
def indented (d : Document) : String := indentedAt 0 d

end PerfDrift.Json
