import PerfDrift.Document.Basic
import PerfDrift.KeyMap
import PerfDrift.Toml.Moment

/-! TOML values.

A table is a list of bindings of which the first one for a key counts. A table inside
a document may state a moment as a text, under a key that is reserved for it. Tables
are reached by dotted keys, and a value is handed to decoders as a document: moments
as their text, tables with one member a key, in byte order. -/
namespace PerfDrift.Toml

inductive Value where
  | string (s : String)
  | integer (i : Int)
  | float (x : Float)
  | boolean (b : Bool)
  | moment (m : Moment)
  | array (items : List Value)
  | table (entries : List (String × Value))
deriving Inhabited

/-- The bindings of a table. -/
abbrev Table := List (String × Value)

/-- The name of the type of a value. -/
def Value.typeName : Value → String
  | .string _ => "string"
  | .integer _ => "integer"
  | .float _ => "float"
  | .boolean _ => "boolean"
  | .moment _ => "datetime"
  | .array _ => "array"
  | .table _ => "table"

/-! ### Stated moments -/

/-- The key whose value states a moment as a text. -/
def momentKey : String := "$__toml_private_datetime"

/-- The moment that a value states. -/
def Value.statedMoment? : Value → Option Moment
  | .string s => Moment.ofText? s
  | _ => none

mutual

/-- The value with the moments that its tables state; `none` if one of them is no
moment. Only the first key of a table makes it state a moment, and what else such a
table binds is passed over. -/
def Value.withMoments? : Value → Option Value
  | .array items => (itemsWithMoments? items).map .array
  | .table [] => some (.table [])
  | .table ((key, v) :: rest) =>
    if key = momentKey then v.statedMoment?.map .moment
    else do
      let v ← v.withMoments?
      let rest ← Table.withMoments? rest
      pure (.table ((key, v) :: rest))
  | v => some v

def itemsWithMoments? : List Value → Option (List Value)
  | [] => some []
  | v :: rest => do
    let v ← v.withMoments?
    let rest ← itemsWithMoments? rest
    pure (v :: rest)

/-- The bindings with the moments that tables below them state. -/
def Table.withMoments? : List (String × Value) → Option (List (String × Value))
  | [] => some []
  | (key, v) :: rest => do
    let v ← v.withMoments?
    let rest ← Table.withMoments? rest
    pure ((key, v) :: rest)

end

/-! ### Look-up -/

/-- The value bound to a key. -/
def Table.get? (t : Table) (key : String) : Option Value := List.lookup key t

/-- Follows the parts of a key through nested tables. -/
def Table.follow? (t : Table) : List String → Option Value
  | [] => none
  | [key] => t.get? key
  | key :: rest =>
    match t.get? key with
    | some (.table inner) => follow? inner rest
    | _ => none

/-- The characters between dots; there is one part more than there are dots. -/
def dotParts : List Char → List (List Char)
  | [] => [[]]
  | c :: cs =>
    if c = '.' then [] :: dotParts cs
    else match dotParts cs with
      | [] => [[c]]
      | part :: parts => (c :: part) :: parts

/-- The keys that a dotted key runs through. -/
def splitKey (key : String) : List String := (dotParts key.toList).map String.ofList

/-- The value at a dotted key. -/
def Table.lookup (t : Table) (key : String) : Option Value := t.follow? (splitKey key)

/-! ### Values as documents -/

mutual

/-- The document of a value. -/
def Value.toDocument : Value → Document
  | .string s => .text s
  | .integer i => .number (.integer i)
  | .float x => .number (.real x)
  | .boolean b => .flag b
  | .moment m => .text m.text
  | .array items => .ofList (itemDocuments items)
  | .table entries => .ofMembers (memberDocuments entries)

def itemDocuments : List Value → List Document
  | [] => []
  | v :: rest => v.toDocument :: itemDocuments rest

/-- The members of a table in byte order; the first binding of a key is placed last. -/
def memberDocuments : List (String × Value) → List (String × Document)
  | [] => []
  | (key, v) :: rest => placeKey key v.toDocument (memberDocuments rest)

end

end PerfDrift.Toml
