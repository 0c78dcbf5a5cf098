import PerfDrift.Number.Layout
import PerfDrift.Text.Quoted

/-! Documents as their readers leave them.

Profiles, results, rules and thresholds are decoded from documents: trees of
nothing, flags, numbers, texts, lists and records. A reader does not stop with an
error when the text of a document breaks off. It leaves the tree as far as it got,
marked where it ends, so that a decoder that walks the tree from left to right
meets its own objections and those of the reader in the order of the text. -/
namespace PerfDrift

/-- What a decoder met, as far as its messages tell. -/
inductive Found where
  | null
  | flag (b : Bool)
  | integer (i : Int)
  | real (x : Float)
  | text (s : String)
  | list
  | record
deriving DecidableEq

/-- The wording of what was met; the layout is that of the numbers. -/
def Found.describe (layout : Layout) : Found → String
  | .null => "null"
  | .flag b => "boolean `" ++ (if b then "true" else "false") ++ "`"
  | .integer i => "integer `" ++ toString i ++ "`"
  | .real x => "floating point `" ++ layout.text x ++ "`"
  | .text s => "string " ++ Text.quote s
  | .list => "sequence"
  | .record => "map"

/-- A number as a document writes it: a whole number, or one with a point or an
exponent. -/
inductive Number where
  | integer (i : Int)
  | real (x : Float)
deriving DecidableEq

/-- The nearest binary64 number. -/
def Number.toFloat : Number → Float
  | .integer i => if 0 ≤ i then Float.ofNat i.toNat else -Float.ofNat i.natAbs
  | .real x => x

def Number.found : Number → Found
  | .integer i => .integer i
  | .real x => .real x

/-- The name of a member of a record. -/
inductive Name where
  | text (s : String)
  /-- The name holds half of a surrogate pair without the other half. -/
  | unpaired
deriving DecidableEq

instance : Coe String Name := ⟨.text⟩

/-- Whether a list or record was read to its closing bracket. -/
inductive Ending where
  | closed
  | cut
deriving DecidableEq, Repr

/-- A document, or what was read of one. -/
inductive Document where
  | null
  | flag (b : Bool)
  | number (n : Number)
  | text (s : String)
  | list (items : List Document) (ending : Ending)
  | record (members : List (Name × Document)) (ending : Ending)
  /-- A number beyond the range of binary64. -/
  | beyond
  /-- A text that holds half of a surrogate pair without the other half. -/
  | unpaired
  /-- The text of the document is no document from here on. -/
  | broken
deriving Inhabited

namespace Document

/-- The document of a number; one that is not finite cannot be written. -/
def ofFloat (x : Float) : Document := if x.isFinite then .number (.real x) else .null

/-- The document of a number that may be absent. -/
def ofFloat? : Option Float → Document
  | none => .null
  | some x => ofFloat x

/-- A complete list. -/
def ofList (items : List Document) : Document := .list items .closed

/-- A complete record. -/
def ofMembers (members : List (String × Document)) : Document :=
  .record (members.map fun (k, v) => (.text k, v)) .closed

/-- What a decoder that expects something else says it met; `none` where the text
itself is at fault. -/
def found? : Document → Option Found
  | .null => some .null
  | .flag b => some (.flag b)
  | .number n => some n.found
  | .text s => some (.text s)
  | .list _ _ => some .list
  | .record _ _ => some .record
  | .beyond | .unpaired | .broken => none

mutual

/-- Whether a value that nobody asks for is complete. Numbers beyond the range and
unpaired surrogates do no harm there. -/
def isComplete : Document → Bool
  | .broken => false
  | .list items ending => ending = .closed && itemsComplete items
  | .record members ending => ending = .closed && membersComplete members
  | _ => true

/-- Whether every item of a list is complete. -/
def itemsComplete : List Document → Bool
  | [] => true
  | d :: rest => isComplete d && itemsComplete rest

/-- Whether every member of a record is complete. -/
def membersComplete : List (Name × Document) → Bool
  | [] => true
  | (_, d) :: rest => isComplete d && membersComplete rest

end

end Document
end PerfDrift
