import PerfDrift.Document.Error

/-! Decoding documents.

A decoder is a function from documents to values or the first objection. Records
are decoded through their table of fields: the members are walked once in the order
of the document, where a field that occurs twice, a value that its field cannot
take and an unfinished member are met as they stand; then the value is built from
the fields by name, which reports missing ones in the order of the table. A record
may also be written as the list of its fields in that order. -/
namespace PerfDrift

/-- A decoder for `α`. -/
abbrev Decoder (α : Type) := Document → Except DecodeError α

namespace Document

/-- The objection to a value where `expected` was expected. -/
def mismatch {α : Type} (d : Document) (expected : String) : Except DecodeError α :=
  match d.found? with
  | some found => .error (.invalidType found expected)
  | none => .error .malformed

/-- Nothing follows what was decoded. -/
def finish : Ending → Except DecodeError Unit
  | .closed => .ok ()
  | .cut => .error .malformed

def asText : Decoder String
  | .text s => .ok s
  | d => d.mismatch "a string"

def asFloat : Decoder Float
  | .number n => .ok n.toFloat
  | d => d.mismatch "f64"

/-- A count of 64 bits, written as a whole number. -/
def asCount : Decoder UInt64
  | .number (.integer i) =>
    if 0 ≤ i ∧ i < 0x10000000000000000 then .ok (UInt64.ofNat i.toNat)
    else .error (.invalidValue (.integer i) "u64")
  | d => d.mismatch "u64"

/-- A value or nothing. -/
def asOption {α : Type} (decode : Decoder α) : Decoder (Option α)
  | .null => .ok none
  | d => some <$> decode d

/-- The items of a list, decoded in order. -/
def decodeItems {α : Type} (decode : Decoder α) : List Document → Except DecodeError (List α)
  | [] => .ok []
  | d :: rest => do
    let x ← decode d
    let xs ← decodeItems decode rest
    pure (x :: xs)

def asList {α : Type} (decode : Decoder α) : Decoder (List α)
  | .list items ending => do
    let xs ← decodeItems decode items
    finish ending
    pure xs
  | d => d.mismatch "a sequence"

/-! ### Variants -/

/-- The variant of a name. -/
def variantOf {α : Type} (variants : List (String × α)) (name : String) : Except DecodeError α :=
  match variants.lookup name with
  | some x => .ok x
  | none => .error (.unknownVariant name (variants.map (·.1)))

/-- A variant without content: its name, or a record that binds only its name, and
that to nothing. -/
def asVariant {α : Type} (variants : List (String × α)) : Decoder α
  | .text s => variantOf variants s
  | .record ((.text s, content) :: rest) ending => do
    let x ← variantOf variants s
    match content with
    | .null => pure ()
    | d => d.mismatch "unit"
    if rest.isEmpty then finish ending else .error .notSingle
    pure x
  | .record [] .closed => .error .notSingle
  | .record _ _ => .error .malformed
  | d =>
    match d.found? with
    | some found => .error (.notVariant found)
    | none => .error .malformed

/-! ### Records -/

/-- A field of a record: its name, whether a list may end before it, and the check
of its value. -/
structure Field where
  name : String
  required : Bool
  check : Document → Except DecodeError Unit

/-- A field that has to be there. -/
def Field.mandatory {α : Type} (name : String) (decode : Decoder α) : Field :=
  ⟨name, true, fun d => (fun _ => ()) <$> decode d⟩

/-- A field that may be absent. -/
def Field.defaulted {α : Type} (name : String) (decode : Decoder α) : Field :=
  ⟨name, false, fun d => (fun _ => ()) <$> decode d⟩

/-- Where a record finds the values of its fields. -/
abbrev Lookup := String → Option Document

/-- The value of a field that has to be there. -/
def Lookup.get {α : Type} (l : Lookup) (name : String) (decode : Decoder α) :
    Except DecodeError α :=
  match l name with
  | some d => decode d
  | none => .error (.missingField name)

/-- The value of a field, or its default. -/
def Lookup.getD {α : Type} (l : Lookup) (name : String) (decode : Decoder α) (default : α) :
    Except DecodeError α :=
  match l name with
  | some d => decode d
  | none => .ok default

/-- Walks the members in order; `seen` holds the fields met so far. Members that no
field names are passed over. -/
def walkMembers (fields : List Field) :
    List String → List (Name × Document) → Except DecodeError Unit
  | _, [] => .ok ()
  | seen, (.text name, d) :: rest =>
    match fields.find? (·.name = name) with
    | some field =>
      if name ∈ seen then .error (.duplicateField name)
      else match field.check d with
        | .ok () => walkMembers fields (name :: seen) rest
        | .error e => .error (.inField name e)
    | none => if d.isComplete then walkMembers fields seen rest else .error .malformed
  | _, _ :: _ => .error .malformed

/-- Walks the items of a record that is written as a list; `index` counts them. -/
def walkItems (expected : String) :
    (index : Nat) → List Field → List Document → Ending → Except DecodeError Unit
  | _, [], [], ending => finish ending
  | index, [], rest@(_ :: _), _ => .error (.tooLong (index + rest.length))
  | index, field :: fields, [], ending => do
    finish ending
    if field.required then .error (.tooShort index expected)
    else walkItems expected (index + 1) fields [] ending
  | index, field :: fields, d :: rest, ending => do
    field.check d
    walkItems expected (index + 1) fields rest ending

/-- The value of the member with a name. -/
def memberNamed (members : List (Name × Document)) : Lookup :=
  fun name => members.lookup (.text name)

/-- The value of the item in the place of the field with a name. -/
def itemNamed (fields : List Field) (items : List Document) : Lookup :=
  fun name => ((fields.map (·.name)).zip items).lookup name

/-- A record: its fields are checked in the order of the document, then `build`
takes their values by name. -/
def asRecord {α : Type} (title : String) (fields : List Field)
    (build : Lookup → Except DecodeError α) : Decoder α
  | .record members ending => do
    walkMembers fields [] members
    finish ending
    build (memberNamed members)
  | .list items ending => do
    walkItems (title ++ s!" with {fields.length} elements") 0 fields items ending
    build (itemNamed fields items)
  | d => d.mismatch title

end Document
end PerfDrift
