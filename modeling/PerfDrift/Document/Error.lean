import PerfDrift.Document.Basic

/-! Why a document is not what a decoder expects. -/
namespace PerfDrift

/-- The first objection to a document. -/
inductive DecodeError where
  /-- The text is not a document, or goes on after it. -/
  | malformed
  | missingField (name : String)
  | duplicateField (name : String)
  | unknownVariant (name : String) (expected : List String)
  | invalidType (found : Found) (expected : String)
  | invalidValue (found : Found) (expected : String)
  /-- A record written as a list ends before its last required field. -/
  | tooShort (length : Nat) (expected : String)
  /-- A record written as a list goes on after its last field. -/
  | tooLong (length : Nat)
  /-- A variant is written neither as a name nor as a record. -/
  | notVariant (found : Found)
  /-- A variant is written as a record that does not have one member alone. -/
  | notSingle
  | unknownMethod (text : String)
  /-- The objection is to the value of a field. -/
  | inField (name : String) (cause : DecodeError)
deriving DecidableEq

namespace DecodeError

/-- A name in backquotes. -/
def ticked (s : String) : String := "`" ++ s ++ "`"

/-- The choice among variant names. -/
def oneOf : List String → String
  | [] => "there are no variants"
  | [a] => "expected " ++ ticked a
  | [a, b] => "expected " ++ ticked a ++ " or " ++ ticked b
  | names => "expected one of " ++ String.intercalate ", " (names.map ticked)

/-- The wording of an objection, without the field it is about. What is wrong with a text
that is no document is for its reader to say; `fault` is what it says. -/
def describe (layout : Layout) (fault : String) : DecodeError → String
  | .malformed => fault
  | .missingField name => "missing field " ++ ticked name
  | .duplicateField name => "duplicate field " ++ ticked name
  | .unknownVariant name expected => "unknown variant " ++ ticked name ++ ", " ++ oneOf expected
  | .invalidType found expected =>
    "invalid type: " ++ found.describe layout ++ ", expected " ++ expected
  | .invalidValue found expected =>
    "invalid value: " ++ found.describe layout ++ ", expected " ++ expected
  | .tooShort length expected => s!"invalid length {length}, expected " ++ expected
  | .tooLong length => s!"invalid length {length}, expected fewer elements in array"
  | .notVariant found => "invalid type: " ++ found.describe layout ++ ", expected string or map"
  | .notSingle =>
    "invalid value: " ++ Found.record.describe layout ++ ", expected map with a single key"
  | .unknownMethod text => "unknown degradation method '" ++ text ++ "'"
  | .inField _ cause => cause.describe layout fault

/-- The names of the fields that lead to the objection. -/
def path : DecodeError → List String
  | .inField name cause => name :: cause.path
  | _ => []

/-- The wording of an objection to a JSON text. Items after the last field of a record and
variants that are not written as such are faults of the text. -/
def describeJson (fault : String) : DecodeError → String
  | .tooLong _ | .notVariant _ | .notSingle => fault
  | .inField _ cause => cause.describeJson fault
  | e => e.describe .json fault

/-- Where a reader stops, by line and column. Of line zero nothing is said. -/
def placeText (place : Nat × Nat) : String :=
  let (line, column) := place
  if line = 0 then "" else s!" at line {line} column {column}"

/-- The message about a JSON text, with the place where its reader stops. -/
def jsonMessage (fault : String) (place : Nat × Nat) (e : DecodeError) : String :=
  e.describeJson fault ++ placeText place

/-- The message about a configuration value, which names the field on a line of its
own. The value has been read, so there is no fault of a text. -/
def configMessage (e : DecodeError) : String :=
  let text := e.describe .typed ""
  if e.path.isEmpty then text else text ++ "\nin " ++ ticked (String.intercalate "." e.path)

end DecodeError
end PerfDrift
