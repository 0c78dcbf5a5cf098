import PerfDrift.Document.Decode
import PerfDrift.Failure
import PerfDrift.Method.Basic

/-! Reading method names where the name of no method is a failure. The failure quotes
the name as it was given. -/
namespace PerfDrift
open Document

/-- The method of a name. -/
def Method.ofName (s : String) : Except Failure Method :=
  match ofName? s with
  | some m => .ok m
  | none => .error (.unknownMethod s)

/-- The selection of a name. -/
def Selection.ofName (s : String) : Except Failure Selection :=
  match ofName? s with
  | some x => .ok x
  | none => .error (.unknownMethod s)

/-- A method by its name. -/
def Method.decode : Decoder Method := fun d => do
  let s ← asText d
  match ofName? s with
  | some m => .ok m
  | none => .error (.unknownMethod s)

end PerfDrift
