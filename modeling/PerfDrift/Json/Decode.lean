import PerfDrift.Document.Decode
import PerfDrift.Json.Reader

/-! Decoding JSON text. -/
namespace PerfDrift.Json

/-- Decodes a text that is one document. What the decoder objects to comes before
what is wrong after the document. -/
def decode {α : Type} (decoder : Decoder α) (s : String) : Except DecodeError α := do
  let (d, alone) := read s
  let x ← decoder d
  if alone then pure x else .error .malformed

end PerfDrift.Json
