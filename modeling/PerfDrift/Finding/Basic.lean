import PerfDrift.Number.Arithmetic
import PerfDrift.Verdict

/-! Findings: what a strategy says about a location. -/
namespace PerfDrift

/-- What the confidence of a finding measures. -/
inductive ConfidenceKind where
  | none
  /-- How well the models fit. -/
  | rSquare
  /-- How little the baseline varies. -/
  | stability
deriving DecidableEq, Repr

def ConfidenceKind.all : List ConfidenceKind := [.none, .rSquare, .stability]

def ConfidenceKind.name : ConfidenceKind → String
  | .none => "none"
  | .rSquare => "r_square"
  | .stability => "stability"

structure Finding (α : Type) where
  /-- The short name of the strategy. -/
  strategy : String
  location : String
  verdict : Verdict
  /-- The change relative to the baseline, where it is defined. -/
  rate : Option α := none
  confidenceKind : ConfidenceKind := .none
  confidence : Option α := none
  /-- The growth of the baseline, where it is known. -/
  fromModel : Option String := none
  /-- The growth of the target, where it is known. -/
  toModel : Option String := none
deriving DecidableEq

/-- The finding with a confidence, which is brought into `[0, 1]`. -/
def Finding.withConfidence {α : Type} [Arithmetic α] (f : Finding α) (kind : ConfidenceKind)
    (x : α) : Finding α :=
  {f with confidenceKind := kind, confidence := some (Arithmetic.clampUnit x)}

/-- A finding and what it compares: the version of the baseline and the path of
the target profile. -/
structure Record (α : Type) where
  finding : Finding α
  baseline : String
  profile : String
deriving DecidableEq

/-- A record and the version it was made for. -/
structure Entry (α : Type) where
  target : String
  record : Record α
deriving DecidableEq

end PerfDrift
