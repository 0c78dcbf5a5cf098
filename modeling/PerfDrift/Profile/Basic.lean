import PerfDrift.KeyMap
import PerfDrift.Number.Arithmetic

/-! Profiles: what a collector measured of one command.

A profile holds amounts by location, each standing for a number of calls, and the
growth models that were fitted to them. It names the version it was collected for,
the collector and the steps its measurements went through; two profiles are
compared only when collector and steps agree. -/
namespace PerfDrift

/-- How an amount grows with its input, from the slowest growth to the fastest. -/
inductive ModelKind where
  | constant
  | logarithmic
  | linear
  | quadratic
  | power
  | exponential
deriving DecidableEq, Repr

namespace ModelKind

def all : List ModelKind := [constant, logarithmic, linear, quadratic, power, exponential]

/-- The place in the order of growth. -/
def order : ModelKind → Nat
  | constant => 0
  | logarithmic => 1
  | linear => 2
  | quadratic => 3
  | power => 4
  | exponential => 5

def name : ModelKind → String
  | constant => "constant"
  | logarithmic => "logarithmic"
  | linear => "linear"
  | quadratic => "quadratic"
  | power => "power"
  | exponential => "exponential"

end ModelKind

/-- One measurement: an amount that stands for a number of calls. -/
structure Resource (α : Type) where
  location : String
  amount : α
  calls : UInt64 := 1
deriving DecidableEq

/-- A growth model fitted to the measurements of a location. -/
structure FittedModel (α : Type) where
  location : String
  kind : ModelKind
  /-- The coefficient of determination. -/
  fit : α
  coefficients : List α := []
deriving DecidableEq

structure Profile (α : Type) where
  /-- The version the profile was collected for. -/
  origin : String
  collector : String
  /-- The steps the measurements went through, in order. -/
  postprocessors : List String := []
  /-- The measured command. -/
  command : String
  resources : List (Resource α) := []
  models : List (FittedModel α) := []
deriving DecidableEq

/-- A profile under the path it is stored at. -/
structure StoredProfile (α : Type) where
  path : String
  profile : Profile α
deriving DecidableEq

namespace Profile
variable {α : Type}

def addPostprocessor (p : Profile α) (name : String) : Profile α :=
  {p with postprocessors := p.postprocessors ++ [name]}

def addResource (p : Profile α) (r : Resource α) : Profile α :=
  {p with resources := p.resources ++ [r]}

def addModel (p : Profile α) (m : FittedModel α) : Profile α :=
  {p with models := p.models ++ [m]}

/-- The collector, the steps and the command on one line. -/
def descriptor (p : Profile α) : String :=
  String.intercalate "+" (p.collector :: p.postprocessors) ++ " (" ++ p.command ++ ")"

/-- The measurements mean the same: one collector, the same steps. -/
def Compatible (p q : Profile α) : Prop :=
  p.collector = q.collector ∧ p.postprocessors = q.postprocessors

/-- The measurements mean the same and are of the same command. -/
def SameConfiguration (p q : Profile α) : Prop := p.Compatible q ∧ p.command = q.command

instance (p q : Profile α) : Decidable (p.Compatible q) := inferInstanceAs (Decidable (_ ∧ _))

instance (p q : Profile α) : Decidable (p.SameConfiguration q) :=
  inferInstanceAs (Decidable (_ ∧ _))

/-! ### By location -/

/-- The amounts of each location in the order of the profile. -/
def samples (p : Profile α) : KeyMap (List α) :=
  (KeyMap.group Resource.location p.resources).map (List.map Resource.amount)

/-- The amounts of measurements, each as often as its calls, added up from zero. -/
def weigh [Arithmetic α] (resources : List (Resource α)) : α :=
  resources.foldl (fun t r => t + r.amount * Arithmetic.ofNat r.calls.toNat) Arithmetic.zero

/-- The weighted total of each location. -/
def totals [Arithmetic α] (p : Profile α) : KeyMap α :=
  (KeyMap.group Resource.location p.resources).map weigh

/-- The models of each location in the order of the profile. -/
def modelsByLocation (p : Profile α) : KeyMap (List (FittedModel α)) :=
  KeyMap.group FittedModel.location p.models

end Profile
end PerfDrift
