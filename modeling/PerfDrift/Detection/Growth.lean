import PerfDrift.Finding.Basic
import PerfDrift.Method.Basic
import PerfDrift.Profile.Basic

/-! Detection by growth.

The best fitting growth model of a location is compared with that of the baseline.
Only the order of growth counts, and only when both models fit well enough. -/
namespace PerfDrift.Detection.Growth
open Arithmetic
variable {α : Type} [Arithmetic α]

/-- Fit before growth: a model is better when it fits better, and of two that fit
alike the one that grows more slowly. -/
def rank (a b : FittedModel α) : Ordering :=
  (totalOrder a.fit b.fit).then (Ord.compare b.kind.order a.kind.order)

/-- The better of two models, the second of two alike. -/
def better (a b : FittedModel α) : FittedModel α := if rank a b = .gt then a else b

/-- The best of some models. -/
def best? : List (FittedModel α) → Option (FittedModel α)
  | [] => none
  | m :: ms => some (ms.foldl better m)

/-- The fit of the best model, zero without one. -/
def fitOf : Option (FittedModel α) → α
  | none => zero
  | some m => m.fit

/-- The growth of the best model if it fits well enough. -/
def known (least : α) (best : Option (FittedModel α)) : Option ModelKind :=
  (best.filter fun m => le least m.fit).map (·.kind)

/-- The verdict on the growth of both sides, where it is known. -/
def classify : Option ModelKind → Option ModelKind → Verdict
  | some before, some after =>
    if before.order < after.order then .degradation
    else if after.order < before.order then .optimization
    else .noChange
  | _, _ => .noChange

/-- The finding at a location with its models on both sides. -/
def finding (least : α) (location : String) (baseline target : List (FittedModel α)) :
    Finding α :=
  let before := known least (best? baseline)
  let after := known least (best? target)
  Finding.withConfidence
    {strategy := Method.modelOrder.id, location, verdict := classify before after,
     fromModel := before.map (·.name), toModel := after.map (·.name)}
    .rSquare (lesser (fitOf (best? baseline)) (fitOf (best? target)))

/-- The locations that both profiles have models for, or that both measure. -/
def locations (baseline target : Profile α) : List String :=
  KeyMap.namesOf
    ((baseline.modelsByLocation.meet target.modelsByLocation).map (·.1)
      ++ (baseline.samples.meet target.samples).map (·.1))

def compare (least : α) (baseline target : Profile α) : List (Finding α) :=
  (locations baseline target).map fun location =>
    finding least location ((baseline.modelsByLocation.get? location).getD [])
      ((target.modelsByLocation.get? location).getD [])

end PerfDrift.Detection.Growth
