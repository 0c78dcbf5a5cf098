import PerfDrift.Number.Arithmetic

/-! Thresholds: how large a change counts, and how sure a verdict has to be. -/
namespace PerfDrift

structure Thresholds (α : Type) where
  /-- The relative change of averages beyond which it counts. -/
  averageChange : α
  /-- The least fit of a model that is trusted. -/
  modelFit : α
  /-- The relative change up to which a quick verdict stays uncertain. -/
  fastBand : α
  /-- The least confidence of a quick verdict that is certain. -/
  fastConfidence : α
  /-- The distance between quartiles, times this, is the width of the fence. -/
  fenceFactor : α
  /-- The relative change of the total that is noise. -/
  noiseTolerance : α
deriving DecidableEq

/-- What is wrong with a threshold. -/
inductive ThresholdError (α : Type) where
  /-- It is negative or not finite. -/
  | negative (name : String) (value : α)
  | outsideUnit (name : String) (value : α)
deriving DecidableEq

namespace Thresholds
open Arithmetic
variable {α : Type} [Arithmetic α]

/-- What holds where nothing else is said. -/
def standard : Thresholds α :=
  ⟨ofDecimal 5 2, ofDecimal 90 2, ofDecimal 5 2, ofDecimal 90 2, ofDecimal 15 1, ofDecimal 1 2⟩

/-- Fewer changes count, and models have to fit better. -/
def strict : Thresholds α :=
  ⟨ofDecimal 10 2, ofDecimal 95 2, ofDecimal 10 2, ofDecimal 95 2, ofNat 3, ofDecimal 2 2⟩

/-- Small changes count. -/
def permissive : Thresholds α :=
  ⟨ofDecimal 2 2, ofDecimal 80 2, ofDecimal 2 2, ofDecimal 80 2, ofNat 1, ofDecimal 5 3⟩

def checkNonNegative (name : String) (x : α) : Except (ThresholdError α) Unit :=
  if !isFinite x || lt x zero then .error (.negative name x) else .ok ()

def checkUnit (name : String) (x : α) : Except (ThresholdError α) Unit :=
  if le zero x && le x one then .ok () else .error (.outsideUnit name x)

/-- The first thing that is wrong with the thresholds. Factors and tolerances are
looked at first, then what has to lie in `[0, 1]`. -/
def validate (t : Thresholds α) : Except (ThresholdError α) Unit := do
  checkNonNegative "aat_threshold" t.averageChange
  checkNonNegative "fast_band" t.fastBand
  checkNonNegative "eto_iqr_multiplier" t.fenceFactor
  checkNonNegative "eto_noise_tolerance" t.noiseTolerance
  checkUnit "bmoe_min_fit" t.modelFit
  checkUnit "fast_confidence" t.fastConfidence

end Thresholds
end PerfDrift
