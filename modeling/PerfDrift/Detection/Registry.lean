import PerfDrift.Detection.Comparison
import PerfDrift.Method.Reading

/-! Strategies, and the registry that they are found in.

A strategy is a method that runs within limits of its own. A registry has one for each method, at
the place of the method in the order in which they run. -/
namespace PerfDrift.Detection

/-- A method, and what it finds in a baseline and a target. -/
structure Strategy (α : Type) where
  method : Method
  compare : Profile α → Profile α → List (Finding α)

/-- One strategy for each method, in the order in which they run. -/
structure Registry (α : Type) where
  strategies : List (Strategy α)
  methods_eq : strategies.map Strategy.method = Method.all

namespace Registry
variable {α : Type}

/-- The registry of the strategies that go by thresholds. -/
def ofThresholds [Arithmetic α] (t : Thresholds α) : Registry α where
  strategies := Method.all.map fun m => ⟨m, fun baseline target => run t baseline target m⟩
  methods_eq := rfl

theorem rank_lt_length (r : Registry α) (m : Method) : m.rank < r.strategies.length := by
  have hlength : r.strategies.length = 4 := by
    simpa [Method.all] using congrArg List.length r.methods_eq
  rw [hlength]
  cases m <;> decide

/-- The strategy of a method. -/
def get (r : Registry α) (m : Method) : Strategy α := r.strategies.get ⟨m.rank, r.rank_lt_length m⟩

/-- The strategy of a name. -/
def resolve (r : Registry α) (s : String) : Except Failure (Strategy α) := do
  let m ← Method.ofName s
  pure (r.get m)

/-- What is at the place of a method is a strategy of that method. -/
theorem get_method (r : Registry α) (m : Method) : (r.get m).method = m := by
  have hplace : (r.strategies.map Strategy.method)[m.rank]? = some m := by
    rw [r.methods_eq]
    cases m <;> rfl
  simpa [get, r.rank_lt_length m] using hplace

theorem get_ofThresholds [Arithmetic α] (t : Thresholds α) (m : Method) :
    (ofThresholds t).get m = ⟨m, fun baseline target => run t baseline target m⟩ := by
  cases m <;> rfl

end Registry
end PerfDrift.Detection
