import PerfDrift.Method.Reading
import PerfDrift.Profile.Basic

/-! Rules: which methods run on which profiles.

A rule names a method and may ask for a collector, a step and a command. What it
does not ask for may be anything. -/
namespace PerfDrift
open Document

structure Rule where
  method : Method
  collector : Option String := none
  postprocessor : Option String := none
  command : Option String := none
deriving DecidableEq, Repr

namespace Rule

/-- What a rule asks of a text; nothing asks nothing. -/
def Admits (wanted : Option String) (test : String → Prop) : Prop := ∀ s, wanted = some s → test s

instance (wanted : Option String) (test : String → Prop) [DecidablePred test] :
    Decidable (Admits wanted test) :=
  match wanted with
  | none => isTrue fun _ h => nomatch h
  | some s => decidable_of_iff (test s) ⟨fun h _ e => Option.some.inj e ▸ h, fun h => h s rfl⟩

/-- The rule applies to a profile. -/
def Applies {α : Type} (r : Rule) (p : Profile α) : Prop :=
  Admits r.collector (· = p.collector) ∧ Admits r.postprocessor (· ∈ p.postprocessors) ∧
    Admits r.command (· = p.command)

instance {α : Type} (r : Rule) (p : Profile α) : Decidable (r.Applies p) :=
  inferInstanceAs (Decidable (_ ∧ _ ∧ _))

/-- The rules that apply to a profile, in their order. -/
def applicable {α : Type} (rules : List Rule) (p : Profile α) : List Rule :=
  rules.filter fun r => r.Applies p

/-- The methods that rules select for a profile, each once, in the order in which
they run. -/
def methodsFor {α : Type} (rules : List Rule) (p : Profile α) : List Method :=
  Method.select ((applicable rules p).map (·.method))

def fields : List Field :=
  [.mandatory "method" Method.decode, .defaulted "collector" (asOption asText),
    .defaulted "postprocessor" (asOption asText), .defaulted "cmd" (asOption asText)]

def decode : Decoder Rule :=
  asRecord "struct Rule" fields fun l => do
    let method ← l.get "method" Method.decode
    let collector ← l.getD "collector" (asOption asText) none
    let postprocessor ← l.getD "postprocessor" (asOption asText) none
    let command ← l.getD "cmd" (asOption asText) none
    pure {method, collector, postprocessor, command}

end Rule
end PerfDrift
