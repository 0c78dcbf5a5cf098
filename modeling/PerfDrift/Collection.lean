import PerfDrift.Failure
import PerfDrift.History
import PerfDrift.Store

/-! Collecting profiles of a version.

A runner is asked for the profiles of a version. It adds them to the store itself,
and says only whether it came to an end. It may keep a state of its own. -/
namespace PerfDrift

/-- What runs the measurements of a version; `ρ` is its state. -/
structure Runner (ρ : Type) where
  collect : Version → Store → ρ → Except CollectionError Unit × Store × ρ

/-- What a scripted collection does. -/
inductive Outcome where
  | produce (profiles : List (StoredProfile Float))
  | abort (cause : CollectionError)

namespace Runner

/-- The runner that does what a script says. A version that the script does not
mention fails. -/
def scripted : Runner (KeyMap Outcome) where
  collect v store script :=
    match script.get? v.checksum with
    | some (.produce profiles) => (.ok (), store.addProfiles v.checksum profiles, script)
    | some (.abort cause) => (.error cause, store, script)
    | none => (.error (.failed "no script"), store, script)

end Runner
end PerfDrift
