import PerfDrift.Config.Basic
import PerfDrift.Detection.Comparison
import PerfDrift.Finding.Basic

/-! The records of a check.

A candidate is a profile of the checked version that some rule applies to. At each
ancestor it is compared with the first profile of the same configuration, by the
methods its rules select, and every finding becomes a record. -/
namespace PerfDrift.Check
open Detection

/-- A profile that is to be compared, with the methods its rules select. -/
structure Candidate where
  stored : StoredProfile Float
  methods : List Method

/-- An ancestor to compare with, and its profiles. -/
structure Baseline where
  checksum : String
  profiles : List (StoredProfile Float)

/-- Some rule applies to the profile. -/
def Matched (rules : List Rule) (p : StoredProfile Float) : Prop :=
  Rule.applicable rules p.profile ≠ []

instance (rules : List Rule) (p : StoredProfile Float) : Decidable (Matched rules p) :=
  inferInstanceAs (Decidable (_ ≠ _))

/-- The profiles that some rule applies to. -/
def candidates (rules : List Rule) (ps : List (StoredProfile Float)) : List Candidate :=
  (ps.filter fun p => Matched rules p).map fun p => ⟨p, Rule.methodsFor rules p.profile⟩

/-- The first of some profiles that has the configuration of another one. -/
def partner? (ps : List (StoredProfile Float)) (c : Candidate) : Option (StoredProfile Float) :=
  ps.find? fun p => p.profile.SameConfiguration c.stored.profile

/-- Some profile can be compared with some candidate. -/
def pairable (ps : List (StoredProfile Float)) (cs : List Candidate) : Bool :=
  ps.any fun p => cs.any fun c => p.profile.SameConfiguration c.stored.profile

/-! ### Records -/

/-- The records of findings. -/
def recordsOf (baseline path : String) (fs : List (Finding Float)) : List (Record Float) :=
  fs.map fun f => ⟨f, baseline, path⟩

/-- Fails unless two profiles can be compared. -/
def requireCompatible (baseline target : Profile Float) : Except Failure Unit :=
  if baseline.Compatible target then .ok ()
  else .error (.incompatible baseline.descriptor target.descriptor)

/-- The records of one candidate at one ancestor. The two profiles were paired by their
configuration, and it is made sure all the same that they can be compared. -/
def attemptAt (t : Thresholds Float) (b : Baseline) (c : Candidate) :
    Except Failure (List (Record Float)) :=
  match partner? b.profiles c with
  | none => .ok []
  | some p => do
    requireCompatible p.profile c.stored.profile
    pure (recordsOf b.checksum c.stored.path (runAll t p.profile c.stored.profile c.methods))

/-- The records of all candidates at all ancestors, ancestor by ancestor. -/
def attemptAll (t : Thresholds Float) (bs : List Baseline) (cs : List Candidate) :
    Except Failure (List (Record Float)) := do
  let rounds ← bs.mapM fun b => cs.mapM fun c => attemptAt t b c
  pure rounds.flatten.flatten

/-! ### Two given profiles -/

/-- The findings on two profiles, unless they cannot be compared. -/
def compareProfiles (t : Thresholds Float) (baseline target : Profile Float)
    (selection : Selection) : Except Failure (List (Finding Float)) :=
  match compare? t baseline target selection with
  | some fs => .ok fs
  | none => .error (.incompatible baseline.descriptor target.descriptor)

end PerfDrift.Check
