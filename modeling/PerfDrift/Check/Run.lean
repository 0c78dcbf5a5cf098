import PerfDrift.Check.Basic
import PerfDrift.Check.Records

/-! Checking versions against their ancestors.

The profiles of a version that some rule applies to are compared with profiles of
the same configuration at its ancestors, and the findings become the records of the
version. Profiles that are missing may be collected first; when that does not come
to an end the version is skipped. -/
namespace PerfDrift.Check
variable {ρ : Type}

/-! ### The profiles of the version -/

/-- The profiles of the version to be checked, collected where they are missing and
the configuration wants that; none when the collection did not come to an end. They
are kept in the cache. -/
def targetProfiles (s : Setting ρ) (v : Version) :
    Action ρ (Option (List (StoredProfile Float))) := do
  let ps ← recallOrLoad s v.checksum
  if s.config.collects && !ps.any fun p => Matched s.config.rules p then
    match ← collect s v with
    | .error _ => pure none
    | .ok _ => do
      let ps ← loadProfiles s v.checksum
      remember v.checksum ps
      pure (some ps)
  else do
    remember v.checksum ps
    pure (some ps)

/-! ### The ancestors -/

/-- The profiles of an ancestor, which are kept in the cache. -/
def ancestorProfiles (s : Setting ρ) (version : String) :
    Action ρ (List (StoredProfile Float)) := do
  match (← get).cache.get? version with
  | some ps => pure ps
  | none => do
    let ps ← loadProfiles s version
    remember version ps
    pure ps

/-- The ancestors to compare with among the versions of a walk: those with a profile
of the same configuration as some candidate. The walk goes no further than it has
to. -/
def baselinesAmong (s : Setting ρ) (target : String) (cs : List Candidate) :
    List Version → Action ρ (List Baseline)
  | [] => pure []
  | v :: rest => do
    note (.visit v.checksum)
    if v.checksum = target then baselinesAmong s target cs rest
    else
      let ps ← ancestorProfiles s v.checksum
      if pairable ps cs then
        match s.config.policy with
        | .first => pure [⟨v.checksum, ps⟩]
        | .all => do
          let bs ← baselinesAmong s target cs rest
          pure (⟨v.checksum, ps⟩ :: bs)
      else baselinesAmong s target cs rest

/-- The ancestors to compare with. Without a candidate nobody looks for them. -/
def baselines (s : Setting ρ) (target : String) (cs : List Candidate) :
    Action ρ (List Baseline) := do
  if cs.isEmpty then pure []
  else
    let versions ← walk s target
    baselinesAmong s target cs versions

/-! ### Checks -/

/-- Checks a version. Its records are those of this check from now on; a version that
is skipped keeps the ones it has. -/
def inMinor (s : Setting ρ) (checksum : String) : Action ρ (List (Record Float)) := do
  let v ← version s checksum
  match ← targetProfiles s v with
  | none => pure []
  | some ps => do
    let cs := candidates s.config.rules ps
    let bs ← baselines s v.checksum cs
    match attemptAll s.config.thresholds bs cs with
    | .error e => throw e
    | .ok records => do
      storeRecords s v.checksum records
      pure records

/-- Checks the head of the history. -/
def inHead (s : Setting ρ) : Action ρ (List (Record Float)) := do
  let checksum ← head s
  inMinor s checksum

/-- Checks the versions of a walk one after the other. -/
def inEach (s : Setting ρ) : List Version → Action ρ (List (Entry Float))
  | [] => pure []
  | v :: rest => do
    note (.visit v.checksum)
    let records ← inMinor s v.checksum
    let entries ← inEach s rest
    pure (records.map (fun r => ⟨v.checksum, r⟩) ++ entries)

/-- Checks every version from one on back to the first, the newest first. -/
def inHistory (s : Setting ρ) (start : String) : Action ρ (List (Entry Float)) := do
  let versions ← walk s start
  inEach s versions

/-! ### Two given profiles -/

/-- Compares two profiles; the findings become the records of a version. -/
def checkProfiles (s : Setting ρ) (baseline target : StoredProfile Float) (version : String)
    (selection : Selection) : Action ρ (List (Record Float)) := do
  match compareProfiles s.config.thresholds baseline.profile target.profile selection with
  | .error e => throw e
  | .ok fs => do
    let records := recordsOf baseline.profile.origin target.path fs
    storeRecords s version records
    pure records

end PerfDrift.Check
