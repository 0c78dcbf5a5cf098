import PerfDrift.Finding.Basic

/-! Summaries: how many findings there are of each verdict.

Optimizations are shown as `+` and degradations as `-`, one mark a finding. -/
namespace PerfDrift

/-- The numbers with one more of a verdict, which gets its place if it is new. -/
def countOne (v : Verdict) : List (Verdict × Nat) → List (Verdict × Nat)
  | [] => [(v, 1)]
  | (u, n) :: rest =>
    if v.rank < u.rank then (v, 1) :: (u, n) :: rest
    else if v = u then (u, n + 1) :: rest
    else (u, n) :: countOne v rest

/-- A number of findings for each verdict that occurs, in the order of the verdicts. -/
structure Tally where
  entries : List (Verdict × Nat)
deriving DecidableEq, Repr

namespace Tally

def empty : Tally := ⟨[]⟩

/-- The tally with one more finding of a verdict. -/
def add (t : Tally) (v : Verdict) : Tally := ⟨countOne v t.entries⟩

/-- How often each verdict occurs. -/
def ofVerdicts (vs : List Verdict) : Tally := vs.foldl add empty

def ofFindings {α : Type} (fs : List (Finding α)) : Tally := ofVerdicts (fs.map (·.verdict))

/-- The findings whose verdict is of a kind. -/
def total (t : Tally) (kind : Verdict → Bool) : Nat :=
  ((t.entries.filter fun e => kind e.1).map (·.2)).foldl (· + ·) 0

def optimizations (t : Tally) : Nat := t.total Verdict.isOptimization

def degradations (t : Tally) : Nat := t.total Verdict.isDegradation

/-- A `+` for each optimization, then a `-` for each degradation. -/
def markers (t : Tally) : String :=
  String.ofList (List.replicate t.optimizations '+' ++ List.replicate t.degradations '-')

/-- A number and the noun it counts. -/
def counted (n : Nat) (noun : String) : String :=
  toString n ++ " " ++ noun ++ (if n = 1 then "" else "s")

/-- The marks and the numbers on one line. -/
def summary (t : Tally) : String :=
  if t.optimizations + t.degradations = 0 then "no changes"
  else
    t.markers ++ " " ++ counted t.optimizations "optimization" ++ ", "
      ++ counted t.degradations "degradation"

end Tally

/-- Counts a verdict for a target, which gets a group of its own at the end if it has none. -/
def countFor (target : String) (v : Verdict) : List (String × Tally) → List (String × Tally)
  | [] => [(target, Tally.empty.add v)]
  | (t, tally) :: rest =>
    if t = target then (t, tally.add v) :: rest else (t, tally) :: countFor target v rest

/-- How many findings of each verdict there are for each target, the targets in the order they
first occur in. -/
def tallyByTarget {α : Type} (entries : List (Entry α)) : List (String × Tally) :=
  entries.foldl (fun groups e => countFor e.target e.record.finding.verdict groups) []

end PerfDrift
