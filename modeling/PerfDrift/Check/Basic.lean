import PerfDrift.Collection
import PerfDrift.Config.Basic

/-! Checks and what they work with.

A check asks a history, a store and a runner, and remembers the profiles of the
versions it has looked at. What it can change is the `World`; what it cannot is the
`Setting`. Any request may be refused, and a check ends at the first refusal. -/
namespace PerfDrift.Check

/-- Something a check asks for, by version. -/
inductive Request where
  /-- The profiles of a version. -/
  | load (version : String)
  /-- The records of a version to be replaced. -/
  | store (version : String)
  /-- The profiles of a version to be collected. -/
  | collect (version : String)
  /-- The next version of a walk. -/
  | visit (version : String)
deriving DecidableEq, Repr

/-- The requests that are refused, with the reason. -/
structure Faults where
  loadProfiles : KeyMap StoreError
  loadRecords : KeyMap StoreError
  storeRecords : KeyMap StoreError
  head : Option HistoryError
  walk : KeyMap HistoryError
  version : KeyMap HistoryError

def Faults.none : Faults := ⟨.empty, .empty, .empty, Option.none, .empty, .empty⟩

/-- What a check works with and does not change. -/
structure Setting (ρ : Type) where
  history : History
  faults : Faults
  runner : Runner ρ
  config : Config

/-- What a check changes; `requests` are those made so far. -/
structure World (ρ : Type) where
  store : Store
  cache : ProfileCache
  runner : ρ
  requests : List Request

/-- A check, which fails or gives a result, and changes the world either way. -/
abbrev Action (ρ : Type) := ExceptT Failure (StateM (World ρ))

variable {ρ : Type}

/-- The result of an action and the world after it. -/
def Action.perform {α : Type} (a : Action ρ α) (w : World ρ) : Except Failure α × World ρ :=
  (ExceptT.run a).run w

/-- Notes a request. -/
def note (r : Request) : Action ρ Unit :=
  modify fun w => {w with requests := w.requests ++ [r]}

/-- Stops when there is a reason to. -/
def refuse {ε : Type} (wrap : ε → Failure) : Option ε → Action ρ Unit
  | none => pure ()
  | some e => throw (wrap e)

/-! ### The history -/

/-- What the history answered. -/
def answer {α : Type} : Except HistoryError α → Action ρ α
  | .ok x => pure x
  | .error e => throw (.history e)

def version (s : Setting ρ) (checksum : String) : Action ρ Version := do
  refuse .history (s.faults.version.get? checksum)
  answer (s.history.version checksum)

def head (s : Setting ρ) : Action ρ String := do
  refuse .history s.faults.head
  answer s.history.headVersion

/-- The first `n` versions of a walk. They are visited one by one, by whoever goes
through them. -/
def walkWithin (s : Setting ρ) (n : Nat) (start : String) : Action ρ (List Version) := do
  refuse .history (s.faults.walk.get? start)
  answer (s.history.walkWithin n start)

def walk (s : Setting ρ) (start : String) : Action ρ (List Version) :=
  walkWithin s s.history.versions.size start

/-! ### The store, the cache and the runner -/

def loadProfiles (s : Setting ρ) (version : String) : Action ρ (List (StoredProfile Float)) := do
  note (.load version)
  refuse .store (s.faults.loadProfiles.get? version)
  return (← get).store.profilesOf version

def loadRecords (s : Setting ρ) (version : String) : Action ρ (List (Record Float)) := do
  refuse .store (s.faults.loadRecords.get? version)
  return (← get).store.recordsOf version

def storeRecords (s : Setting ρ) (version : String) (rs : List (Record Float)) :
    Action ρ Unit := do
  note (.store version)
  refuse .store (s.faults.storeRecords.get? version)
  modify fun w => {w with store := w.store.putRecords version rs}

/-- Keeps the profiles of a version in the cache. -/
def remember (version : String) (ps : List (StoredProfile Float)) : Action ρ Unit :=
  modify fun w => {w with cache := w.cache.insert version ps}

/-- Empties the cache. -/
def forget : Action ρ Unit := modify fun w => {w with cache := .empty}

/-- The profiles of a version, from the cache if they are there. -/
def recallOrLoad (s : Setting ρ) (version : String) : Action ρ (List (StoredProfile Float)) := do
  match (← get).cache.get? version with
  | some ps => pure ps
  | none => loadProfiles s version

/-- Has profiles of a version collected; says whether that came to an end. -/
def collect (s : Setting ρ) (v : Version) : Action ρ (Except CollectionError Unit) := do
  note (.collect v.checksum)
  modifyGet fun w =>
    let (result, store, runner) := s.runner.collect v w.store w.runner
    (result, {w with store, runner})

end PerfDrift.Check
