import PerfDrift.Document.Error
import PerfDrift.Thresholds

/-! Why a request fails, and the wording of each cause.

Parts of a message are in the words of the system and of the readers of documents. Those of
the system come with its error; those of the readers are a `Wording`. -/
namespace PerfDrift

/-- What the readers of documents say. -/
structure Wording where
  /-- The report on a text that is no TOML. -/
  toml : String → String
  /-- What is wrong with a text that is no JSON. -/
  json : String → String
  /-- The line and the column where a JSON text is read no further. -/
  place : String → Nat × Nat

/-- Why a file cannot be read as text, in the words of the system. -/
structure FileError where
  report : String
deriving DecidableEq, Repr

def ThresholdError.message : ThresholdError Float → String
  | .negative name x => name ++ " must be a non-negative number, got " ++ Layout.plain.text x
  | .outsideUnit name x => name ++ " must be in [0, 1], got " ++ Layout.plain.text x

/-- What is wrong with a configuration. -/
inductive ConfigError where
  | unreadable (path : String) (cause : FileError)
  | notToml (text : String)
  | unknownPolicy (name : String)
  /-- A value under a key is of another type than expected. -/
  | wrongType (key expected found : String)
  | notFlag (text : String)
  | ruleNotTable (found : String)
  | ruleWithoutMethod
  | invalidRule (cause : DecodeError)
  | invalidThresholds (cause : DecodeError)
  | badThreshold (cause : ThresholdError Float)
deriving DecidableEq

def ConfigError.message (w : Wording) : ConfigError → String
  | .unreadable path cause => "failed to read " ++ path ++ ": " ++ cause.report
  | .notToml text => "invalid TOML: " ++ w.toml text
  | .unknownPolicy name => "unknown apply policy '" ++ name ++ "' (expected 'first' or 'all')"
  | .wrongType key expected found => key ++ " must be " ++ expected ++ ", got " ++ found
  | .notFlag text => "degradation.collect_before_check: '" ++ text ++ "' is not a boolean"
  | .ruleNotTable found => "degradation rule must be a table, got " ++ found
  | .ruleWithoutMethod => "degradation rule without 'method'"
  | .invalidRule cause => "invalid degradation rule: " ++ cause.configMessage
  | .invalidThresholds cause => "degradation.thresholds: " ++ cause.configMessage
  | .badThreshold cause => cause.message

/-- What is wrong with a profile. -/
inductive ProfileError where
  | unreadable (cause : FileError)
  /-- A text is not that of a profile. -/
  | undecodable (text : String) (cause : DecodeError)
  /-- Something is wrong with the profile in a file. -/
  | inFile (path : String) (cause : ProfileError)
deriving DecidableEq

def ProfileError.message (w : Wording) : ProfileError → String
  | .unreadable cause => cause.report
  | .undecodable text cause => cause.jsonMessage (w.json text) (w.place text)
  | .inFile path cause => path ++ ": " ++ cause.message w

/-- Why a collection did not produce profiles. -/
inductive CollectionError where
  | cancelled
  | failed (reason : String)
  | locked (resource : String)
deriving DecidableEq, Repr

def CollectionError.message : CollectionError → String
  | .cancelled => "collection cancelled by operator"
  | .failed reason => "collection failed: " ++ reason
  | .locked resource => "resource locked: " ++ resource

/-- Why the store did not answer. -/
inductive StoreError where
  | io (reason : String)
  | corrupt (reason : String)
deriving DecidableEq, Repr

def StoreError.message : StoreError → String
  | .io reason => "store io error: " ++ reason
  | .corrupt reason => "store data is corrupted: " ++ reason

/-- Why the history did not answer. -/
inductive HistoryError where
  | unknownVersion (version : String)
  | backend (reason : String)
deriving DecidableEq, Repr

def HistoryError.message : HistoryError → String
  | .unknownVersion version => "unknown minor version '" ++ version ++ "'"
  | .backend reason => "history backend error: " ++ reason

/-- Why a request fails. -/
inductive Failure where
  | configuration (cause : ConfigError)
  /-- The profiles are of different collectors or went through different steps. -/
  | incompatible (baseline target : String)
  | unknownMethod (text : String)
  | aborted (cause : CollectionError)
  | profile (cause : ProfileError)
  | store (cause : StoreError)
  | history (cause : HistoryError)
deriving DecidableEq

def Failure.message (w : Wording) : Failure → String
  | .configuration cause => "invalid degradation configuration: " ++ cause.message w
  | .incompatible baseline target =>
    "incompatible configurations: cannot compare profile of '" ++ baseline
      ++ "' with profile of '" ++ target ++ "'"
  | .unknownMethod text => "unknown degradation method '" ++ text ++ "'"
  | .aborted cause => "collection aborted: " ++ cause.message
  | .profile cause => "failed to load profile: " ++ cause.message w
  | .store cause => cause.message
  | .history cause => cause.message

end PerfDrift
