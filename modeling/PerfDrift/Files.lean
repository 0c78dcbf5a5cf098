import PerfDrift.Config.Resolve
import PerfDrift.Json.Decode
import PerfDrift.Profile.Document

/-! Profiles and configurations in files. -/
namespace PerfDrift

/-- The profile in a JSON text. -/
def Profile.ofJson (s : String) : Except ProfileError (Profile Float) :=
  (Json.decode Profile.decode s).mapError (.undecodable s)

/-- The contents of files by path. -/
abbrev Files := String → Except FileError String

/-- The profile in a file. -/
def Profile.load (files : Files) (path : String) : Except Failure (Profile Float) :=
  ((files path).mapError ProfileError.unreadable >>= Profile.ofJson).mapError fun e =>
    .profile (.inFile path e)

/-- The configuration in a file. -/
def Config.load (files : Files) (path : String) : Except Failure Config :=
  match files path with
  | .ok s => Config.ofToml s
  | .error e => .error (.configuration (.unreadable path e))

end PerfDrift
