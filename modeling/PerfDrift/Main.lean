import PerfDrift.CommandLine.Session

/-! The program: it reads the files that the arguments name, runs the session and
prints what it says. -/
namespace PerfDrift.CommandLine

/-- What the readers of this program say. They keep no account of where they stop. -/
def plainWording : Wording where
  toml _ := "the text is no TOML document"
  json _ := "the text is no JSON document"
  place _ := (0, 0)
  arguments _ :=
    "Usage: perfguard [--debug] check-profiles [--method <METHOD>] [--minor <MINOR>]\n"
      ++ "           [--config <CONFIG>] [--format <FORMAT>] <BASELINE> <TARGET>\n"
      ++ "       perfguard [--debug] methods\n"

/-- What the system says of an error with a file. -/
def systemReport : IO.Error → String
  | .noFileOrDirectory _ code details | .permissionDenied _ code details
  | .inappropriateType _ code details | .interrupted _ code details
  | .invalidArgument _ code details | .resourceExhausted _ code details
  | .hardwareFault code details | .otherError code details => s!"{details} (os error {code})"
  | e => toString e

/-- The contents of a file. -/
def readText (path : String) : IO (Except FileError String) := do
  try
    let bytes ← IO.FS.readBinFile path
    match String.fromUTF8? bytes with
    | some s => return .ok s
    | none => return .error ⟨"stream did not contain valid UTF-8"⟩
  catch e => return .error ⟨systemReport e⟩

/-- The contents of some files. -/
def readAll : List String → IO (List (String × Except FileError String))
  | [] => return []
  | path :: rest => do
    let content ← readText path
    return (path, content) :: (← readAll rest)

/-- Runs a session with the files its arguments name. -/
def perform (args : List String) : IO UInt32 := do
  let paths := match Invocation.ofArguments args with
    | .ok i => i.command.paths
    | .error _ => []
  let contents ← readAll paths
  -- a session asks for no other files than these
  let files : Files := fun path => (contents.lookup path).getD (.error ⟨"not read"⟩)
  let output := session plainWording files args
  (← IO.getStdout).putStr output.stdout
  (← IO.getStderr).putStr output.stderr
  return output.exit.toUInt32

end PerfDrift.CommandLine

def main (args : List String) : IO UInt32 := PerfDrift.CommandLine.perform args
