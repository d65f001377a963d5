import DemoReel.CommandLine.Run

/-!
# The program

Connects the command line to the file system, the standard streams and the exit code.
-/

namespace DemoReel.CommandLine

def readFile (path : String) : IO (Except ReadFailure (List UInt8)) := do
  try return .ok (← IO.FS.readBinFile path).toList
  catch
    | .noFileOrDirectory .. => return .error .missing
    | .inappropriateType _ 21 _ => return .error .directory
    | e => return .error (.other (toString e))

/-- The file system, seen by a user whose files are kept in `directory`. -/
def fileSystem (directory : String) : Host IO where
  read := readFile
  write path contents := do
    try
      IO.FS.createDirAll directory
      IO.FS.writeFile path contents
    catch _ => return
  settingsPath := directory ++ "/config.toml"

end DemoReel.CommandLine

def main (args : List String) : IO UInt32 := do
  let directory := match ← IO.getEnv "HOME" with
    | some home => home ++ "/.rush-demo"
    | none => ".rush-demo"
  let outcome ← DemoReel.CommandLine.run (DemoReel.CommandLine.fileSystem directory) args
  IO.print outcome.stdout
  IO.eprint outcome.stderr
  return outcome.code
