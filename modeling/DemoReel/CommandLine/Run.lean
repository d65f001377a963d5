import DemoReel.CommandLine.Help
import DemoReel.Report.Document
import DemoReel.Report.Listing
import DemoReel.Settings.Document
import DemoReel.Settings.Example
import DemoReel.Text.Lines

/-!
# Running a command

A run reads files and may write one: the user's settings file, which is made on first use.  A host
supplies both, so that a run is a function wherever its host is one.
-/

namespace DemoReel.CommandLine

inductive ReadFailure where
  | missing
  | directory
  | other (description : String)
deriving DecidableEq, Repr

def ReadFailure.message : ReadFailure → String
  | missing => "No such file or directory (os error 2)"
  | directory => "Is a directory (os error 21)"
  | other description => description

/-- The files that a run sees. -/
structure Host (m : Type → Type) where
  read : String → m (Except ReadFailure (List UInt8))
  /-- Writes a file if that can be done. -/
  write : String → String → m Unit
  /-- Path of the user's own settings file. -/
  settingsPath : String

/-- Why a command fails. -/
inductive Failure where
  | unreadableSettings (cause : ReadFailure)
  | invalidSettings
  | unreadableArchive (name : String) (cause : ReadFailure)
  | malformedArchive (name : String) (cause : DecodeError)
deriving DecidableEq, Repr

def Failure.message : Failure → String
  | unreadableSettings cause => s!"Error: {cause.message}\n"
  | invalidSettings => "Error: invalid config file\n"
  | unreadableArchive name cause =>
    s!"Error: Failed to read {name}\n\nCaused by:\n    {cause.message}\n"
  | malformedArchive name cause =>
    s!"Error: Failed to decode {name}\n\nCaused by:\n    {cause.message}\n"

structure Outcome where
  code : UInt32
  stdout : String := ""
  stderr : String := ""
deriving DecidableEq, Repr

variable {m : Type → Type} [Monad m]

def settingsOfBytes? (contents : List UInt8) : Option Settings := do
  Settings.ofToml? (← (Utf8.decode contents).toOption)

/-- The settings of a file that was asked for.  It has to be there and in order. -/
def Host.namedSettings (host : Host m) (path : String) : ExceptT Failure m Settings := do
  match ← host.read path with
  | .error cause => throw (.unreadableSettings cause)
  | .ok contents =>
    let some settings := settingsOfBytes? contents | throw .invalidSettings
    return settings

/-- The settings of the user's own file.  A missing one is made, and says no more than the defaults;
one that is out of order is ignored. -/
def Host.usualSettings (host : Host m) : m Settings := do
  match ← host.read host.settingsPath with
  | .error .missing =>
    host.write host.settingsPath Settings.exampleText
    return {}
  | .error _ => return {}
  | .ok contents => return (settingsOfBytes? contents).getD {}

/-- A string table from a file, whatever name it is asked for by. -/
def Host.strings (host : Host m) (path : String) : m StringSource := do
  match ← host.read path with
  | .error _ => return fun _ ↦ none
  | .ok contents => return fun _ ↦ Text.linesOfBytes? contents

/-- What a command prints. -/
def Command.output (host : Host m) (settings : Settings) : Command → ExceptT Failure m String
  | bindings => return ofLines settings.worldBindings.listingLines
  | inspect archive strings json => do
    let contents ← match ← host.read archive with
      | .error cause => throw (.unreadableArchive archive cause)
      | .ok contents => pure contents
    let source ← match strings with
      | some path => host.strings path
      | none => pure fun _ ↦ none
    match Archive.load settings.decode source settings.localizationTable contents with
    | .error cause => throw (.malformedArchive archive cause)
    | .ok decoded =>
      return if json then decoded.document.pretty 0 ++ "\n"
      else ofLines (decoded.listingLines settings.worldBindings)

def Invocation.output (host : Host m) (invocation : Invocation) : ExceptT Failure m String := do
  let settings ← match invocation.settings with
    | some path => host.namedSettings path
    | none => host.usualSettings
  invocation.command.output host settings

/-- Runs a command line.  Arguments are understood before any file is touched. -/
def run (host : Host m) (args : List String) : m Outcome :=
  match Invocation.parse args with
  | .error (.help page) => return { code := 0, stdout := page.text }
  | .error .misuse => return { code := 2, stderr := usageHint }
  | .ok invocation => do
    match ← (invocation.output host).run with
    | .ok stdout => return { code := 0, stdout }
    | .error failure => return { code := 1, stderr := failure.message }

end DemoReel.CommandLine
