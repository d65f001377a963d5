/-!
# Command lines

A command line is a number of options, a command, and what the command takes.  Options start with
two hyphens; a value follows its option as the next word or after an equals sign.  The first thing
that does not fit, or that asks for help, decides.  A value in a word of its own is checked when what
follows is read, and right in front of the command only after all that the command takes: there a
call for help comes before a value that does not fit.
-/

namespace DemoReel.CommandLine

inductive Command where
  /-- Lists the programs of an archive, with a string table read from a file. -/
  | inspect (archive : String) (strings : Option String) (json : Bool)
  /-- Lists where demos take place. -/
  | bindings
deriving DecidableEq, Repr

structure Invocation where
  /-- Settings file to use instead of the user's own. -/
  settings : Option String
  command : Command
deriving DecidableEq, Repr

inductive HelpPage where
  | program
  | inspect
  | bindings
  | help
deriving DecidableEq, Repr

/-- Why a command line runs no command. -/
inductive Refusal where
  | help (page : HelpPage)
  | misuse
deriving DecidableEq, Repr

/-- What may stand on one level of a command line. -/
structure Level where
  page : HelpPage
  /-- Options with a value. -/
  valued : List String := []
  /-- Options without one. -/
  flags : List String := []
  /-- Number of words that are not options. -/
  words : Nat := 0
  /-- Whether a further word starts another level. -/
  opensLevel : Bool := false

/-- What was found on one level. -/
structure Given where
  values : List (String × String) := []
  flags : List String := []
  words : List String := []
  /-- An option and the word behind it, not checked yet. -/
  held : Option (String × String) := none
deriving DecidableEq, Repr

namespace Given

/-- No value is empty, and no option is given twice. -/
def addValue (given : Given) (name value : String) : Except Refusal Given :=
  if value.isEmpty ∨ (given.values.lookup name).isSome then throw .misuse
  else return { given with values := given.values ++ [(name, value)] }

/-- Checks what is held. -/
def settle (given : Given) : Except Refusal Given :=
  match given.held with
  | none => return given
  | some (name, value) => { given with held := none }.addValue name value

def addFlag (given : Given) (name : String) : Except Refusal Given :=
  if name ∈ given.flags then throw .misuse else return { given with flags := name :: given.flags }

def addWord (given : Given) (level : Level) (word : String) : Except Refusal Given :=
  if word.isEmpty ∨ level.words ≤ given.words.length then throw .misuse
  else return { given with words := given.words ++ [word] }

end Given

inductive Argument where
  | word (text : String)
  /-- An option by its name, and the value after its equals sign. -/
  | long (name : String) (attached : Option String)
  /-- A group of one-letter options, by its first letter. -/
  | short (letter : Char)
  /-- After a lone `--` nothing is an option. -/
  | separator
deriving DecidableEq, Repr

def Argument.ofString (s : String) : Argument :=
  match s.toList with
  | ['-', '-'] => .separator
  | '-' :: '-' :: text =>
    let attached := match text.dropWhile (· ≠ '=') with
      | [] => none
      | _ :: value => some (.ofList value)
    .long (.ofList (text.takeWhile (· ≠ '='))) attached
  | '-' :: letter :: _ => .short letter
  | _ => .word s

/-- Reads one level, and leaves what belongs to the next.  An option that still waits for its value
is `pending`. -/
def scan (level : Level) : (given : Given) → (pending : Option String) → List String →
    Except Refusal (Given × List String)
  | given, none, [] => return (← given.settle, [])
  | _, some _, [] => throw .misuse
  | given, some option, arg :: rest =>
    match Argument.ofString arg with
    | .word value => scan level { given with held := some (option, value) } none rest
    | _ => throw .misuse
  | given, none, arg :: rest =>
    match Argument.ofString arg, level.opensLevel with
    | .word _, true => return (given, arg :: rest)
    | argument, _ => do
      let given ← given.settle
      match argument with
      | .word word => scan level (← given.addWord level word) none rest
      | .separator => return (← rest.foldlM (·.addWord level) given, [])
      | .short letter => throw (if letter = 'h' then .help level.page else .misuse)
      | .long "help" none => throw (.help level.page)
      | .long name none =>
        if name ∈ level.valued then scan level given (some name) rest
        else if name ∈ level.flags then scan level (← given.addFlag name) none rest
        else throw .misuse
      | .long name (some value) =>
        if name ∈ level.valued then scan level (← given.addValue name value) none rest
        else throw .misuse

/-- The page that the words after `help` ask for. -/
def helpOn : List String → Refusal
  | [] => .help .program
  | ["inspect"] => .help .inspect
  | ["bindings"] => .help .bindings
  | ["help"] => .help .help
  | _ => .misuse

namespace Invocation

/-- The settings file may be named in front of the command or behind it; the latter has the last
word. -/
def parse (args : List String) : Except Refusal Invocation := do
  let (top, rest) ← scan
    { page := .program, valued := ["config"], opensLevel := true } {} none args
  match rest with
  | "help" :: topics => throw (helpOn topics)
  | "inspect" :: rest =>
    let (given, _) ← scan
      { page := .inspect, valued := ["config", "strings"], flags := ["json"], words := 1 }
      {} none rest
    let [archive] := given.words | throw .misuse
    let top ← top.settle
    return {
      settings := given.values.lookup "config" <|> top.values.lookup "config"
      command := .inspect archive (given.values.lookup "strings") (given.flags.contains "json") }
  | "bindings" :: rest =>
    let (given, _) ← scan { page := .bindings, valued := ["config"] } {} none rest
    let top ← top.settle
    return {
      settings := given.values.lookup "config" <|> top.values.lookup "config"
      command := .bindings }
  | _ => throw .misuse

end Invocation

end DemoReel.CommandLine
