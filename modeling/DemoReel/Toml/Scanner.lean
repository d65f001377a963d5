/-!
# Taking a document apart

A scanner takes characters off the front of a text, or fails and takes none.  Repetition ends at the
first failure and at the end of the text.
-/

namespace DemoReel.Toml

abbrev Scanner (α : Type) := StateT (List Char) Option α

namespace Scanner

/-- One character of a class. -/
def one (p : Char → Bool) : Scanner Char
  | c :: rest => if p c then some (c, rest) else none
  | [] => none

/-- The characters of a class up to the first that is not in it. -/
def run (p : Char → Bool) : Scanner (List Char) := fun s ↦ some (s.takeWhile p, s.dropWhile p)

def word (w : String) : Scanner Unit := fun s ↦
  if w.toList.isPrefixOf s then some ((), s.drop w.length) else none

/-- Nothing, at the end of the text. -/
def finish : Scanner Unit := do guard (← get).isEmpty

/-- Goes on with `many`, for at most as many passes as `bound` has characters. -/
def collect {α : Type} (p : Scanner α) :
    (bound : List Char) → (found : List α) → Scanner (List α)
  | _ :: bound, found, c :: rest =>
    match p (c :: rest) with
    | none => some (found.reverse, c :: rest)
    | some (a, rest) => collect p bound (a :: found) rest
  | _, found, s => some (found.reverse, s)

/-- Any number of `p`, which has to take something wherever there is text.  There are then no more
passes than the text has characters. -/
def many {α : Type} (p : Scanner α) : Scanner (List α) := fun s ↦ collect p s [] s

/-- Any number of `p`, with a comma between each two. -/
def commaSeparated {α : Type} (p : Scanner α) : Scanner (List α) :=
  (do
    let first ← p
    return first :: (← many (word "," *> p))) <|> pure []

/-! ## Blanks and comments -/

def isBlank (c : Char) : Bool := c = ' ' || c = '\t'

/-- Characters that a comment may hold: the tab and everything that is not a control character. -/
def isPlain (c : Char) : Bool := c = '\t' || (' ' ≤ c && c ≠ '\x7f')

def blanks : Scanner Unit := do let _ ← run isBlank

def newline : Scanner Unit := word "\n" <|> word "\r\n"

def comment : Scanner Unit := do
  word "#"
  let _ ← run isPlain

/-- Blanks, line ends and comments. -/
def gap : Scanner Unit := do
  let _ ← many ((do let _ ← one isBlank) <|> newline <|> comment)

/-- What may follow a statement on its line, up to the next line. -/
def endOfLine : Scanner Unit := do
  blanks
  let _ ← optional comment
  newline <|> finish

end Scanner

end DemoReel.Toml
