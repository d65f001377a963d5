import DemoReel.Toml.Scanner

/-!
# Quoted text

Text between double quotes knows escapes, text between single quotes does not; between triple quotes
either may hold line ends and one or two quotes in a row.
-/

namespace DemoReel.Toml.Scanner

/-- The value of a digit, at most sixteen of them. -/
def digit (base : Nat) : Scanner Nat := do
  let c ← one Char.isAlphanum
  let value :=
    if c.isDigit then c.toNat - '0'.toNat
    else if c.isLower then c.toNat - 'a'.toNat + 10
    else c.toNat - 'A'.toNat + 10
  guard (value < base)
  return value

/-- A number of exactly `n` digits. -/
def fixedDigits (base n : Nat) : Scanner Nat := do
  let digits ← (List.replicate n (digit base)).mapM id
  return digits.foldl (· * base + ·) 0

/-- A character by its code, which must be that of a character. -/
def codePoint (n : Nat) : Scanner Char := do
  let code ← fixedDigits 16 n
  guard code.isValidChar
  return .ofNat code

def escape : Scanner Char := do
  word "\\"
  match ← one fun _ ↦ true with
  | 'b' => return '\x08'
  | 't' => return '\t'
  | 'n' => return '\n'
  | 'f' => return '\x0c'
  | 'r' => return '\r'
  | '"' => return '"'
  | '\\' => return '\\'
  | 'u' => codePoint 4
  | 'U' => codePoint 8
  | _ => failure

/-- Characters that stand for themselves, at least one. -/
def verbatim (p : Char → Bool) : Scanner (List Char) := do
  let text ← run fun c ↦ isPlain c && p c
  guard !text.isEmpty
  return text

def isBasic (c : Char) : Bool := c ≠ '"' && c ≠ '\\'

def isLiteral (c : Char) : Bool := c ≠ '\''

/-- A stretch of text between double quotes. -/
def basicPiece : Scanner (List Char) := verbatim isBasic <|> (do return [← escape])

/-- A line end inside a text is one character, however it is written. -/
def lineEndPiece : Scanner (List Char) := do
  newline
  return ['\n']

/-- A backslash at the end of a line takes everything blank that follows along with it. -/
def continuedLine : Scanner (List Char) := do
  word "\\"
  blanks
  newline
  let _ ← many ((do let _ ← one isBlank) <|> newline)
  return []

/-- One or two quotes that belong to the text. -/
def looseQuotes (quote : Char) : Scanner (List Char) := do
  let quotes ← run (· = quote)
  guard (0 < quotes.length ∧ quotes.length < 3)
  return quotes

/-- The three closing quotes.  Up to two more in front of them belong to the text. -/
def closingQuotes (quote : Char) : Scanner (List Char) := fun s ↦
  let quotes := s.takeWhile (· = quote)
  let loose := min (quotes.length - 3) 2
  if quotes.length < 3 then none else some (quotes.take loose, s.drop (loose + 3))

/-- The inside and the end of a text between triple quotes.  A line end at its start is dropped. -/
def tripleQuoted (quote : Char) (piece : Scanner (List Char)) : Scanner String := do
  let _ ← optional newline
  let pieces ← many (piece <|> looseQuotes quote)
  return .ofList (pieces.flatten ++ (← closingQuotes quote))

/-- A text on one line, as keys may be. -/
def quotedLine : Scanner String :=
  (do
    word "\""
    let pieces ← many basicPiece
    word "\""
    return .ofList pieces.flatten) <|>
  (do
    word "'"
    let text ← run fun c ↦ isPlain c && isLiteral c
    word "'"
    return .ofList text)

def quoted : Scanner String :=
  (do
    word "\"\"\""
    tripleQuoted '"' (verbatim isBasic <|> continuedLine <|> basicPiece <|> lineEndPiece)) <|>
  (do
    word "'''"
    tripleQuoted '\'' (verbatim isLiteral <|> lineEndPiece)) <|>
  quotedLine

end DemoReel.Toml.Scanner
