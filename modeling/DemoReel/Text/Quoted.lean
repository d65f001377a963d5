import DemoReel.Text.Printable

/-!
# Quoted text

Text between double quotes.  The quote, the backslash, line breaks, tabs and the null character
have short escapes; every other character that does not stand for itself is written by its code
point.
-/

namespace DemoReel.Text

/-- The lowercase hexadecimal digits of a number. -/
def hexDigits (n : Nat) : List Char := Nat.toDigits 16 n

def escapeQuoted (c : Char) : List Char :=
  match c with
  | '"' => ['\\', '"']
  | '\\' => ['\\', '\\']
  | '\n' => ['\\', 'n']
  | '\r' => ['\\', 'r']
  | '\t' => ['\\', 't']
  | '\x00' => ['\\', '0']
  | c => if isPlain c then [c] else ['\\', 'u', '\x7b'] ++ hexDigits c.toNat ++ ['\x7d']

def quoted (text : String) : String :=
  String.ofList ('"' :: text.toList.flatMap escapeQuoted ++ ['"'])

/-- Text that may be absent. -/
def quotedOption : Option String → String
  | none => "None"
  | some text => s!"Some({quoted text})"

end DemoReel.Text
