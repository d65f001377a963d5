import DemoReel.Text.Quoted

/-!
# JSON documents

Structured output with the fields of an object in the order given, written over several lines with
an indent of two spaces.  Empty lists and objects stay on one line.
-/

namespace DemoReel

inductive JsonValue where
  | null
  | number (n : Nat)
  | text (text : String)
  | list (items : List JsonValue)
  | object (fields : List (String × JsonValue))

namespace JsonValue

/-- Only the quote, the backslash and control characters below `U+0020` are escaped. -/
def escape (c : Char) : List Char :=
  match c with
  | '"' => ['\\', '"']
  | '\\' => ['\\', '\\']
  | '\x08' => ['\\', 'b']
  | '\x0c' => ['\\', 'f']
  | '\n' => ['\\', 'n']
  | '\r' => ['\\', 'r']
  | '\t' => ['\\', 't']
  | c =>
    if c.toNat < 0x20 then
      ['\\', 'u', '0', '0', Nat.digitChar (c.toNat / 16), Nat.digitChar (c.toNat % 16)]
    else [c]

def quote (text : String) : String :=
  String.ofList ('"' :: text.toList.flatMap escape ++ ['"'])

/-- The start of a line at this depth. -/
def newline (depth : Nat) : String := "\n" ++ "".pushn ' ' (2 * depth)

mutual

/-- The document as text, where its first line stands at `depth`. -/
def pretty (depth : Nat) : JsonValue → String
  | null => "null"
  | number n => toString n
  | text t => quote t
  | list [] => "[]"
  | list (item :: items) =>
    "[" ++ newline (depth + 1) ++ pretty (depth + 1) item ++ prettyItems (depth + 1) items ++
      newline depth ++ "]"
  | object [] => "\x7b\x7d"
  | object (field :: fields) =>
    "\x7b" ++ newline (depth + 1) ++ prettyField (depth + 1) field ++
      prettyFields (depth + 1) fields ++ newline depth ++ "\x7d"

def prettyField (depth : Nat) : String × JsonValue → String
  | (name, value) => quote name ++ ": " ++ pretty depth value

/-- The items after the first. -/
def prettyItems (depth : Nat) : List JsonValue → String
  | [] => ""
  | item :: items => "," ++ newline depth ++ pretty depth item ++ prettyItems depth items

/-- The fields after the first. -/
def prettyFields (depth : Nat) : List (String × JsonValue) → String
  | [] => ""
  | field :: fields => "," ++ newline depth ++ prettyField depth field ++ prettyFields depth fields

end

end JsonValue

end DemoReel
