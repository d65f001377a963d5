import DemoReel.Toml.Moment
import DemoReel.Toml.Node
import DemoReel.Toml.Numeral

/-!
# Values and keys

Lists and tables between braces nest to a fixed depth; beyond it a value is refused.
-/

namespace DemoReel.Toml

/-- A key, dotted or not: the tables on the way, and the name in the last of them. -/
structure Key where
  parents : List String
  name : String
deriving DecidableEq, Repr

namespace Scanner

/-- No key has this many parts. -/
def keyLimit : Nat := 80

/-- How deeply lists and tables between braces nest. -/
def depthLimit : Nat := 79

def bareKey : Scanner String := do
  let name ← run fun c ↦ c.isAlphanum || c = '_' || c = '-'
  guard !name.isEmpty
  return .ofList name

def keyPart : Scanner String := do
  blanks
  let name ← quotedLine <|> bareKey
  blanks
  return name

def key : Scanner Key := do
  let first ← keyPart
  let more ← many (word "." *> keyPart)
  guard (more.length + 1 < keyLimit)
  return ⟨(first :: more).dropLast, more.getLastD first⟩

/-- A key with its value, where `value` reads values. -/
def assignment (value : Scanner Node) : Scanner (Key × Node) := do
  let key ← key
  word "="
  blanks
  return (key, ← value)

def scalar : Scanner Node :=
  (do return .text (← quoted)) <|>
  (word "true" *> pure (.boolean true)) <|>
  (word "false" *> pure (.boolean false)) <|>
  (moment *> pure .moment) <|>
  (float *> pure .float) <|>
  (do return .integer (← integer))

/-- A list.  It may run over several lines, and may have a comma after its last item. -/
def array (value : Scanner Node) : Scanner Node := do
  word "["
  let items ← commaSeparated do
    gap
    let item ← value
    gap
    return item
  if !items.isEmpty then
    let _ ← optional (word ",")
  gap
  word "]"
  return .array items

/-- A table between braces. -/
def inlineTable (value : Scanner Node) : Scanner Node := do
  word "\x7b"
  let assignments ← commaSeparated do
    let assignment ← assignment value
    blanks
    return assignment
  blanks
  word "\x7d"
  let entries ← assignments.foldlM
    (fun entries (key, node) ↦ Entries.assign key.parents key.name node .inline entries) []
  return .table .inline entries

/-- A value whose lists and tables nest at most `depth` deep. -/
def value : (depth : Nat) → Scanner Node
  | 0 => scalar
  | depth + 1 => scalar <|> array (value depth) <|> inlineTable (value depth)

end Scanner

end DemoReel.Toml
