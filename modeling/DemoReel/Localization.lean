import DemoReel.Text.Blank

/-!
# Localized demo text

Demo text is stored as a decimal key.  The keys `0` to `38` name entries of the localized string
table of the game; any other text stands for itself.
-/

namespace DemoReel

/-- The localized strings of one language, by index. -/
abbrev StringTable := List String

/-- Supplies the string table of a given name, if there is one. -/
abbrev StringSource := String → Option StringTable

namespace Localization

/-- Table index of each text key, by key. -/
def textKeyTable : List Nat :=
  [79, 80, 91, 102, 112, 113, 114, 115, 116, 117,
    81, 82, 83, 84, 85, 86, 87, 88, 89, 90,
    92, 93, 94, 95, 96, 97, 98, 99, 100, 101,
    103, 104, 105, 106, 107, 108, 109, 110, 111]

/-- Stands in where a table is shorter than a key demands. -/
def missingString : String := "null"

/-- A number with one more digit behind it, as long as it fits 64 bits. -/
def pushDigit? (n : UInt64) (digit : Char) : Option UInt64 :=
  let next := 10 * n.toNat + (digit.toNat - '0'.toNat)
  if next < UInt64.size then some (.ofNat next) else none

/-- The number at the front of a text: blanks before the digits and anything after them do not
count.  A number that does not fit 64 bits is none. -/
def leadingDecimal? (raw : String) : Option UInt64 :=
  let digits := (raw.toList.dropWhile Text.isBlank).takeWhile Char.isDigit
  if digits.isEmpty then none else digits.foldlM pushDigit? 0

/-- The table index that a raw text key names, if it is one of the known keys. -/
def index? (raw : String) : Option Nat := do
  let key ← leadingDecimal? raw
  textKeyTable[key.toNat]?

/-- The localized string for a raw text key.  Without a table or a known key there is none. -/
def resolve (raw : String) (table : Option StringTable) : Option String := do
  let index ← index? raw
  let strings ← table
  return strings[index]?.getD missingString

end Localization

namespace StringSource

/-- A source with one table, asked for by its name. -/
def single (name : String) (table : StringTable) : StringSource := fun wanted ↦
  if wanted = name then some table else none

end StringSource

end DemoReel
