import DemoReel.Toml.Quoted

/-!
# Numbers

Integers have 64 bits.  A float is only checked: it is refused where rounding would take it beyond
the greatest finite binary64 number, while one that lies equally far below zero passes.
-/

namespace DemoReel.Toml.Scanner

def natOfDigits (base : Nat) (digits : List Nat) : Nat := digits.foldl (· * base + ·) 0

/-- Further digits, each with at most one underscore in front of it. -/
def moreDigits (base : Nat) : Scanner (List Nat) := many (optional (word "_") *> digit base)

def digits (base : Nat) : Scanner (List Nat) := do return (← digit base) :: (← moreDigits base)

/-- Decimal digits without a leading zero. -/
def wholeDigits : Scanner (List Nat) := do
  let first ← digit 10
  if first = 0 then return [0] else return first :: (← moreDigits 10)

/-- Whether there is a minus in front; a plus says nothing. -/
def minus : Scanner Bool := (word "-" *> pure true) <|> (word "+" *> pure false) <|> pure false

def based (mark : String) (base : Nat) : Scanner Int := do
  word mark
  return natOfDigits base (← digits base)

def decimal : Scanner Int := do
  let negative ← minus
  let value : Int := natOfDigits 10 (← wholeDigits)
  return if negative then -value else value

def integer : Scanner Int := do
  let value ← based "0x" 16 <|> based "0o" 8 <|> based "0b" 2 <|> decimal
  guard (Int64.minValue.toInt ≤ value ∧ value ≤ Int64.maxValue.toInt)
  return value

/-- Whether `digits · 10 ^ exponent` is no longer nearest to a finite binary64 number: it reaches
the midpoint between the greatest of them and `2 ^ 1024`. -/
def overflows (digits : List Nat) (exponent : Int) : Bool :=
  let significant := digits.dropWhile (· = 0)
  let magnitude := significant.length + exponent
  let midpoint := ((1 <<< 54) - 1) <<< 970
  significant ≠ [] && (309 < magnitude || (magnitude = 309 &&
    midpoint * Nat.pow 10 (-exponent).toNat ≤
      natOfDigits 10 significant * Nat.pow 10 exponent.toNat))

def fraction : Scanner (List Nat) := do
  word "."
  digits 10

def exponent : Scanner Int := do
  let _ ← one fun c ↦ c = 'e' || c = 'E'
  let negative ← minus
  let value : Int := natOfDigits 10 (← digits 10)
  return if negative then -value else value

/-- A decimal number with a fraction, an exponent or both. -/
def decimalFloat : Scanner Unit := do
  let negative ← minus
  let whole ← wholeDigits
  let fraction ← optional fraction
  let exponent ← optional exponent
  guard (fraction.isSome ∨ exponent.isSome)
  let decimals := fraction.getD []
  guard (negative ∨ !overflows (whole ++ decimals) (exponent.getD 0 - decimals.length))

def specialFloat : Scanner Unit := do
  let _ ← minus
  word "inf" <|> word "nan"

def float : Scanner Unit := decimalFloat <|> specialFloat

end DemoReel.Toml.Scanner
