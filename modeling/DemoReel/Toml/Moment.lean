import DemoReel.Toml.Quoted

/-!
# Dates and times

A date of the calendar, a time of day, or both.  They are checked, and their values dropped.
-/

namespace DemoReel.Toml.Scanner

def isLeap (year : Nat) : Bool := 4 ∣ year && (!(100 ∣ year) || 400 ∣ year)

def daysOfMonth (year month : Nat) : Nat :=
  if month = 2 then if isLeap year then 29 else 28
  else if month ∈ [4, 6, 9, 11] then 30
  else 31

def date : Scanner Unit := do
  let year ← fixedDigits 10 4
  word "-"
  let month ← fixedDigits 10 2
  word "-"
  let day ← fixedDigits 10 2
  guard (1 ≤ month ∧ month ≤ 12 ∧ 1 ≤ day ∧ day ≤ daysOfMonth year month)

/-- Two digits up to a bound. -/
def upTo (greatest : Nat) : Scanner Unit := do guard ((← fixedDigits 10 2) ≤ greatest)

/-- A time of day.  The sixtieth second is there for leap seconds. -/
def timeOfDay : Scanner Unit := do
  upTo 23
  word ":"
  upTo 59
  word ":"
  upTo 60
  let _ ← optional (word "." *> digit 10 *> run Char.isDigit)

def zone : Scanner Unit := do
  if (← one ['Z', 'z', '+', '-'].contains) ∈ ['+', '-'] then
    upTo 23
    word ":"
    upTo 59

def moment : Scanner Unit :=
  (do
    date
    let _ ← optional (one ['T', 't', ' '].contains *> timeOfDay *> optional zone)) <|>
  timeOfDay

end DemoReel.Toml.Scanner
