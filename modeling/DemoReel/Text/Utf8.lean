/-!
# UTF-8 text in a byte string

A byte string splits into whole characters and ill-formed stretches.  The machine below reads one
byte at a time; an ill-formed stretch ends where the next byte cannot continue the character begun,
so each stretch is as long as possible and at most three bytes.  Strict decoding reports the first
stretch, lenient decoding puts one replacement character in its place.
-/

namespace DemoReel.Utf8

/-- One stretch of a byte string read as UTF-8. -/
inductive Piece where
  | char (c : Char)
  /-- These many bytes begin no character. -/
  | illFormed (width : Nat)
  /-- The input ends inside a character. -/
  | incomplete
deriving DecidableEq, Repr

/-- A character under way: the bytes it still needs, the range of the next one, the code point
collected so far and the bytes already seen. -/
structure Pending where
  owed : Nat
  low : Nat
  high : Nat
  value : Nat
  seen : Nat
deriving DecidableEq, Repr

/-- Between characters there is nothing pending. -/
abbrev State := Option Pending

/-- What a byte does between characters.  The narrowed second ranges exclude overlong forms,
surrogates and code points above `U+10FFFF`. -/
def lead (b : Nat) : List Piece × State :=
  if b < 0x80 then ([.char (Char.ofNat b)], none)
  else if b < 0xC2 then ([.illFormed 1], none)
  else if b < 0xE0 then ([], some ⟨1, 0x80, 0xBF, b - 0xC0, 1⟩)
  else if b = 0xE0 then ([], some ⟨2, 0xA0, 0xBF, 0, 1⟩)
  else if b = 0xED then ([], some ⟨2, 0x80, 0x9F, 0xD, 1⟩)
  else if b < 0xF0 then ([], some ⟨2, 0x80, 0xBF, b - 0xE0, 1⟩)
  else if b = 0xF0 then ([], some ⟨3, 0x90, 0xBF, 0, 1⟩)
  else if b < 0xF4 then ([], some ⟨3, 0x80, 0xBF, b - 0xF0, 1⟩)
  else if b = 0xF4 then ([], some ⟨3, 0x80, 0x8F, 4, 1⟩)
  else ([.illFormed 1], none)

/-- One byte: the stretches it completes and the state after it. -/
def step : State → Nat → List Piece × State
  | none, b => lead b
  | some p, b =>
    if p.low ≤ b ∧ b ≤ p.high then
      let value := p.value * 64 + (b - 0x80)
      if p.owed ≤ 1 then ([.char (Char.ofNat value)], none)
      else ([], some ⟨p.owed - 1, 0x80, 0xBF, value, p.seen + 1⟩)
    else
      -- the byte that breaks a character off may begin the next one
      let (done, state) := lead b
      (.illFormed p.seen :: done, state)

def run : State → List UInt8 → List Piece
  | none, [] => []
  | some _, [] => [.incomplete]
  | state, b :: bs => (step state b.toNat).1 ++ run (step state b.toNat).2 bs

/-- The stretches of a byte string, in order. -/
def pieces (bytes : List UInt8) : List Piece := run none bytes

/-- Where a byte string stops being UTF-8. -/
structure Fault where
  /-- Bytes of whole characters before the first ill-formed stretch. -/
  validLength : Nat
  /-- Length of that stretch, or `none` where the input ends inside a character. -/
  width : Option Nat
deriving DecidableEq, Repr

def Fault.message (fault : Fault) : String :=
  match fault.width with
  | some width => s!"invalid utf-8 sequence of {width} bytes from index {fault.validLength}"
  | none => s!"incomplete utf-8 byte sequence from index {fault.validLength}"

/-- The first stretch that is no character, with `before` bytes in front of the list. -/
def firstFault (before : Nat) : List Piece → Option Fault
  | [] => none
  | .char c :: rest => firstFault (before + c.utf8Size) rest
  | .illFormed width :: _ => some ⟨before, some width⟩
  | .incomplete :: _ => some ⟨before, none⟩

def Piece.toChar : Piece → Char
  | .char c => c
  | .illFormed _ | .incomplete => '\uFFFD'

/-- Every ill-formed stretch becomes one `U+FFFD`. -/
def decodeLossy (bytes : List UInt8) : String :=
  String.ofList ((pieces bytes).map Piece.toChar)

def decode (bytes : List UInt8) : Except Fault String :=
  match firstFault 0 (pieces bytes) with
  | some fault => .error fault
  | none => .ok (decodeLossy bytes)

def encode (text : String) : List UInt8 := text.toList.flatMap String.utf8EncodeChar

end DemoReel.Utf8
