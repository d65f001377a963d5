import DemoReel.Bytes.Reader

/-!
# Reads as data

A read written down as a request, so that a whole sequence of them can be carried out on one reader.
That reader outlives a request that fails, and the next one starts from it: so a request that fails
has to leave it where it was.
-/

namespace DemoReel.ByteReader

/-- A read on a reader that outlives it: what was taken stays taken, also where the read fails. -/
abbrev InPlace (α : Type) := ExceptT DecodeError (StateM ByteReader) α

namespace InPlace

def take (n : Nat) : InPlace (List UInt8) := do
  let r ← get
  let taken := r.rest.take n
  if taken.length = n then
    set (ByteReader.mk (r.offset + n) (r.rest.drop n))
    return taken
  else throw (.outOfRange r.offset n r.remaining)

def u8 : InPlace UInt8 := do return .ofNat (LittleEndian.value (← take 1))

def u16 : InPlace UInt16 := do return .ofNat (LittleEndian.value (← take 2))

def u32 : InPlace UInt32 := do return .ofNat (LittleEndian.value (← take 4))

def text (n : Nat) (strict : Bool) : InPlace String := do
  let start ← get
  let bytes ← take n
  match Utf8.decode bytes with
  | .ok text => return text
  | .error fault =>
    if strict then
      -- the text has been taken, and is put back
      set start
      throw (.malformedText start.offset fault)
    else return Utf8.decodeLossy bytes

end InPlace

inductive Request where
  | u8
  | u16
  | u32
  | bytes (n : Nat)
  | text (n : Nat) (strict : Bool)
deriving DecidableEq, Repr

/-- What a request yields. -/
inductive Field where
  | number (n : Nat)
  | bytes (bytes : List UInt8)
  | text (text : String)
deriving DecidableEq, Repr

def Request.read : Request → InPlace Field
  | .u8 => return .number (← InPlace.u8).toNat
  | .u16 => return .number (← InPlace.u16).toNat
  | .u32 => return .number (← InPlace.u32).toNat
  | .bytes n => return .bytes (← InPlace.take n)
  | .text n strict => return .text (← InPlace.text n strict)

/-- Carries out one request: its outcome and the reader afterwards. -/
def perform (request : Request) (r : ByteReader) : Except DecodeError Field × ByteReader :=
  request.read.run.run r

/-- Carries out requests one after another; each outcome comes with the reader after it. -/
def performAll : List Request → ByteReader → List (Except DecodeError Field × ByteReader)
  | [], _ => []
  | request :: requests, r =>
    let outcome := perform request r
    outcome :: performAll requests outcome.2

end DemoReel.ByteReader
