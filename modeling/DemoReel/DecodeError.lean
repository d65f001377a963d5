import DemoReel.Bytes.Offset
import DemoReel.Text.Utf8

/-!
# Why a demo cannot be read

Offsets are absolute: they count from the start of the outermost byte string, also for a fault
inside a program's payload.
-/

namespace DemoReel

inductive DecodeError where
  /-- A read needs more bytes than are left. -/
  | outOfRange (offset requested remaining : Nat)
  /-- The text field that starts at `textOffset` is not UTF-8. -/
  | malformedText (textOffset : Nat) (fault : Utf8.Fault)
  /-- An opcode outside the known set, where strictness forbids to stop early. -/
  | unknownOpcode (offset : Nat) (opcode : UInt8)
deriving DecidableEq, Repr

namespace DecodeError

/-- The byte at fault: for text the first one outside the valid part. -/
def offset : DecodeError → Nat
  | outOfRange offset _ _ => offset
  | malformedText textOffset fault => textOffset + fault.validLength
  | unknownOpcode offset _ => offset

def message (e : DecodeError) : String :=
  let place := shownOffset e.offset
  match e with
  | outOfRange _ requested remaining =>
    s!"read of {requested} byte(s) at offset {place} overruns buffer ({remaining} left)"
  | malformedText _ fault =>
    s!"malformed bytecode at offset {place}: text field is not valid UTF-8: {fault.message}"
  | unknownOpcode _ opcode => s!"unknown opcode {opcode} at offset {place}"

end DecodeError

end DemoReel
