import DemoReel.Bytes.Reader
import DemoReel.Localization
import DemoReel.Program.Operation

/-!
# Reading programs from bytes

A program is a header (id, declared count, payload size) and a payload (sprite list, operations).
The declared count covers top-level operations only: every block read adds its child count to the
number of operations still expected, so the length of the stream shows while it is read.
-/

namespace DemoReel

/-- How forgiving decoding is. -/
structure DecodeOptions where
  /-- Refuse unknown opcodes instead of stopping before the first one. -/
  strictOpcodes : Bool := false
  /-- Refuse text that is not UTF-8 instead of replacing what is ill-formed. -/
  strictText : Bool := true
deriving DecidableEq, Repr

/-- The unknown opcode before which decoding stopped. -/
structure EarlyStop where
  offset : Nat
  opcode : UInt8
deriving DecidableEq, Repr

/-- A program header with the payload it announces. -/
structure RawProgram where
  demoId : UInt16
  declaredCount : UInt16
  payload : List UInt8
  /-- Absolute offset of the payload. -/
  payloadOffset : Nat
deriving DecidableEq, Repr

/-- A program as a flat stream. -/
structure DecodedProgram where
  demoId : UInt16
  declaredCount : UInt16
  /-- Strictly ascending. -/
  spriteIds : List UInt16
  operations : List Operation
  payload : List UInt8
  /-- Where in the payload the operations start. -/
  operationsStart : Nat
  stoppedAt : Option EarlyStop
deriving DecidableEq

def RawProgram.read : Reading RawProgram := do
  let demoId ← ByteReader.u16
  let declaredCount ← ByteReader.u16
  let size ← ByteReader.u32
  let payloadOffset := (← get).offset
  let payload ← ByteReader.take size.toNat
  return { demoId, declaredCount, payload, payloadOffset }

/-- Reads up to `count` programs one after another, and the fault that cut this short, if any.
Each program comes with the reader that follows it. -/
def RawProgram.readMany : (count : Nat) → ByteReader →
    List (RawProgram × ByteReader) × Option DecodeError
  | 0, _ => ([], none)
  | count + 1, r =>
    match RawProgram.read r with
    | .error e => ([], some e)
    | .ok (raw, rest) =>
      let (more, fault) := readMany count rest
      ((raw, rest) :: more, fault)

/-- Strictness, and the table against which chat and hint text is resolved. -/
structure Decoder where
  options : DecodeOptions := {}
  strings : Option StringTable := none

namespace Decoder

def text (d : Decoder) : Reading DemoText := do
  let length ← ByteReader.u16
  let raw ← ByteReader.text length.toNat d.options.strictText
  return ⟨raw, Localization.resolve raw d.strings⟩

/-- The operation that an opcode introduces. -/
def operation (d : Decoder) (opcode : Opcode) : Reading Operation := do
  match opcode with
  | .parallelBlock => return .block (← ByteReader.u8) []
  | .moveCamera =>
    return .leaf (.moveCamera (← ByteReader.u16) (← ByteReader.u16) (← ByteReader.u16))
  | .paintChat => return .leaf (.paintChat (← ByteReader.u8) (← ByteReader.u16) (← d.text))
  | .delay => return .leaf (.delay (← ByteReader.u32))
  | .playerMove => return .leaf (.playerMove (.ofByte (← ByteReader.u8)))
  | .setDemoSprite => return .leaf (.setDemoSprite (← ByteReader.u16) (← ByteReader.u16))
  | .setPosAndShow => return .leaf (.setPosAndShow (← ByteReader.u16) (← ByteReader.u16))
  | .hideDemoSprite => return .leaf .hideDemoSprite
  | .showDecoSymbol => return .leaf (.showDecoSymbol (← ByteReader.u16) (← ByteReader.u8))
  | .hideDecoSymbol => return .leaf (.hideDecoSymbol (← ByteReader.u16) (← ByteReader.u8))
  | .screenBlink =>
    return .leaf (.screenBlink (← ByteReader.u8)
      ⟨← ByteReader.u8, ← ByteReader.u8, ← ByteReader.u8⟩)
  | .setBlockShort =>
    return .leaf (.setBlockShort (← ByteReader.u16) (← ByteReader.u16) (← ByteReader.u8)
      (← ByteReader.u8))
  | .setBlockLong =>
    return .leaf (.setBlockLong (← ByteReader.u16) (← ByteReader.u16) (← ByteReader.u32))
  | .paintHint => return .leaf (.paintHint (← d.text))

section

variable {related : (α : Type) → Reading α → Reading α → Prop} (h : Reading.Congruence related)
include h

theorem congruence_text (d d' : Decoder) (hstrings : d'.strings = d.strings)
    (htext : ∀ n, related String (ByteReader.text n d.options.strictText)
      (ByteReader.text n d'.options.strictText)) :
    related DemoText d.text d'.text := by
  unfold text
  rw [hstrings]
  exact h.bind h.u16 fun length ↦ h.bind (htext length.toNat) fun _ ↦ h.pure _

/-- Operations are read field by field, so what holds of their texts holds of them. -/
theorem congruence_operation (d d' : Decoder) (htext : related DemoText d.text d'.text)
    (opcode : Opcode) : related Operation (d.operation opcode) (d'.operation opcode) := by
  cases opcode <;> simp only [operation] <;>
    repeat first
      | exact h.pure _
      | refine h.bind h.u8 fun _ ↦ ?_
      | refine h.bind h.u16 fun _ ↦ ?_
      | refine h.bind h.u32 fun _ ↦ ?_
      | refine h.bind htext fun _ ↦ ?_

end

theorem shrinks_operation (d : Decoder) (opcode : Opcode) : (d.operation opcode).Shrinks :=
  congruence_operation ByteReader.congruence_shrinks d d
    (congruence_text ByteReader.congruence_shrinks d d rfl fun n ↦ ByteReader.shrinks_text n _) opcode

/-- What stands at the front of a stream. -/
inductive Next where
  | operation (op : Operation) (rest : ByteReader)
  | unknown (stop : EarlyStop)

/-- Reads one operation, or finds an opcode that lenient decoding stops at. -/
def next (d : Decoder) (r : ByteReader) : Except DecodeError Next := do
  let (byte, fields) ← ByteReader.u8 r
  match Opcode.ofByte? byte with
  | none =>
    if d.options.strictOpcodes then throw (.unknownOpcode r.offset byte)
    else return .unknown ⟨r.offset, byte⟩
  | some opcode =>
    let (op, rest) ← d.operation opcode fields
    return .operation op rest

theorem remaining_of_next {d : Decoder} {r rest : ByteReader} {op : Operation}
    (h : d.next r = .ok (.operation op rest)) : rest.remaining < r.remaining := by
  unfold next at h
  cases hb : ByteReader.u8 r with
  | error e => simp [hb, bind, Except.bind] at h
  | ok s =>
    simp only [hb, bind, Except.bind] at h
    split at h
    · split at h <;> cases h
    · rename_i opcode _
      cases ho : d.operation opcode s.2 with
      | error e => simp [ho] at h
      | ok t =>
        simp only [ho, pure, Except.pure, Except.ok.injEq, Next.operation.injEq] at h
        rw [← h.2]
        exact Nat.lt_of_le_of_lt (d.shrinks_operation opcode ho) (ByteReader.remaining_of_u8 hb)

/-- Reads `pending` operations, and those that the blocks among them announce. -/
def operations (d : Decoder) (pending : Nat) (r : ByteReader) :
    Except DecodeError (List Operation × Option EarlyStop) :=
  match pending with
  | 0 => .ok ([], none)
  | pending + 1 =>
    match _h : d.next r with
    | .error e => .error e
    | .ok (.unknown stop) => .ok ([], some stop)
    | .ok (.operation op rest) =>
      match d.operations (pending + op.declaredChildren) rest with
      | .error e => .error e
      | .ok (ops, stop) => .ok (op :: ops, stop)
termination_by r.remaining
decreasing_by exact remaining_of_next _h

/-- The sprite list: a count, then as many ids. -/
def spriteIds : (count : Nat) → Reading (List UInt16)
  | 0 => return []
  | count + 1 => do
    let id ← ByteReader.u16
    return id :: (← spriteIds count)

theorem congruence_spriteIds {related : (α : Type) → Reading α → Reading α → Prop}
    (h : Reading.Congruence related) (count : Nat) :
    related (List UInt16) (spriteIds count) (spriteIds count) := by
  induction count with
  | zero => exact h.pure _
  | succ count ih => exact h.bind h.u16 fun _ ↦ h.bind ih fun _ ↦ h.pure _

/-- Keeps one of each run of equal ids. -/
def dropRepeats : List UInt16 → List UInt16
  | a :: b :: rest => if a = b then dropRepeats (b :: rest) else a :: dropRepeats (b :: rest)
  | ids => ids

def distinctAscending (ids : List UInt16) : List UInt16 :=
  dropRepeats (ids.mergeSort fun a b ↦ decide (a ≤ b))

/-- Decodes the payload of a program whose header was read. -/
def decodeRaw (d : Decoder) (raw : RawProgram) : Except DecodeError DecodedProgram := do
  let (count, r) ← ByteReader.u16 (.ofBytes raw.payloadOffset raw.payload)
  let (ids, r) ← spriteIds count.toNat r
  let (operations, stoppedAt) ← d.operations raw.declaredCount.toNat r
  return {
    demoId := raw.demoId
    declaredCount := raw.declaredCount
    spriteIds := distinctAscending ids
    operations
    payload := raw.payload
    operationsStart := r.offset - raw.payloadOffset
    stoppedAt }

/-- Decodes one program, header included, from the front of `bytes`. -/
def decodeProgram (d : Decoder) (bytes : List UInt8) : Except DecodeError DecodedProgram := do
  let (raw, _) ← RawProgram.read (.ofBytes 0 bytes)
  d.decodeRaw raw

end Decoder

end DemoReel
