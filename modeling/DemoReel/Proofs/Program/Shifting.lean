import DemoReel.Program.Basic
import DemoReel.Proofs.Program.Grammar

/-!
# Decoding the same bytes further along

Offsets are absolute, and nothing else in a decoded program or in an error says where its bytes
stood.  Decoding the same bytes at a later offset therefore gives the same, with every offset moved
by the distance.
-/

namespace DemoReel

/-! ## Moving offsets -/

def ByteReader.shift (distance : Nat) (r : ByteReader) : ByteReader := ⟨r.offset + distance, r.rest⟩

def DecodeError.shift (distance : Nat) : DecodeError → DecodeError
  | outOfRange offset requested remaining => outOfRange (offset + distance) requested remaining
  | malformedText textOffset fault => malformedText (textOffset + distance) fault
  | unknownOpcode offset opcode => unknownOpcode (offset + distance) opcode

def EarlyStop.shift (distance : Nat) (stop : EarlyStop) : EarlyStop :=
  ⟨stop.offset + distance, stop.opcode⟩

def DecodedProgram.shift (distance : Nat) (d : DecodedProgram) : DecodedProgram :=
  { d with stoppedAt := d.stoppedAt.map (EarlyStop.shift distance) }

def DemoProgram.shift (distance : Nat) (p : DemoProgram) : DemoProgram :=
  { p with stoppedAt := p.stoppedAt.map (EarlyStop.shift distance) }

def Next.shift (distance : Nat) : Decoder.Next → Decoder.Next
  | .operation op rest => .operation op (rest.shift distance)
  | .unknown stop => .unknown (stop.shift distance)

/-- A result at a later offset: what was read and the error each with their offsets moved. -/
def shiftResult {α : Type} (distance : Nat) (shift : α → α) :
    Except DecodeError α → Except DecodeError α
  | .ok a => .ok (shift a)
  | .error e => .error (e.shift distance)

/-- What follows a result at a later offset comes out shifted if it does so after each value. -/
theorem shiftResult_bind {α β : Type} {distance : Nat} {shiftHere : α → α} {shiftThere : β → β}
    {x : Except DecodeError α} {f g : α → Except DecodeError β}
    (h : ∀ a, g (shiftHere a) = shiftResult distance shiftThere (f a)) :
    shiftResult distance shiftHere x >>= g = shiftResult distance shiftThere (x >>= f) := by
  cases x with
  | error e => rfl
  | ok a => exact h a

/-! ## Reads -/

namespace Reading

/-- The read does the same at a later offset, and what it yields holds no offset. -/
def Shifts {α : Type} (p : Reading α) : Prop :=
  ∀ distance r, p (r.shift distance) =
    shiftResult distance (fun s ↦ (s.1, s.2.shift distance)) (p r)

namespace Shifts

theorem pure {α : Type} (a : α) : Reading.Shifts (Pure.pure a) := fun _ _ ↦ rfl

theorem bind {α β : Type} {p : Reading α} {f : α → Reading β} (hp : p.Shifts)
    (hf : ∀ a, (f a).Shifts) : Reading.Shifts (p >>= f) := by
  intro distance r
  change (p (r.shift distance) >>= fun s ↦ f s.1 s.2) =
    shiftResult distance _ (p r >>= fun s ↦ f s.1 s.2)
  rw [hp distance r]
  exact shiftResult_bind fun s ↦ hf s.1 distance s.2

end Shifts

end Reading

namespace ByteReader

theorem shifts_take (n : Nat) : (take n).Shifts := by
  intro distance r
  unfold take
  dsimp only [shift]
  split
  · simp only [shiftResult, Nat.add_right_comm]
  · rfl

theorem congruence_shifts : Reading.Congruence fun _ p _ ↦ p.Shifts where
  pure a := .pure a
  bind hp hf := .bind hp hf
  take n := shifts_take n

theorem shifts_text (n : Nat) (strict : Bool) : (text n strict).Shifts := by
  intro distance r
  rw [text_apply, text_apply, shifts_take n distance r]
  refine shiftResult_bind fun s ↦ ?_
  cases Utf8.decode s.1 with
  | ok text => rfl
  | error fault => cases strict <;> rfl

end ByteReader

/-! ## Programs -/

namespace Decoder

variable (d : Decoder) (distance : Nat)

theorem shifts_operation (opcode : Opcode) : (d.operation opcode).Shifts :=
  congruence_operation ByteReader.congruence_shifts d d
    (congruence_text ByteReader.congruence_shifts d d rfl fun n ↦ ByteReader.shifts_text n _) opcode

theorem shifts_spriteIds (count : Nat) : (spriteIds count).Shifts :=
  congruence_spriteIds ByteReader.congruence_shifts count

theorem next_shift (r : ByteReader) :
    d.next (r.shift distance) = shiftResult distance (Next.shift distance) (d.next r) := by
  unfold next
  rw [ByteReader.congruence_shifts.u8 distance r]
  refine shiftResult_bind fun s ↦ ?_
  dsimp only
  cases Opcode.ofByte? s.1 with
  | none => cases d.options.strictOpcodes <;> rfl
  | some opcode =>
    dsimp only
    rw [d.shifts_operation opcode distance s.2]
    exact shiftResult_bind fun _ ↦ rfl

theorem operations_shift (pending : Nat) (r : ByteReader) :
    d.operations pending (r.shift distance) =
      shiftResult distance (fun s ↦ (s.1, s.2.map (EarlyStop.shift distance)))
        (d.operations pending r) := by
  fun_induction d.operations pending r with
  | case1 r => rw [operations_zero]; rfl
  | case2 r pending e hnext =>
    rw [Nat.succ_eq_add_one, operations_succ, next_shift, hnext]
    rfl
  | case3 r pending stop hnext =>
    rw [Nat.succ_eq_add_one, operations_succ, next_shift, hnext]
    rfl
  | case4 r pending op rest hnext e hmore ih =>
    rw [hmore] at ih
    rw [Nat.succ_eq_add_one, operations_succ, next_shift, hnext]
    simp only [shiftResult, Next.shift, bind, Except.bind, ih, Except.map]
  | case5 r pending op rest hnext ops stop hmore ih =>
    rw [hmore] at ih
    rw [Nat.succ_eq_add_one, operations_succ, next_shift, hnext]
    simp only [shiftResult, Next.shift, bind, Except.bind, ih, Except.map]

/-- A payload decoded at a later offset. -/
theorem decodeRaw_shift (raw : RawProgram) :
    d.decodeRaw { raw with payloadOffset := raw.payloadOffset + distance } =
      shiftResult distance (DecodedProgram.shift distance) (d.decodeRaw raw) := by
  have hreader : ByteReader.ofBytes (raw.payloadOffset + distance) raw.payload =
      (ByteReader.ofBytes raw.payloadOffset raw.payload).shift distance :=
    rfl
  unfold decodeRaw
  rw [hreader, ByteReader.congruence_shifts.u16 distance]
  refine shiftResult_bind fun count ↦ ?_
  dsimp only
  rw [shifts_spriteIds count.1.toNat distance]
  refine shiftResult_bind fun ids ↦ ?_
  dsimp only
  rw [operations_shift]
  refine shiftResult_bind fun stream ↦ ?_
  have hstart : ids.2.offset + distance - (raw.payloadOffset + distance) =
      ids.2.offset - raw.payloadOffset :=
    Nat.add_sub_add_right _ _ _
  simp only [shiftResult, ByteReader.shift, hstart, pure, Except.pure, DecodedProgram.shift]

end Decoder

end DemoReel
