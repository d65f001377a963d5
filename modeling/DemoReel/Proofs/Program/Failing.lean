import DemoReel.Proofs.Program.Layout
import DemoReel.Proofs.Program.Shifting

/-!
# Where reading fails

A read takes its bytes off the front, so whatever fails, fails at a byte that was reached before.
All reads but two fail only where too few bytes are left: strict decoding also refuses an unknown
opcode, and a text that is not UTF-8.  For these two it is said what stands in front of them.
-/

namespace DemoReel

namespace ByteReader

/-- The one reader is further down the bytes of the other. -/
def Reaches (r s : ByteReader) : Prop := ∃ bytes, r.Takes bytes s

theorem Takes.reaches {r s : ByteReader} {bytes : List UInt8} (h : r.Takes bytes s) :
    r.Reaches s :=
  ⟨bytes, h⟩

theorem Reaches.refl (r : ByteReader) : r.Reaches r := (takes_nil.2 rfl).reaches

theorem Reaches.trans {r s t : ByteReader} (h : r.Reaches s) (h' : s.Reaches t) : r.Reaches t := by
  obtain ⟨bytes, hbytes⟩ := h
  obtain ⟨more, hmore⟩ := h'
  exact (hbytes.append hmore).reaches

/-- Down the bytes the offset grows by as much as is no longer left. -/
theorem Reaches.bounds {r s : ByteReader} (h : r.Reaches s) :
    r.offset ≤ s.offset ∧ s.offset + s.remaining = r.offset + r.remaining := by
  obtain ⟨bytes, htakes⟩ := h
  have hremaining := htakes.remaining_eq
  have hoffset := htakes.2
  omega

/-- A read somewhere down the bytes asks for more than is left there. -/
def Overruns (r : ByteReader) (e : DecodeError) : Prop :=
  ∃ s requested, r.Reaches s ∧ s.remaining < requested ∧
    e = .outOfRange s.offset requested s.remaining

theorem Overruns.of_reaches {r s : ByteReader} {e : DecodeError} (h : s.Overruns e)
    (hreaches : r.Reaches s) : r.Overruns e := by
  obtain ⟨t, requested, ht, hshort, rfl⟩ := h
  exact ⟨t, requested, hreaches.trans ht, hshort, rfl⟩

end ByteReader

/-! ## Reads that fail for want of bytes -/

/-- The read goes down the bytes, and fails only where too few of them are left. -/
structure Reading.Overruns {α : Type} (p : Reading α) : Prop where
  reaches : ∀ ⦃r a s⦄, p r = .ok (a, s) → r.Reaches s
  error : ∀ ⦃r e⦄, p r = .error e → r.Overruns e

namespace Reading.Overruns

theorem pure {α : Type} (a : α) : Reading.Overruns (Pure.pure a) := by
  refine ⟨fun r b s h ↦ ?_, fun r e h ↦ nomatch h⟩
  obtain ⟨-, rfl⟩ := pure_eq_ok_iff.1 h
  exact .refl r

theorem get : Reading.Overruns MonadState.get := by
  refine ⟨fun r b s h ↦ ?_, fun r e h ↦ nomatch h⟩
  cases h
  exact .refl r

/-- What follows such a read fails further down. -/
theorem bind_error {α β : Type} {p : Reading α} {f : α → Reading β} (hp : p.Overruns)
    {r : ByteReader} {e : DecodeError} (h : (p >>= f) r = .error e) :
    r.Overruns e ∨ ∃ a s, p r = .ok (a, s) ∧ f a s = .error e := by
  obtain herror | ⟨⟨a, s⟩, hok, herror⟩ := bind_eq_error_iff.1 h
  · exact .inl (hp.error herror)
  · exact .inr ⟨a, s, hok, herror⟩

theorem bind {α β : Type} {p : Reading α} {f : α → Reading β} (hp : p.Overruns)
    (hf : ∀ a, (f a).Overruns) : Reading.Overruns (p >>= f) := by
  refine ⟨fun r b t h ↦ ?_, fun r e h ↦ ?_⟩
  · obtain ⟨a, s, hok, hmore⟩ := bind_eq_ok_iff.1 h
    exact (hp.reaches hok).trans ((hf a).reaches hmore)
  · obtain hover | ⟨a, s, hok, herror⟩ := hp.bind_error h
    · exact hover
    · exact ((hf a).error herror).of_reaches (hp.reaches hok)

end Reading.Overruns

namespace ByteReader

theorem overruns_take (n : Nat) : (take n).Overruns := by
  refine ⟨fun r bytes s h ↦ (take_eq_ok_iff_takes.1 h).2.reaches, fun r e h ↦ ?_⟩
  unfold take at h
  dsimp only at h
  split at h
  case isTrue => cases h
  case isFalse hlength =>
    rw [List.length_take] at hlength
    have hshort : r.remaining < n := by
      unfold remaining
      omega
    exact ⟨r, n, .refl r, hshort, (Except.error.inj h).symm⟩

theorem congruence_overruns : Reading.Congruence fun _ p _ ↦ p.Overruns where
  pure a := .pure a
  bind hp hf := .bind hp hf
  take n := overruns_take n

/-- Text fails by its bytes only where ill-formed text is refused. -/
theorem text_eq_error {n : Nat} {strict : Bool} {r : ByteReader} {e : DecodeError}
    (h : text n strict r = .error e) :
    r.Overruns e ∨ strict = true ∧ ∃ bytes s fault, bytes.length = n ∧ r.Takes bytes s ∧
      Utf8.decode bytes = .error fault ∧ e = .malformedText r.offset fault := by
  rw [text_apply] at h
  obtain herror | ⟨⟨bytes, s⟩, hok, herror⟩ := bind_eq_error_iff.1 h
  · exact .inl ((overruns_take n).error herror)
  · obtain ⟨hlength, htakes⟩ := take_eq_ok_iff_takes.1 hok
    dsimp only at herror
    cases hdecode : Utf8.decode bytes with
    | ok text =>
      rw [hdecode] at herror
      cases herror
    | error fault =>
      rw [hdecode] at herror
      cases strict with
      | false => cases herror
      | true => exact .inr ⟨rfl, bytes, s, fault, hlength, htakes, hdecode,
          (Except.error.inj herror).symm⟩

theorem overruns_text (n : Nat) : (text n false).Overruns := by
  refine ⟨fun r a s h ↦ ?_, fun r e h ↦ ?_⟩
  · obtain ⟨bytes, -, htakes, -⟩ := text_eq_ok_iff.1 h
    exact htakes.reaches
  · obtain hover | ⟨hstrict, -⟩ := text_eq_error h
    · exact hover
    · cases hstrict

end ByteReader

/-! ## One operation -/

/-- How many bytes stand between the opcode and its text, if it has one. -/
def Opcode.textStart? : Opcode → Option Nat
  | paintChat => some 3
  | paintHint => some 0
  | _ => none

namespace Decoder

open ByteReader

variable {d : Decoder} {r s : ByteReader}

/-- Strict decoding refuses a text here: its bytes stand behind their length and are not UTF-8. -/
structure RefusesText (d : Decoder) (r : ByteReader) (bytes : List UInt8) (e : DecodeError) :
    Prop where
  strict : d.options.strictText = true
  length : bytes.length ≤ 65535
  takes : ∃ s, r.Takes (LittleEndian.u16 (UInt16.ofNat bytes.length) ++ bytes) s
  error : ∃ fault, Utf8.decode bytes = .error fault ∧ e = .malformedText (r.offset + 2) fault

theorem text_eq_error {e : DecodeError} (h : d.text r = .error e) :
    r.Overruns e ∨ ∃ bytes, d.RefusesText r bytes e := by
  obtain hover | ⟨length, s, hlength, h⟩ := congruence_overruns.u16.bind_error h
  · exact .inl hover
  rw [u16_eq_ok_iff] at hlength
  obtain herror | ⟨_, -, hnever⟩ := bind_eq_error_iff.1 h
  · obtain hover | ⟨hstrict, bytes, t, fault, hbytes, htakes, hdecode, rfl⟩ :=
      ByteReader.text_eq_error herror
    · exact .inl (hover.of_reaches hlength.reaches)
    · have hfits := length.toNat_lt
      rw [hlength.2, LittleEndian.length_u16]
      refine .inr ⟨bytes, hstrict, by omega, ⟨t, ?_⟩, fault, hdecode, rfl⟩
      rw [hbytes, UInt16.ofNat_toNat]
      exact hlength.append htakes
  · cases hnever

/-- Only an operation with a text can fail for another reason than want of bytes. -/
theorem overruns_operation (d : Decoder) {opcode : Opcode} (h : opcode.textStart? = none) :
    (d.operation opcode).Overruns := by
  -- without a text the operation does not ask how strict decoding is
  let lenient : Decoder := { d with options := { d.options with strictText := false } }
  have hsame : d.operation opcode = lenient.operation opcode := by
    cases opcode
    case paintChat => cases h
    case paintHint => cases h
    all_goals rfl
  rw [hsame]
  have htext := congruence_text congruence_overruns lenient lenient rfl overruns_text
  exact congruence_operation congruence_overruns lenient lenient htext opcode

theorem operation_eq_error {opcode : Opcode} {e : DecodeError}
    (h : d.operation opcode r = .error e) :
    r.Overruns e ∨ ∃ (front : List UInt8) (s : ByteReader) (bytes : List UInt8),
      opcode.textStart? = some front.length ∧ r.Takes front s ∧ d.RefusesText s bytes e := by
  cases htext : opcode.textStart? with
  | none => exact .inl ((overruns_operation d htext).error h)
  | some start =>
    cases opcode
    case paintChat =>
      cases htext
      obtain hover | ⟨lines, s, hlines, h⟩ := congruence_overruns.u8.bind_error h
      · exact .inl hover
      rw [u8_eq_ok_iff] at hlines
      obtain hover | ⟨offsetY, t, hoffsetY, h⟩ := congruence_overruns.u16.bind_error h
      · exact .inl (hover.of_reaches hlines.reaches)
      rw [u16_eq_ok_iff] at hoffsetY
      have hfront := hlines.append hoffsetY
      obtain herror | ⟨_, -, hnever⟩ := bind_eq_error_iff.1 h
      · obtain hover | ⟨bytes, hrefuses⟩ := text_eq_error herror
        · exact .inl (hover.of_reaches hfront.reaches)
        · refine .inr ⟨_, t, bytes, ?_, hfront, hrefuses⟩
          rw [List.length_append, LittleEndian.length_u16]
          rfl
      · cases hnever
    case paintHint =>
      cases htext
      obtain herror | ⟨_, -, hnever⟩ := bind_eq_error_iff.1 h
      · obtain hover | ⟨bytes, hrefuses⟩ := text_eq_error herror
        · exact .inl hover
        · exact .inr ⟨[], r, bytes, rfl, takes_nil.2 rfl, hrefuses⟩
      · cases hnever
    all_goals cases htext

theorem ReadAs.reaches {op : Operation} (h : d.ReadAs r op s) : r.Reaches s := by
  cases h with
  | encoded decodable takes => exact takes.reaches
  | text fields takes read hasText decodable =>
    obtain ⟨-, length, bytes, -, htakes, -⟩ := text_eq_ok read
    exact takes.reaches.trans htakes.reaches

theorem reaches_of_next {op : Operation} (h : d.next r = .ok (.operation op s)) :
    r.Reaches s := by
  obtain ⟨byte, t, opcode, hbyte, -, hop⟩ := next_eq_operation_iff.1 h
  exact hbyte.reaches.trans (readAs_of_operation hop).2.2.reaches

/-- The three reasons why no operation can be read. -/
inductive NextFails (d : Decoder) (r : ByteReader) (e : DecodeError) : Prop
  | short (overruns : r.Overruns e)
  | unknown {byte : UInt8} (strict : d.options.strictOpcodes = true) (stands : [byte] <+: r.rest)
    (opcode : Opcode.ofByte? byte = none) (error : e = .unknownOpcode r.offset byte)
  | text {opcode : Opcode} {front : List UInt8} {s : ByteReader} {bytes : List UInt8}
    (start : opcode.textStart? = some front.length) (takes : r.Takes (opcode.toByte :: front) s)
    (refuses : d.RefusesText s bytes e)

theorem nextFails_of_error {e : DecodeError} (h : d.next r = .error e) : d.NextFails r e := by
  obtain herror | ⟨⟨byte, s⟩, hbyte, -⟩ := bind_eq_error_iff.1 h
  · exact .short (congruence_overruns.u8.error herror)
  rw [u8_eq_ok_iff] at hbyte
  cases hopcode : Opcode.ofByte? byte with
  | none =>
    rw [next_of_no_opcode hbyte hopcode] at h
    split at h
    case isTrue hstrict =>
      have hstands : [byte] <+: r.rest := exists_takes_iff_prefix.1 ⟨s, hbyte⟩
      exact .unknown hstrict hstands hopcode (Except.error.inj h).symm
    case isFalse => cases h
  | some opcode =>
    rw [next_of_opcode hbyte hopcode, map_eq_error_iff] at h
    obtain hover | ⟨front, t, bytes, hstart, hfront, hrefuses⟩ := operation_eq_error h
    · exact .short (hover.of_reaches hbyte.reaches)
    · refine .text hstart ?_ hrefuses
      rw [Opcode.toByte_of_ofByte? hopcode]
      exact takes_cons.2 ⟨s, hbyte, hfront⟩

theorem Reads.reaches {ops : List Operation} (h : d.Reads r ops s) : r.Reaches s := by
  induction h with
  | nil r => exact .refl r
  | cons next more ih => exact (reaches_of_next next).trans ih

/-! ## Whole programs -/

/-- A payload fails in its sprite list, or at an operation that it still owes. -/
theorem decodeRaw_eq_error {raw : RawProgram} {e : DecodeError} (h : d.decodeRaw raw = .error e) :
    (ByteReader.ofBytes raw.payloadOffset raw.payload).Overruns e ∨
      ∃ (ids : List UInt16) (s : ByteReader) (ops : List Operation) (t : ByteReader),
        ids.length ≤ 65535 ∧
        (ByteReader.ofBytes raw.payloadOffset raw.payload).Takes
          (LittleEndian.u16 (UInt16.ofNat ids.length) ++ ids.flatMap LittleEndian.u16) s ∧
        d.Reads s ops t ∧ Operation.LeavesOpen raw.declaredCount.toNat ops ∧
        d.NextFails t e := by
  obtain herror | ⟨⟨count, r⟩, hcount, h⟩ := bind_eq_error_iff.1 h
  · exact .inl (congruence_overruns.u16.error herror)
  have hreaches := congruence_overruns.u16.reaches hcount
  obtain herror | ⟨⟨ids, s⟩, hids, h⟩ := bind_eq_error_iff.1 h
  · have hover := (congruence_spriteIds congruence_overruns count.toNat).error herror
    exact .inl (hover.of_reaches hreaches)
  obtain ⟨hlength, hlist⟩ := spriteList_eq_ok_iff.1 ⟨count, r, hcount, hids⟩
  obtain herror | ⟨_, -, hnever⟩ := bind_eq_error_iff.1 h
  · obtain ⟨ops, t, hreads, hopen, hlast⟩ := reads_of_operations_error herror
    exact .inr ⟨ids, s, ops, t, hlength, hlist, hreads, hopen, nextFails_of_error hlast⟩
  · cases hnever

/-- A header, or the payload that it announces, is cut short. -/
theorem overruns_read : RawProgram.read.Overruns :=
  have hreads := congruence_overruns
  hreads.u16.bind fun _ ↦ hreads.u16.bind fun _ ↦ hreads.u32.bind fun size ↦
    Reading.Overruns.get.bind fun _ ↦ (hreads.take size.toNat).bind fun _ ↦ .pure _

end Decoder

end DemoReel
