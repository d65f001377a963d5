import DemoReel.Program.Decoding
import DemoReel.Program.Encoding
import DemoReel.Proofs.Bytes.Field
import DemoReel.Proofs.Text.Utf8

/-!
# The fields of an operation

Each opcode has one field layout, which the decoder reads and the encoder writes.  With strict text
the decoder reads an operation exactly where its encoded fields stand; with lenient text it reads
the encoded fields all the same, and others besides.
-/

namespace DemoReel

/-! ## What the byte format can hold -/

/-- The length field has room for the key. -/
def DemoText.Fits (text : DemoText) : Prop := (Utf8.encode text.raw).length ≤ 65535

/-- The localized string is the one that the table has for the key. -/
def DemoText.Resolves (table : Option StringTable) (text : DemoText) : Prop :=
  text.resolved = Localization.resolve text.raw table

/-- The instruction can be written so that it is read back. -/
def Instruction.Writable : Instruction → Prop
  | playerMove direction => ∃ byte, direction = .ofByte byte
  | paintChat _ _ text => text.Fits
  | paintHint text => text.Fits
  | unknown _ => False
  | _ => True

/-- The instruction is one that decoding against this table can yield. -/
def Instruction.Decodable (table : Option StringTable) (i : Instruction) : Prop :=
  i.Writable ∧ ∀ text, i.text? = some text → text.Resolves table

namespace Operation

/-- The length field has room for the text of the operation, if it has one. -/
def Fits : Operation → Prop
  | leaf instruction => ∀ text, instruction.text? = some text → text.Fits
  | block .. => True

/-- The operation is one that a flat stream can hold: a block has no children yet. -/
def Decodable (table : Option StringTable) : Operation → Prop
  | leaf instruction => instruction.Decodable table
  | block _ children => children = []

/-- The operation is one that decoding against this table can yield, strict or not: a text that was
made legible may have outgrown its length field. -/
structure Legible (table : Option StringTable) (op : Operation) : Prop where
  known : ∃ opcode, op.opcode? = some opcode
  childless : op.children = []
  decodable : op.Fits → op.Decodable table

/-- What follows the opcode in a flat stream. -/
def fields : Operation → List UInt8
  | leaf instruction => instruction.encodeFields
  | block childCount _ => LittleEndian.u8 childCount

theorem encode_eq_cons {op : Operation} (h : op.children = []) :
    op.encode = op.opcodeByte :: op.fields := by
  cases op with
  | leaf instruction => rw [encode, opcodeByte, fields]
  | block childCount children =>
    obtain rfl : children = [] := h
    rw [encode, encodeAll, opcodeByte, fields, LittleEndian.u8]

theorem Decodable.children_eq_nil {table : Option StringTable} {op : Operation}
    (h : op.Decodable table) : op.children = [] := by
  cases op with
  | leaf instruction => rfl
  | block childCount children => exact h

theorem Decodable.fits {table : Option StringTable} {op : Operation} (h : op.Decodable table) :
    op.Fits := by
  cases op with
  | block childCount children => trivial
  | leaf instruction =>
    intro text htext
    cases instruction <;> cases htext <;> exact h.1

theorem Decodable.encode_eq {table : Option StringTable} {op : Operation}
    (h : op.Decodable table) : op.encode = op.opcodeByte :: op.fields :=
  encode_eq_cons h.children_eq_nil

theorem opcodeByte_of_opcode? {op : Operation} {opcode : Opcode} (h : op.opcode? = some opcode) :
    op.opcodeByte = opcode.toByte := by
  cases op with
  | leaf instruction =>
    cases instruction <;> cases h <;> rfl
  | block childCount children =>
    cases h
    rfl

theorem Decodable.exists_opcode {table : Option StringTable} {op : Operation}
    (h : op.Decodable table) : ∃ opcode, op.opcode? = some opcode := by
  cases op with
  | leaf instruction =>
    cases instruction with
    | unknown opcode => exact h.1.elim
    | _ => exact ⟨_, rfl⟩
  | block childCount children => exact ⟨_, rfl⟩

end Operation

/-! ## Text fields -/

namespace Decoder

variable {d : Decoder} {r r' : ByteReader}

theorem text_of_takes {text : DemoText} (hfits : text.Fits) (hresolves : text.Resolves d.strings)
    (h : r.Takes text.encode r') : d.text r = .ok (text, r') := by
  obtain ⟨s, hlength, hbytes⟩ := ByteReader.takes_append.1 h
  have hsize : (UInt16.ofNat (Utf8.encode text.raw).length).toNat =
      (Utf8.encode text.raw).length :=
    UInt16.toNat_ofNat_of_lt' (Nat.lt_succ_of_le hfits)
  have hraw : ByteReader.text (UInt16.ofNat (Utf8.encode text.raw).length).toNat
      d.options.strictText s = .ok (text.raw, r') :=
    ByteReader.text_eq_ok_iff.2 ⟨_, hsize.symm, hbytes, .inl (Utf8.decode_encode text.raw)⟩
  unfold Decoder.text
  simp only [Reading.bind_eq_ok_iff, ByteReader.u16_eq_ok_iff, Reading.pure_eq_ok_iff]
  refine ⟨_, s, hlength, text.raw, r', hraw, ?_, rfl⟩
  rw [← hresolves]

/-- A text is read behind its length, and what is ill-formed in it may have been replaced. -/
theorem text_eq_ok {text : DemoText} (h : d.text r = .ok (text, r')) :
    text.Resolves d.strings ∧ ∃ (length : UInt16) (bytes : List UInt8),
      bytes.length = length.toNat ∧ r.Takes (LittleEndian.u16 length ++ bytes) r' ∧
        (Utf8.decode bytes = .ok text.raw ∨
          d.options.strictText = false ∧ text.raw = Utf8.decodeLossy bytes) := by
  unfold Decoder.text at h
  simp only [Reading.bind_eq_ok_iff, ByteReader.u16_eq_ok_iff, Reading.pure_eq_ok_iff] at h
  obtain ⟨length, s, hlength, raw, _, hraw, rfl, rfl⟩ := h
  obtain ⟨bytes, hbytes, htakes, htext⟩ := ByteReader.text_eq_ok_iff.1 hraw
  exact ⟨rfl, length, bytes, hbytes, hlength.append htakes,
    htext.imp_right fun hlossy ↦ ⟨hlossy.1, hlossy.2.2⟩⟩

theorem takes_of_text (hstrict : d.options.strictText = true) {text : DemoText}
    (h : d.text r = .ok (text, r')) : text.Fits ∧ r.Takes text.encode r' := by
  obtain ⟨-, length, bytes, hbytes, htakes, htext | ⟨hlenient, -⟩⟩ := text_eq_ok h
  · obtain rfl := Utf8.decode_eq_ok_iff.1 htext
    have hbound := length.toNat_lt
    refine ⟨?_, ?_⟩
    · change (Utf8.encode text.raw).length ≤ 65535
      omega
    · rw [DemoText.encode, hbytes, UInt16.ofNat_toNat]
      exact htakes
  · rw [hstrict] at hlenient
    cases hlenient

/-! ## The fields that an opcode announces -/

/-- Encoded fields are read back, however strict decoding is. -/
theorem operation_of_takes {opcode : Opcode} {op : Operation} (hopcode : op.opcode? = some opcode)
    (hdecodable : op.Decodable d.strings) (h : r.Takes op.fields r') :
    d.operation opcode r = .ok (op, r') := by
  cases op with
  | block childCount children =>
    cases hopcode
    obtain rfl : children = [] := hdecodable
    simp only [operation, Reading.bind_eq_ok_iff, ByteReader.u8_eq_ok_iff, Reading.pure_eq_ok_iff]
    exact ⟨childCount, r', h, rfl, rfl⟩
  | leaf instruction =>
    obtain ⟨hwritable, hresolves⟩ := hdecodable
    cases instruction
    case unknown opcode => exact hwritable.elim
    all_goals
      obtain rfl := Option.some.inj hopcode
      simp only [operation, Reading.bind_eq_ok_iff, ByteReader.u8_eq_ok_iff,
        ByteReader.u16_eq_ok_iff, ByteReader.u32_eq_ok_iff, Reading.pure_eq_ok_iff]
      simp only [Operation.fields, Instruction.encodeFields, ByteReader.takes_append,
        ByteReader.takes_nil] at h
    case moveCamera blockX blockY frameCount =>
      obtain ⟨_, ⟨_, hx, hy⟩, hn⟩ := h
      exact ⟨_, _, hx, _, _, hy, _, _, hn, rfl, rfl⟩
    case paintChat lineCount offsetY text =>
      obtain ⟨_, ⟨_, hlines, hy⟩, htext⟩ := h
      have hread := text_of_takes hwritable (hresolves _ rfl) htext
      exact ⟨_, _, hlines, _, _, hy, _, _, hread, rfl, rfl⟩
    case delay frameCount => exact ⟨_, _, h, rfl, rfl⟩
    case playerMove direction =>
      obtain ⟨byte, rfl⟩ := hwritable
      rw [Direction.toByte_ofByte] at h
      exact ⟨_, _, h, rfl, rfl⟩
    case setDemoSprite heroSprite backgroundAnim =>
      obtain ⟨_, hhero, hbackground⟩ := h
      exact ⟨_, _, hhero, _, _, hbackground, rfl, rfl⟩
    case setPosAndShow x y =>
      obtain ⟨_, hx, hy⟩ := h
      exact ⟨_, _, hx, _, _, hy, rfl, rfl⟩
    case hideDemoSprite => exact ⟨trivial, h⟩
    case showDecoSymbol frameIndex blinkCount =>
      obtain ⟨_, hframe, hcount⟩ := h
      exact ⟨_, _, hframe, _, _, hcount, rfl, rfl⟩
    case hideDecoSymbol unused needHide =>
      obtain ⟨_, hunused, hhide⟩ := h
      exact ⟨_, _, hunused, _, _, hhide, rfl, rfl⟩
    case screenBlink blinkCount color =>
      obtain ⟨_, ⟨_, ⟨_, hcount, hred⟩, hgreen⟩, hblue⟩ := h
      exact ⟨_, _, hcount, _, _, hred, _, _, hgreen, _, _, hblue, rfl, rfl⟩
    case setBlockShort blockX blockY blockId specialData =>
      obtain ⟨_, ⟨_, ⟨_, hx, hy⟩, hid⟩, hdata⟩ := h
      exact ⟨_, _, hx, _, _, hy, _, _, hid, _, _, hdata, rfl, rfl⟩
    case setBlockLong blockX blockY blockId =>
      obtain ⟨_, ⟨_, hx, hy⟩, hid⟩ := h
      exact ⟨_, _, hx, _, _, hy, _, _, hid, rfl, rfl⟩
    case paintHint text =>
      exact ⟨_, _, text_of_takes hwritable (hresolves _ rfl) h, rfl, rfl⟩

/-- How the operation was read: all its fields as they are encoded, or its text behind the others,
and then it is for the text to fit. -/
inductive ReadAs (d : Decoder) (r : ByteReader) (op : Operation) (r' : ByteReader) : Prop
  | encoded (decodable : op.Decodable d.strings) (takes : r.Takes op.fields r')
  | text {front : List UInt8} {s : ByteReader} {text : DemoText}
    (fields : op.fields = front ++ text.encode) (takes : r.Takes front s)
    (read : d.text s = .ok (text, r')) (hasText : op.Fits → text.Fits)
    (decodable : text.Fits → op.Decodable d.strings)

theorem ReadAs.of_textless {i : Instruction} (hwritable : i.Writable) (htext : i.text? = none)
    (htakes : r.Takes i.encodeFields r') : d.ReadAs r (.leaf i) r' := by
  refine .encoded ⟨hwritable, fun text hsome ↦ ?_⟩ htakes
  rw [htext] at hsome
  cases hsome

theorem readAs_of_operation {opcode : Opcode} {op : Operation}
    (h : d.operation opcode r = .ok (op, r')) :
    op.opcode? = some opcode ∧ op.children = [] ∧ d.ReadAs r op r' := by
  cases opcode <;>
    simp only [operation, Reading.bind_eq_ok_iff, ByteReader.u8_eq_ok_iff,
      ByteReader.u16_eq_ok_iff, ByteReader.u32_eq_ok_iff, Reading.pure_eq_ok_iff] at h
  case parallelBlock =>
    obtain ⟨_, _, hcount, rfl, rfl⟩ := h
    exact ⟨rfl, rfl, .encoded rfl hcount⟩
  case moveCamera =>
    obtain ⟨_, _, hx, _, _, hy, _, _, hn, rfl, rfl⟩ := h
    exact ⟨rfl, rfl, .of_textless trivial rfl ((hx.append hy).append hn)⟩
  case paintChat =>
    obtain ⟨_, _, hlines, _, _, hy, _, _, htext, rfl, rfl⟩ := h
    have hresolves := (text_eq_ok htext).1
    refine ⟨rfl, rfl, .text rfl (hlines.append hy) htext (fun hfits ↦ hfits _ rfl) fun hfits ↦ ?_⟩
    exact ⟨hfits, by rintro _ ⟨⟩; exact hresolves⟩
  case delay =>
    obtain ⟨_, _, hn, rfl, rfl⟩ := h
    exact ⟨rfl, rfl, .of_textless trivial rfl hn⟩
  case playerMove =>
    obtain ⟨byte, _, hbyte, rfl, rfl⟩ := h
    refine ⟨rfl, rfl, .of_textless ⟨byte, rfl⟩ rfl ?_⟩
    rwa [Instruction.encodeFields, Direction.toByte_ofByte]
  case setDemoSprite =>
    obtain ⟨_, _, hhero, _, _, hbackground, rfl, rfl⟩ := h
    exact ⟨rfl, rfl, .of_textless trivial rfl (hhero.append hbackground)⟩
  case setPosAndShow =>
    obtain ⟨_, _, hx, _, _, hy, rfl, rfl⟩ := h
    exact ⟨rfl, rfl, .of_textless trivial rfl (hx.append hy)⟩
  case hideDemoSprite =>
    obtain ⟨rfl, rfl⟩ := h
    exact ⟨rfl, rfl, .of_textless trivial rfl (ByteReader.takes_nil.2 rfl)⟩
  case showDecoSymbol =>
    obtain ⟨_, _, hframe, _, _, hcount, rfl, rfl⟩ := h
    exact ⟨rfl, rfl, .of_textless trivial rfl (hframe.append hcount)⟩
  case hideDecoSymbol =>
    obtain ⟨_, _, hunused, _, _, hhide, rfl, rfl⟩ := h
    exact ⟨rfl, rfl, .of_textless trivial rfl (hunused.append hhide)⟩
  case screenBlink =>
    obtain ⟨_, _, hcount, _, _, hred, _, _, hgreen, _, _, hblue, rfl, rfl⟩ := h
    exact ⟨rfl, rfl,
      .of_textless trivial rfl (((hcount.append hred).append hgreen).append hblue)⟩
  case setBlockShort =>
    obtain ⟨_, _, hx, _, _, hy, _, _, hid, _, _, hdata, rfl, rfl⟩ := h
    exact ⟨rfl, rfl, .of_textless trivial rfl (((hx.append hy).append hid).append hdata)⟩
  case setBlockLong =>
    obtain ⟨_, _, hx, _, _, hy, _, _, hid, rfl, rfl⟩ := h
    exact ⟨rfl, rfl, .of_textless trivial rfl ((hx.append hy).append hid)⟩
  case paintHint =>
    obtain ⟨_, _, htext, rfl, rfl⟩ := h
    have hresolves := (text_eq_ok htext).1
    refine ⟨rfl, rfl, .text rfl (ByteReader.takes_nil.2 rfl) htext (fun hfits ↦ hfits _ rfl)
      fun hfits ↦ ?_⟩
    exact ⟨hfits, by rintro _ ⟨⟩; exact hresolves⟩

/-- An operation with room for its text is one that a flat stream can hold. -/
theorem ReadAs.decodable {op : Operation} (h : d.ReadAs r op r') (hfits : op.Fits) :
    op.Decodable d.strings := by
  cases h with
  | encoded decodable takes => exact decodable
  | text fields takes read hasText decodable => exact decodable (hasText hfits)

/-- With strict text nothing but encoded fields is read. -/
theorem takes_of_operation (hstrict : d.options.strictText = true) {opcode : Opcode}
    {op : Operation} (h : d.operation opcode r = .ok (op, r')) :
    op.opcode? = some opcode ∧ op.Decodable d.strings ∧ r.Takes op.fields r' := by
  obtain ⟨hopcode, -, hread⟩ := readAs_of_operation h
  cases hread with
  | encoded decodable takes => exact ⟨hopcode, decodable, takes⟩
  | text fields takes read hasText decodable =>
    obtain ⟨hfits, htext⟩ := takes_of_text hstrict read
    refine ⟨hopcode, decodable hfits, ?_⟩
    rw [fields]
    exact takes.append htext

end Decoder

end DemoReel
