import DemoReel.Proofs.Program.Fields

/-!
# The language of operation streams

The number of operations to read grows while they are read.  A flat stream is read to its end
exactly when the count, with what the blocks in it announce, is used up at the end of the stream and
nowhere before; a count that is still open at the end asks for one more operation, and lenient
decoding stops there if an unknown opcode follows.
-/

namespace DemoReel

namespace Operation

/-- How many operations the blocks of a flat stream add to the count. -/
def announced (ops : List Operation) : Nat := (ops.map declaredChildren).sum

/-- The count is used up at the end of the stream and nowhere before. -/
def Fills (declared : Nat) (ops : List Operation) : Prop :=
  ops.length = declared + announced ops ∧
    ∀ front, front <+: ops → front ≠ ops → front.length ≠ declared + announced front

/-- The count is used up nowhere, not at the end of the stream either. -/
def LeavesOpen (declared : Nat) (ops : List Operation) : Prop :=
  ∀ front, front <+: ops → front.length < declared + announced front

@[simp] theorem announced_nil : announced [] = 0 := rfl

@[simp] theorem announced_cons (op : Operation) (ops : List Operation) :
    announced (op :: ops) = op.declaredChildren + announced ops := by
  simp [announced]

theorem announced_append (ops more : List Operation) :
    announced (ops ++ more) = announced ops + announced more := by
  simp [announced]

theorem fills_nil {declared : Nat} : Fills declared [] ↔ declared = 0 := by
  constructor
  · rintro ⟨hlength, -⟩
    simpa using hlength.symm
  · rintro rfl
    refine ⟨rfl, fun front hfront hne ↦ ?_⟩
    exact (hne (List.prefix_nil.1 hfront)).elim

theorem not_fills_zero_cons {op : Operation} {ops : List Operation} : ¬Fills 0 (op :: ops) :=
  fun h ↦ h.2 [] List.nil_prefix (List.cons_ne_nil op ops).symm rfl

theorem fills_succ_cons {declared : Nat} {op : Operation} {ops : List Operation} :
    Fills (declared + 1) (op :: ops) ↔ Fills (declared + op.declaredChildren) ops := by
  constructor
  · rintro ⟨hlength, hfront⟩
    simp only [List.length_cons, announced_cons] at hlength
    refine ⟨by omega, fun front hinit hne hfull ↦ ?_⟩
    refine hfront (op :: front) (List.cons_prefix_cons.2 ⟨rfl, hinit⟩) (by simpa using hne) ?_
    simp only [List.length_cons, announced_cons]
    omega
  · rintro ⟨hlength, hfront⟩
    refine ⟨?_, fun front hinit hne hfull ↦ ?_⟩
    · simp only [List.length_cons, announced_cons]
      omega
    · cases front with
      | nil => simp at hfull
      | cons op' front =>
        obtain ⟨rfl, htail⟩ := List.cons_prefix_cons.1 hinit
        simp only [List.length_cons, announced_cons] at hfull
        exact hfront front htail (by simpa using hne) (by omega)

/-- A stream is that of one declared count only. -/
theorem Fills.eq {declared declared' : Nat} {ops : List Operation} (h : Fills declared ops)
    (h' : Fills declared' ops) : declared = declared' :=
  Nat.add_right_cancel (h.1.symm.trans h'.1)

theorem leavesOpen_nil {declared : Nat} : LeavesOpen declared [] ↔ 0 < declared := by
  simp [LeavesOpen]

theorem not_leavesOpen_zero {ops : List Operation} : ¬LeavesOpen 0 ops :=
  fun h ↦ Nat.lt_irrefl 0 (h [] List.nil_prefix)

theorem leavesOpen_succ_cons {declared : Nat} {op : Operation} {ops : List Operation} :
    LeavesOpen (declared + 1) (op :: ops) ↔ LeavesOpen (declared + op.declaredChildren) ops := by
  constructor
  · intro h front hinit
    have hcons := h (op :: front) (List.cons_prefix_cons.2 ⟨rfl, hinit⟩)
    simp only [List.length_cons, announced_cons] at hcons
    omega
  · intro h front hinit
    cases front with
    | nil => simp
    | cons op' front =>
      obtain ⟨rfl, htail⟩ := List.cons_prefix_cons.1 hinit
      have hfront := h front htail
      simp only [List.length_cons, announced_cons]
      omega

end Operation

namespace Decoder

open Operation

variable {d : Decoder} {r rest : ByteReader}

/-! ## One operation -/

theorem next_of_no_opcode {byte : UInt8} {s : ByteReader}
    (hbyte : r.Takes (LittleEndian.u8 byte) s) (hopcode : Opcode.ofByte? byte = none) :
    d.next r = if d.options.strictOpcodes then .error (.unknownOpcode r.offset byte)
      else .ok (.unknown ⟨r.offset, byte⟩) := by
  unfold Decoder.next
  simp only [ByteReader.u8_eq_ok_iff.2 hbyte, bind, Except.bind, hopcode]
  rfl

theorem next_of_opcode {byte : UInt8} {s : ByteReader} {opcode : Opcode}
    (hbyte : r.Takes (LittleEndian.u8 byte) s) (hopcode : Opcode.ofByte? byte = some opcode) :
    d.next r = (d.operation opcode s).map fun read ↦ .operation read.1 read.2 := by
  unfold Decoder.next
  simp only [ByteReader.u8_eq_ok_iff.2 hbyte, bind, Except.bind, hopcode]
  cases d.operation opcode s <;> rfl

theorem exists_byte_of_next {next : Next} (h : d.next r = .ok next) :
    ∃ byte s, r.Takes (LittleEndian.u8 byte) s := by
  obtain ⟨head, hbyte, -⟩ := bind_eq_ok_iff.1 h
  exact ⟨head.1, head.2, ByteReader.u8_eq_ok_iff.1 hbyte⟩

theorem next_eq_operation_iff {op : Operation} :
    d.next r = .ok (.operation op rest) ↔
      ∃ byte s opcode, r.Takes (LittleEndian.u8 byte) s ∧ Opcode.ofByte? byte = some opcode ∧
        d.operation opcode s = .ok (op, rest) := by
  constructor
  · intro h
    obtain ⟨byte, s, hbyte⟩ := exists_byte_of_next h
    cases hopcode : Opcode.ofByte? byte with
    | none =>
      rw [next_of_no_opcode hbyte hopcode] at h
      split at h <;> cases h
    | some opcode =>
      rw [next_of_opcode hbyte hopcode] at h
      obtain ⟨read, hop, hread⟩ := map_eq_ok_iff.1 h
      cases hread
      exact ⟨byte, s, opcode, hbyte, hopcode, hop⟩
  · rintro ⟨byte, s, opcode, hbyte, hopcode, hop⟩
    rw [next_of_opcode hbyte hopcode, hop]
    rfl

theorem next_eq_unknown_iff {stop : EarlyStop} :
    d.next r = .ok (.unknown stop) ↔ d.options.strictOpcodes = false ∧
      [stop.opcode] <+: r.rest ∧ Opcode.ofByte? stop.opcode = none ∧ stop.offset = r.offset := by
  rw [← ByteReader.exists_takes_iff_prefix]
  constructor
  · intro h
    obtain ⟨byte, s, hbyte⟩ := exists_byte_of_next h
    cases hopcode : Opcode.ofByte? byte with
    | none =>
      rw [next_of_no_opcode hbyte hopcode] at h
      cases hstrict : d.options.strictOpcodes with
      | true =>
        rw [hstrict] at h
        cases h
      | false =>
        rw [hstrict] at h
        cases h
        exact ⟨rfl, ⟨s, hbyte⟩, hopcode, rfl⟩
    | some opcode =>
      rw [next_of_opcode hbyte hopcode] at h
      obtain ⟨read, -, hread⟩ := map_eq_ok_iff.1 h
      cases hread
  · rintro ⟨hlenient, ⟨s, hbyte⟩, hopcode, hoffset⟩
    rw [next_of_no_opcode hbyte hopcode, hlenient, ← hoffset]
    rfl

theorem next_of_takes {op : Operation} (hdecodable : op.Decodable d.strings)
    (h : r.Takes op.encode rest) : d.next r = .ok (.operation op rest) := by
  obtain ⟨opcode, hopcode⟩ := hdecodable.exists_opcode
  rw [hdecodable.encode_eq, opcodeByte_of_opcode? hopcode] at h
  obtain ⟨s, hbyte, hfields⟩ := ByteReader.takes_cons.1 h
  have hop := operation_of_takes hopcode hdecodable hfields
  exact next_eq_operation_iff.2
    ⟨opcode.toByte, s, opcode, hbyte, Opcode.ofByte?_toByte opcode, hop⟩

theorem takes_of_next (hstrict : d.options.strictText = true) {op : Operation}
    (h : d.next r = .ok (.operation op rest)) :
    op.Decodable d.strings ∧ r.Takes op.encode rest := by
  obtain ⟨byte, s, opcode, hbyte, hopcode, hop⟩ := next_eq_operation_iff.1 h
  obtain ⟨hop?, hdecodable, hfields⟩ := takes_of_operation hstrict hop
  refine ⟨hdecodable, ?_⟩
  rw [hdecodable.encode_eq, opcodeByte_of_opcode? hop?, Opcode.toByte_of_ofByte? hopcode]
  exact ByteReader.takes_cons.2 ⟨s, hbyte, hfields⟩

/-! ## A stream of operations -/

theorem operations_zero : d.operations 0 r = .ok ([], none) := by
  rw [operations]

/-- A stream with operations pending, as its first operation and what that leaves pending. -/
theorem operations_succ (pending : Nat) (r : ByteReader) :
    d.operations (pending + 1) r = d.next r >>= fun
      | .unknown stop => .ok ([], some stop)
      | .operation op rest =>
        (d.operations (pending + op.declaredChildren) rest).map fun more ↦
          (op :: more.1, more.2) := by
  rw [operations]
  split
  case h_1 e hnext => simp [hnext, bind, Except.bind]
  case h_2 found hnext => simp [hnext, bind, Except.bind]
  case h_3 op rest hnext =>
    simp only [hnext, bind, Except.bind]
    cases d.operations (pending + op.declaredChildren) rest <;> rfl

theorem operations_succ_eq_ok_iff {pending : Nat} {ops : List Operation}
    {stop : Option EarlyStop} :
    d.operations (pending + 1) r = .ok (ops, stop) ↔
      (∃ found, d.next r = .ok (.unknown found) ∧ ops = [] ∧ stop = some found) ∨
      ∃ op rest more, d.next r = .ok (.operation op rest) ∧ ops = op :: more ∧
        d.operations (pending + op.declaredChildren) rest = .ok (more, stop) := by
  rw [operations_succ, bind_eq_ok_iff]
  constructor
  · rintro ⟨next, hnext, h⟩
    cases next with
    | unknown found =>
      cases h
      exact .inl ⟨found, hnext, rfl, rfl⟩
    | operation op rest =>
      obtain ⟨more, hmore, heq⟩ := map_eq_ok_iff.1 h
      cases heq
      exact .inr ⟨op, rest, more.1, hnext, rfl, hmore⟩
  · rintro (⟨found, hnext, rfl, rfl⟩ | ⟨op, rest, more, hnext, rfl, hmore⟩)
    · exact ⟨_, hnext, rfl⟩
    · exact ⟨_, hnext, map_eq_ok_iff.2 ⟨_, hmore, rfl⟩⟩

/-- What is left after a stream that was read: nothing that the count asks for, or an unknown opcode
that lenient decoding stops at. -/
def EndsAt (d : Decoder) (declared : Nat) (ops : List Operation) (rest : ByteReader) :
    Option EarlyStop → Prop
  | none => Fills declared ops
  | some stop => LeavesOpen declared ops ∧ d.next rest = .ok (.unknown stop)

theorem not_endsAt_zero_cons {op : Operation} {ops : List Operation} {stop : Option EarlyStop} :
    ¬d.EndsAt 0 (op :: ops) rest stop := by
  cases stop with
  | none => exact not_fills_zero_cons
  | some stop => exact fun h ↦ not_leavesOpen_zero h.1

theorem endsAt_succ_cons {declared : Nat} {op : Operation} {ops : List Operation}
    {stop : Option EarlyStop} :
    d.EndsAt (declared + 1) (op :: ops) rest stop ↔
      d.EndsAt (declared + op.declaredChildren) ops rest stop := by
  cases stop with
  | none => exact fills_succ_cons
  | some stop => simp only [EndsAt, leavesOpen_succ_cons]

/-- An encoded stream is read back, however strict decoding is. -/
theorem operations_of_takes {declared : Nat} {ops : List Operation} {stop : Option EarlyStop}
    (hdecodable : ∀ op ∈ ops, op.Decodable d.strings) (htakes : r.Takes (encodeAll ops) rest)
    (hends : d.EndsAt declared ops rest stop) : d.operations declared r = .ok (ops, stop) := by
  induction ops generalizing declared r with
  | nil =>
    obtain rfl := ByteReader.takes_nil.1 htakes
    cases stop with
    | none =>
      obtain rfl := fills_nil.1 hends
      exact operations_zero
    | some stop =>
      cases declared with
      | zero => exact (not_leavesOpen_zero hends.1).elim
      | succ declared => exact operations_succ_eq_ok_iff.2 (.inl ⟨stop, hends.2, rfl, rfl⟩)
  | cons op ops ih =>
    cases declared with
    | zero => exact (not_endsAt_zero_cons hends).elim
    | succ declared =>
      rw [encodeAll] at htakes
      obtain ⟨s, hop, hops⟩ := ByteReader.takes_append.1 htakes
      rw [List.forall_mem_cons] at hdecodable
      have hnext := next_of_takes hdecodable.1 hop
      have hmore := ih hdecodable.2 hops (endsAt_succ_cons.1 hends)
      exact operations_succ_eq_ok_iff.2 (.inr ⟨op, s, ops, hnext, rfl, hmore⟩)

/-- From the one reader to the other stand these operations, one after another. -/
inductive Reads (d : Decoder) : ByteReader → List Operation → ByteReader → Prop
  | nil (r : ByteReader) : d.Reads r [] r
  | cons {op : Operation} {ops : List Operation} {r s rest : ByteReader}
    (next : d.next r = .ok (.operation op s)) (more : d.Reads s ops rest) :
    d.Reads r (op :: ops) rest

theorem reads_of_operations {declared : Nat} {ops : List Operation} {stop : Option EarlyStop}
    (h : d.operations declared r = .ok (ops, stop)) :
    ∃ rest, d.Reads r ops rest ∧ d.EndsAt declared ops rest stop := by
  induction ops generalizing declared r with
  | nil =>
    refine ⟨r, .nil r, ?_⟩
    cases declared with
    | zero =>
      rw [operations_zero] at h
      cases h
      exact fills_nil.2 rfl
    | succ declared =>
      obtain ⟨found, hnext, -, rfl⟩ | ⟨_, _, _, _, hcons, _⟩ := operations_succ_eq_ok_iff.1 h
      · exact ⟨leavesOpen_nil.2 declared.succ_pos, hnext⟩
      · cases hcons
  | cons op ops ih =>
    cases declared with
    | zero =>
      rw [operations_zero] at h
      cases h
    | succ declared =>
      obtain ⟨_, _, hnil, _⟩ | ⟨_, s, _, hnext, hcons, hmore⟩ := operations_succ_eq_ok_iff.1 h
      · cases hnil
      · cases hcons
        obtain ⟨rest, hreads, hends⟩ := ih hmore
        exact ⟨rest, .cons hnext hreads, endsAt_succ_cons.2 hends⟩

/-- A stream fails at an operation that the count asks for and that cannot be read. -/
theorem reads_of_operations_error {declared : Nat} {e : DecodeError}
    (h : d.operations declared r = .error e) :
    ∃ ops rest, d.Reads r ops rest ∧ LeavesOpen declared ops ∧ d.next rest = .error e := by
  -- blocks raise the number pending, so the induction is on the bytes that are left
  induction hsize : r.remaining using Nat.strongRecOn generalizing declared r with
  | _ size ih =>
    cases declared with
    | zero =>
      rw [operations_zero] at h
      cases h
    | succ declared =>
      rw [operations_succ] at h
      obtain hnext | ⟨next, hnext, h⟩ := bind_eq_error_iff.1 h
      · exact ⟨[], r, .nil r, leavesOpen_nil.2 declared.succ_pos, hnext⟩
      · cases next with
        | unknown stop => cases h
        | operation op s =>
          have hless : s.remaining < size := hsize ▸ remaining_of_next hnext
          obtain ⟨ops, rest, hreads, hopen, hlast⟩ := ih _ hless (map_eq_error_iff.1 h) rfl
          exact ⟨op :: ops, rest, .cons hnext hreads, leavesOpen_succ_cons.2 hopen, hlast⟩

/-- With strict text nothing but encoded operations are read. -/
theorem Reads.takes (hstrict : d.options.strictText = true) {ops : List Operation}
    (h : d.Reads r ops rest) :
    (∀ op ∈ ops, op.Decodable d.strings) ∧ r.Takes (encodeAll ops) rest := by
  induction h with
  | nil r => exact ⟨by simp, ByteReader.takes_nil.2 rfl⟩
  | cons next more ih =>
    obtain ⟨hdecodable, hop⟩ := takes_of_next hstrict next
    rw [encodeAll]
    exact ⟨List.forall_mem_cons.2 ⟨hdecodable, ih.1⟩, hop.append ih.2⟩

theorem takes_of_operations (hstrict : d.options.strictText = true) {declared : Nat}
    {ops : List Operation} {stop : Option EarlyStop}
    (h : d.operations declared r = .ok (ops, stop)) :
    (∀ op ∈ ops, op.Decodable d.strings) ∧
      ∃ rest, r.Takes (encodeAll ops) rest ∧ d.EndsAt declared ops rest stop := by
  obtain ⟨rest, hreads, hends⟩ := reads_of_operations h
  obtain ⟨hdecodable, htakes⟩ := hreads.takes hstrict
  exact ⟨hdecodable, rest, htakes, hends⟩

/-! ## Streams that were read leniently -/

theorem legible_of_next {op : Operation} (h : d.next r = .ok (.operation op rest)) :
    op.Legible d.strings := by
  obtain ⟨byte, s, opcode, -, -, hop⟩ := next_eq_operation_iff.1 h
  obtain ⟨hopcode, hchildren, hread⟩ := readAs_of_operation hop
  exact ⟨⟨opcode, hopcode⟩, hchildren, hread.decodable⟩

theorem Reads.legible {ops : List Operation} (h : d.Reads r ops rest) :
    ∀ op ∈ ops, op.Legible d.strings := by
  induction h with
  | nil r => simp
  | cons next more ih => exact List.forall_mem_cons.2 ⟨legible_of_next next, ih⟩

/-- However strict decoding is, it yields known operations, and ends where the growing count is
used up. -/
theorem legible_of_operations {declared : Nat} {ops : List Operation} {stop : Option EarlyStop}
    (h : d.operations declared r = .ok (ops, stop)) :
    (∀ op ∈ ops, op.Legible d.strings) ∧ (stop = none → Fills declared ops) := by
  obtain ⟨rest, hreads, hends⟩ := reads_of_operations h
  refine ⟨hreads.legible, ?_⟩
  rintro rfl
  exact hends

/-- The decoder accepts exactly what the encoder writes, up to the growing count: a stream read to
its end fills the count, and one that lenient decoding leaves early keeps it open and is followed by
a byte that is no opcode. -/
theorem operations_accepts_encodings (strictOpcodes : Bool) (table : Option StringTable)
    (declared base : Nat) (bytes : List UInt8) (ops : List Operation) :
    let d : Decoder := ⟨⟨strictOpcodes, true⟩, table⟩
    (d.operations declared (.ofBytes base bytes) = .ok (ops, none) ↔
      (∀ op ∈ ops, op.Decodable table) ∧ Fills declared ops ∧ encodeAll ops <+: bytes) ∧
    ∀ stop : EarlyStop,
      d.operations declared (.ofBytes base bytes) = .ok (ops, some stop) ↔
        strictOpcodes = false ∧ (∀ op ∈ ops, op.Decodable table) ∧ LeavesOpen declared ops ∧
          encodeAll ops ++ [stop.opcode] <+: bytes ∧ Opcode.ofByte? stop.opcode = none ∧
          stop.offset = base + (encodeAll ops).length := by
  intro d
  have hinit (front : List UInt8) :
      front <+: bytes ↔ ∃ rest, (ByteReader.ofBytes base bytes).Takes front rest :=
    (ByteReader.exists_takes_iff_prefix (r := .ofBytes base bytes)).symm
  constructor
  · rw [hinit]
    constructor
    · intro h
      obtain ⟨hdecodable, rest, htakes, hends⟩ := takes_of_operations rfl h
      exact ⟨hdecodable, hends, rest, htakes⟩
    · rintro ⟨hdecodable, hfills, rest, htakes⟩
      exact operations_of_takes hdecodable htakes hfills
  · intro stop
    rw [hinit]
    constructor
    · intro h
      obtain ⟨hdecodable, rest, htakes, hopen, hnext⟩ := takes_of_operations rfl h
      obtain ⟨hlenient, hfollows, hopcode, hoffset⟩ := next_eq_unknown_iff.1 hnext
      obtain ⟨s, hbyte⟩ := ByteReader.exists_takes_iff_prefix.2 hfollows
      exact ⟨hlenient, hdecodable, hopen, ⟨s, htakes.append hbyte⟩, hopcode,
        hoffset.trans htakes.2⟩
    · rintro ⟨hlenient, hdecodable, hopen, ⟨s, htakes⟩, hopcode, hoffset⟩
      obtain ⟨rest, htakes, hbyte⟩ := ByteReader.takes_append.1 htakes
      refine operations_of_takes hdecodable htakes ⟨hopen, next_eq_unknown_iff.2 ?_⟩
      exact ⟨hlenient, ByteReader.exists_takes_iff_prefix.1 ⟨s, hbyte⟩, hopcode,
        hoffset.trans htakes.2.symm⟩

end Decoder

end DemoReel
