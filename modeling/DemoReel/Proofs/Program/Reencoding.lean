import DemoReel.Proofs.Program.Layout
import Mathlib

/-!
# Writing a decoded program again

A decoded program need not be one that the byte format can hold.  Text that was read leniently may
have outgrown its length field, and a block among the children of a block leaves its own children at
the top level, where they are counted once more.  Written again, a program comes back as it was
exactly if nothing of this happened.
-/

namespace DemoReel

/-- The program written again, from what decoding kept of it. -/
def DemoProgram.reencode (p : DemoProgram) : List UInt8 :=
  encodeProgram p.demoId p.spriteIds p.operations

/-- Header, sprite list and operations have room for what the program holds: its top-level
operations are as many as the header declares, every text fits its length field, and the payload
fits its size field. -/
structure DemoProgram.Roomy (p : DemoProgram) : Prop where
  count : p.operations.length % 65536 = p.declaredCount.toNat
  texts : ∀ op ∈ Forest.flatten p.operations, op.Fits
  size : (encodePayload p.spriteIds p.operations).length < 2 ^ 32

namespace Decoder

open Operation

variable {d : Decoder} {r rest : ByteReader}

/-! ## Reading what was written -/

/-- Where its own encoding stands, a text is read only if it fits the length field. -/
theorem fits_of_text {text : DemoText} {tail : List UInt8} (h : d.text r = .ok (text, rest))
    (hwithin : r.rest <+: text.encode ++ tail) : text.Fits ∧ r.Takes text.encode rest := by
  obtain ⟨-, length, bytes, hbytes, htakes, htext⟩ := text_eq_ok h
  have hlossy : Utf8.decodeLossy bytes = text.raw :=
    htext.elim Utf8.decodeLossy_of_decode fun hlenient ↦ hlenient.2.symm
  have hfront : LittleEndian.u16 length ++ bytes <+:
      LittleEndian.u16 (UInt16.ofNat (Utf8.encode text.raw).length) ++
        (Utf8.encode text.raw ++ tail) := by
    rw [← List.append_assoc]
    exact (List.prefix_append _ rest.rest).trans (htakes.1 ▸ hwithin)
  obtain ⟨hlength, hraw⟩ :=
    append_prefix_append (by rw [LittleEndian.length_u16, LittleEndian.length_u16]) hfront
  obtain rfl := LittleEndian.u16_injective hlength
  rw [UInt16.toNat_ofNat'] at hbytes
  have hinside : bytes <+: Utf8.encode text.raw :=
    List.prefix_of_prefix_length_le hraw (List.prefix_append _ tail) (by omega)
  have hclose := Utf8.length_encode_le hinside hlossy
  have hfits : (Utf8.encode text.raw).length ≤ 65535 := by omega
  obtain rfl := hinside.eq_of_length (by omega)
  exact ⟨hfits, htakes⟩

theorem takes_of_operation_of_prefix {opcode : Opcode} {op : Operation} {tail : List UInt8}
    (h : d.operation opcode r = .ok (op, rest)) (hwithin : r.rest <+: op.fields ++ tail) :
    op.Decodable d.strings ∧ r.Takes op.fields rest := by
  obtain ⟨-, -, hread⟩ := readAs_of_operation h
  cases hread with
  | encoded decodable takes => exact ⟨decodable, takes⟩
  | text fields takes read hasText decodable =>
    rw [fields, takes.1, List.append_assoc] at hwithin
    obtain ⟨hfits, htext⟩ := fits_of_text read ((List.prefix_append_right_inj _).1 hwithin)
    exact ⟨decodable hfits, fields ▸ takes.append htext⟩

theorem takes_of_next_of_prefix {op : Operation} {tail : List UInt8}
    (h : d.next r = .ok (.operation op rest)) (hwithin : r.rest <+: op.encode ++ tail) :
    op.Decodable d.strings ∧ r.Takes op.encode rest := by
  obtain ⟨byte, s, opcode, hbyte, hopcode, hop⟩ := next_eq_operation_iff.1 h
  obtain ⟨hop?, hchildren, -⟩ := readAs_of_operation hop
  have hencode : op.encode = byte :: op.fields := by
    rw [encode_eq_cons hchildren, opcodeByte_of_opcode? hop?, Opcode.toByte_of_ofByte? hopcode]
  have hfields : s.rest <+: op.fields ++ tail := by
    rw [hencode, hbyte.1] at hwithin
    exact (List.cons_prefix_cons.1 hwithin).2
  obtain ⟨hdecodable, htakes⟩ := takes_of_operation_of_prefix hop hfields
  exact ⟨hdecodable, hencode ▸ ByteReader.takes_cons.2 ⟨s, hbyte, htakes⟩⟩

/-- A stream that is found within its own encoding takes up all of it. -/
theorem eq_encodeAll_of_operations {declared : Nat} {ops : List Operation}
    (h : d.operations declared r = .ok (ops, none)) (hwithin : r.rest <+: encodeAll ops) :
    (∀ op ∈ ops, op.Decodable d.strings) ∧ r.rest = encodeAll ops := by
  induction ops generalizing declared r with
  | nil => exact ⟨nofun, List.prefix_nil.1 hwithin⟩
  | cons op ops ih =>
    cases declared with
    | zero =>
      rw [operations_zero] at h
      cases h
    | succ declared =>
      obtain ⟨_, _, hnil, _⟩ | ⟨_, s, _, hnext, hcons, hmore⟩ := operations_succ_eq_ok_iff.1 h
      · cases hnil
      · cases hcons
        rw [encodeAll] at hwithin ⊢
        obtain ⟨hdecodable, htakes⟩ := takes_of_next_of_prefix hnext hwithin
        rw [htakes.1] at hwithin ⊢
        obtain ⟨hall, hrest⟩ := ih hmore ((List.prefix_append_right_inj _).1 hwithin)
        exact ⟨List.forall_mem_cons.2 ⟨hdecodable, hall⟩, congrArg _ hrest⟩

/-! ## Programs -/

/-- What was written of a program is read from front to back as far as it goes. -/
theorem payload_of_read_encodeProgram {demoId : UInt16} {ids : List UInt16}
    {forest : List Operation} {raw : RawProgram} {rest : ByteReader}
    (h : RawProgram.read (.ofBytes 0 (encodeProgram demoId ids forest)) = .ok (raw, rest)) :
    raw.declaredCount = UInt16.ofNat forest.length ∧
      raw.payload.length = (encodePayload ids forest).length % 2 ^ 32 ∧
      raw.payload <+: encodePayload ids forest := by
  obtain ⟨-, size, hsize, htakes⟩ := takes_of_read h
  have hwithin : LittleEndian.u16 raw.demoId ++ (LittleEndian.u16 raw.declaredCount ++
      (LittleEndian.u32 size ++ raw.payload)) <+:
      LittleEndian.u16 demoId ++ (LittleEndian.u16 (UInt16.ofNat forest.length) ++
        (LittleEndian.u32 (UInt32.ofNat (encodePayload ids forest).length) ++
          encodePayload ids forest)) := by
    have hbytes : encodeProgram demoId ids forest = _ := htakes.1
    rw [encodeProgram_eq] at hbytes
    simp only [List.append_assoc] at hbytes
    exact ⟨rest.rest, by simpa only [List.append_assoc] using hbytes.symm⟩
  obtain ⟨-, hwithin⟩ := append_prefix_append (by simp) hwithin
  obtain ⟨hcount, hwithin⟩ := append_prefix_append (by simp) hwithin
  obtain ⟨hlength, hpayload⟩ := append_prefix_append (by simp) hwithin
  refine ⟨LittleEndian.u16_injective hcount, ?_, hpayload⟩
  rw [← hsize, LittleEndian.u32_injective hlength, UInt32.toNat_ofNat']

/-- The sprite list is found as it was written, and the operations behind it. -/
theorem operations_of_prefix_encodePayload {ids ids' : List UInt16} {forest : List Operation}
    {base : Nat} {payload : List UInt8} {s : ByteReader} (hids : ids.length ≤ 65535)
    (hids' : ids'.length ≤ 65535) (hwithin : payload <+: encodePayload ids forest)
    (htakes : (ByteReader.ofBytes base payload).Takes
      (LittleEndian.u16 (UInt16.ofNat ids'.length) ++ ids'.flatMap LittleEndian.u16) s) :
    s.rest <+: encodeAll forest ∧
      (s.rest = encodeAll forest → payload = encodePayload ids forest) := by
  have hpayload : payload = LittleEndian.u16 (UInt16.ofNat ids'.length) ++
      (ids'.flatMap LittleEndian.u16 ++ s.rest) := by
    rw [← List.append_assoc]
    exact htakes.1
  rw [hpayload, encodePayload, List.append_assoc] at hwithin ⊢
  obtain ⟨hcount, hwithin⟩ := append_prefix_append (by simp) hwithin
  have hsame : ids'.length = ids.length := by
    have hsize := congrArg UInt16.toNat (LittleEndian.u16_injective hcount)
    rwa [UInt16.toNat_ofNat_of_lt' (Nat.lt_succ_of_le hids'),
      UInt16.toNat_ofNat_of_lt' (Nat.lt_succ_of_le hids)] at hsize
  obtain ⟨hlist, hwithin⟩ := append_prefix_append
    (by rw [length_flatMap_u16, length_flatMap_u16, hsame]) hwithin
  exact ⟨hwithin, fun hrest ↦ by rw [hcount, hlist, hrest]⟩

/-- The program is a whole one and holds what the other one holds. -/
structure Matches (decoded : DecodedProgram) (p : DemoProgram) : Prop where
  stoppedAt : decoded.toProgram.stoppedAt = none
  demoId : decoded.toProgram.demoId = p.demoId
  spriteIds : decoded.toProgram.spriteIds = p.spriteIds
  operations : decoded.toProgram.operations = p.operations

theorem exists_matches_of_roomy {bytes : List UInt8} {decoded : DecodedProgram}
    (h : d.decodeProgram bytes = .ok decoded) (hstop : decoded.stoppedAt = none)
    (hroomy : decoded.toProgram.Roomy) :
    ∃ again, d.decodeProgram decoded.toProgram.reencode = .ok again ∧
      Matches again decoded.toProgram := by
  obtain ⟨hlegible, hfills, hids, hascending⟩ := spec_of_decodeProgram h
  have hflat := Forest.flatten_childless fun op hop ↦ (hlegible op hop).childless
  have hdecodable (op : Operation) (hop : op ∈ decoded.operations) : op.Decodable d.strings := by
    apply (hlegible op hop).decodable (hroomy.texts op _)
    rwa [DecodedProgram.toProgram, Forest.flatten_ofFlat, hflat]
  have hcount : (UInt16.ofNat decoded.toProgram.operations.length).toNat =
      decoded.declaredCount.toNat := by
    rw [UInt16.toNat_ofNat']
    exact hroomy.count
  obtain ⟨rest, -, htakes⟩ := ByteReader.exists_takes
    (r := .ofBytes 0 decoded.toProgram.reencode) (List.append_nil _).symm
  rw [DemoProgram.reencode, encodeProgram_eq] at htakes
  have hread := read_of_takes hroomy.size htakes
  obtain ⟨rest', -, hpayload⟩ := ByteReader.exists_takes
    (r := .ofBytes 8 (encodePayload decoded.spriteIds decoded.toProgram.operations))
    (List.append_nil _).symm
  obtain ⟨s, hlist, hops⟩ := ByteReader.takes_append.1 hpayload
  rw [DecodedProgram.toProgram, Forest.encodeAll_ofFlat] at hops
  have hoperations : d.operations (UInt16.ofNat decoded.toProgram.operations.length).toNat s =
      .ok (decoded.operations, none) :=
    operations_of_takes hdecodable hops (hcount ▸ hfills hstop)
  have hraw : d.decodeRaw ⟨decoded.demoId, _, _, 8⟩ = .ok _ := decodeRaw_eq_ok_iff.2
    ⟨decoded.spriteIds, s, decoded.operations, none, hids, hlist, hoperations, rfl⟩
  refine ⟨_, decodeProgram_eq_ok_iff.2 ⟨_, rest, hread, hraw⟩, rfl, rfl, ?_, rfl⟩
  exact distinctAscending_of_pairwise hascending

theorem roomy_of_matches {bytes : List UInt8} {decoded again : DecodedProgram}
    (h : d.decodeProgram bytes = .ok decoded) (hstop : decoded.stoppedAt = none)
    (hagain : d.decodeProgram decoded.toProgram.reencode = .ok again)
    (hmatches : Matches again decoded.toProgram) : decoded.toProgram.Roomy := by
  obtain ⟨hlegible, hfills, hids, -⟩ := spec_of_decodeProgram h
  have hflat := Forest.flatten_childless fun op hop ↦ (hlegible op hop).childless
  obtain ⟨hlegible', -⟩ := spec_of_decodeProgram hagain
  have hflat' := Forest.flatten_childless fun op hop ↦ (hlegible' op hop).childless
  have hops : again.operations = decoded.operations := by
    have hforest : Forest.ofFlat again.operations = Forest.ofFlat decoded.operations :=
      hmatches.operations
    rw [← hflat, ← hflat', ← Forest.flatten_ofFlat, hforest, Forest.flatten_ofFlat]
  obtain ⟨raw, rest, hread, hraw⟩ := decodeProgram_eq_ok_iff.1 hagain
  obtain ⟨hcount, hlength, hwithin⟩ := payload_of_read_encodeProgram hread
  obtain ⟨ids, s, ops, stop, hids', hlist, hstream, rfl⟩ := decodeRaw_eq_ok_iff.1 hraw
  obtain rfl : stop = none := hmatches.stoppedAt
  obtain rfl : ops = decoded.operations := hops
  obtain ⟨hinside, hall⟩ := operations_of_prefix_encodePayload hids hids' hwithin hlist
  rw [DecodedProgram.toProgram, Forest.encodeAll_ofFlat] at hinside hall
  obtain ⟨hdecodable, hrest⟩ := eq_encodeAll_of_operations hstream hinside
  have hpayload := hall hrest
  refine ⟨?_, fun op hop ↦ ?_, ?_⟩
  · have hdeclared := (hfills hstop).eq ((legible_of_operations hstream).2 rfl)
    rw [hcount, UInt16.toNat_ofNat'] at hdeclared
    exact hdeclared.symm
  · rw [DecodedProgram.toProgram, Forest.flatten_ofFlat, hflat] at hop
    exact (hdecodable op hop).fits
  · rw [hpayload] at hlength
    have hsize := Nat.mod_lt (encodePayload decoded.toProgram.spriteIds
      decoded.toProgram.operations).length (y := 2 ^ 32) (by decide)
    exact lt_of_eq_of_lt hlength hsize

/-- With strict text only the number of top-level operations can be in the way: what is written
again is no longer than what was read. -/
theorem roomy_iff_of_strictText (hstrict : d.options.strictText = true) {bytes : List UInt8}
    {decoded : DecodedProgram} (h : d.decodeProgram bytes = .ok decoded) :
    decoded.toProgram.Roomy ↔
      decoded.toProgram.operations.length % 65536 = decoded.declaredCount.toNat := by
  refine ⟨fun hroomy ↦ hroomy.count, fun hcount ↦ ?_⟩
  obtain ⟨hlegible, -⟩ := spec_of_decodeProgram h
  have hflat := Forest.flatten_childless fun op hop ↦ (hlegible op hop).childless
  obtain ⟨raw, rest, hread, hraw⟩ := decodeProgram_eq_ok_iff.1 h
  obtain ⟨ids, s, ops, stop, -, hlist, hops, rfl⟩ := decodeRaw_eq_ok_iff.1 hraw
  obtain ⟨hdecodable, rest', htakes, -⟩ := takes_of_operations hstrict hops
  refine ⟨hcount, fun op hop ↦ ?_, ?_⟩
  · rw [DecodedProgram.toProgram, Forest.flatten_ofFlat, hflat] at hop
    exact (hdecodable op hop).fits
  · have hpayload : raw.payload.length =
        2 + 2 * ids.length + (encodeAll ops).length + rest'.rest.length := by
      have hwhole := congrArg List.length (hlist.append htakes).1
      rwa [List.length_append, List.length_append, length_spriteList] at hwhole
    have hids := length_distinctAscending_le ids
    obtain ⟨-, size, hsize, -⟩ := takes_of_read hread
    have hbound := size.toNat_lt
    rw [length_encodePayload, DecodedProgram.toProgram, Forest.encodeAll_ofFlat]
    dsimp only
    omega

/-- A program that was decoded to its end comes back from what is written of it exactly if it is
roomy. -/
theorem reencode_matches_iff {bytes : List UInt8} {decoded : DecodedProgram}
    (h : d.decodeProgram bytes = .ok decoded) (hstop : decoded.stoppedAt = none) :
    (∃ again, d.decodeProgram decoded.toProgram.reencode = .ok again ∧
      Matches again decoded.toProgram) ↔ decoded.toProgram.Roomy := by
  constructor
  · rintro ⟨again, hagain, hmatches⟩
    exact roomy_of_matches h hstop hagain hmatches
  · exact exists_matches_of_roomy h hstop

/-- A block with two children comes back. -/
theorem reencode_matches_of_block :
    ∃ decoded, decodeProgram {} [7, 0, 1, 0, 6, 0, 0, 0, 0, 0, 0, 2, 15, 15] = .ok decoded ∧
      decoded.stoppedAt = none ∧ ∃ again,
        decodeProgram {} decoded.toProgram.reencode = .ok again ∧
          Matches again decoded.toProgram := by
  obtain ⟨decoded, h, hstop, hcount⟩ : ∃ decoded,
      decodeProgram {} [7, 0, 1, 0, 6, 0, 0, 0, 0, 0, 0, 2, 15, 15] = .ok decoded ∧
        decoded.stoppedAt = none ∧
        decoded.toProgram.operations.length % 65536 = decoded.declaredCount.toNat := by
    refine ⟨⟨7, 1, [], [.block 2 [], .leaf .hideDemoSprite, .leaf .hideDemoSprite],
      [0, 0, 0, 2, 15, 15], 2, none⟩, ?_, rfl, ?_⟩
    · cbv
    · cbv
  exact ⟨decoded, h, hstop,
    (reencode_matches_iff h hstop).2 ((roomy_iff_of_strictText rfl h).2 hcount)⟩

/-- A block in a block does not: its child stands at the top level, and counted there it is asked
for a second time. -/
theorem not_matches_of_nestedBlock :
    ∃ decoded, decodeProgram {} [7, 0, 1, 0, 8, 0, 0, 0, 0, 0, 0, 2, 0, 1, 15, 15] = .ok decoded ∧
      decoded.stoppedAt = none ∧
      decodeProgram {} decoded.toProgram.reencode = .error (.outOfRange 16 1 0) := by
  refine ⟨⟨7, 1, [], [.block 2 [], .block 1 [], .leaf .hideDemoSprite, .leaf .hideDemoSprite],
    [0, 0, 0, 2, 0, 1, 15, 15], 2, none⟩, ?_, rfl, ?_⟩
  · cbv
  · cbv

end Decoder

end DemoReel
