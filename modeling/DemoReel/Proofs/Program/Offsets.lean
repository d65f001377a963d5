import DemoReel.Proofs.Program.Catalog
import DemoReel.Proofs.Program.Failing
import Mathlib

/-!
# The offsets that an archive reports

Offsets count from the start of the chunk, also where a program is decoded from its payload alone.
Wherever an archive names an offset, that place is inside the payload of the program concerned and
holds what the archive says it does; only a header that is cut short is reported against the end of
the chunk.
-/

namespace DemoReel

/-! ## Places in a payload -/

namespace RawProgram

variable {d : Decoder} {raw : RawProgram} {chunk : List UInt8}

/-- The offset is that of a byte of the payload. -/
def Covers (raw : RawProgram) (offset : Nat) : Prop :=
  raw.payloadOffset ≤ offset ∧ offset < raw.payloadOffset + raw.payload.length

/-- The chunk has this byte at a place of the payload, and it is no opcode. -/
structure UnknownAt (raw : RawProgram) (chunk : List UInt8) (offset : Nat) (opcode : UInt8) :
    Prop where
  covers : raw.Covers offset
  byte : chunk[offset]? = some opcode
  unknown : Opcode.ofByte? opcode = none

/-- A text field, with everything that stands before it and behind it in a payload. -/
structure TextField where
  ids : List UInt16
  /-- What is read before the operation with the text. -/
  operations : List Operation
  opcode : Opcode
  /-- The fields between the opcode and the text. -/
  front : List UInt8
  bytes : List UInt8
  behind : List UInt8

/-- Everything up to the first byte of the text. -/
def TextField.before (field : TextField) : List UInt8 :=
  LittleEndian.u16 (UInt16.ofNat field.ids.length) ++ field.ids.flatMap LittleEndian.u16 ++
    Operation.encodeAll field.operations ++ (field.opcode.toByte :: field.front) ++
    LittleEndian.u16 (UInt16.ofNat field.bytes.length)

/-- Decoding the payload comes to this text: the operations before it are well-formed, and there are
fewer of them than the header and the blocks among them ask for. -/
structure TextField.In (field : TextField) (d : Decoder) (raw : RawProgram) : Prop where
  payload : raw.payload = field.before ++ field.bytes ++ field.behind
  ids : field.ids.length ≤ 65535
  bytes : field.bytes.length ≤ 65535
  decodable : ∀ op ∈ field.operations, op.Decodable d.strings
  owed : Operation.LeavesOpen raw.declaredCount.toNat field.operations
  front : field.opcode.textStart? = some field.front.length

/-- What an error about a payload says of the chunk is so. -/
inductive FailsIn (d : Decoder) (chunk : List UInt8) (raw : RawProgram) : DecodeError → Prop
  | short {offset requested remaining : Nat} (starts : raw.payloadOffset ≤ offset)
    (left : offset + remaining = raw.payloadOffset + raw.payload.length)
    (short : remaining < requested) : raw.FailsIn d chunk (.outOfRange offset requested remaining)
  | unknown {offset : Nat} {opcode : UInt8} (strict : d.options.strictOpcodes = true)
    (stands : raw.UnknownAt chunk offset opcode) :
    raw.FailsIn d chunk (.unknownOpcode offset opcode)
  | illFormed {textOffset : Nat} {fault : Utf8.Fault} {field : TextField} {place : Nat}
    (strict : d.options.strictText = true)
    (covers : raw.Covers (DecodeError.malformedText textOffset fault).offset)
    (comes : field.In d raw) (breaks : Utf8.BreaksAt field.bytes place)
    (offset : (DecodeError.malformedText textOffset fault).offset =
      raw.payloadOffset + field.before.length + place) :
    raw.FailsIn d chunk (.malformedText textOffset fault)

/-- The chunk holds the payload at the offset that the program gives. -/
def StandsIn (raw : RawProgram) (chunk : List UInt8) : Prop :=
  ∃ before behind, chunk = before ++ raw.payload ++ behind ∧ before.length = raw.payloadOffset

/-- An unknown opcode found on the way down a payload is where the chunk has it. -/
theorem unknownAt_of_reaches {s : ByteReader} {opcode : UInt8} (hstands : raw.StandsIn chunk)
    (hreaches : (ByteReader.ofBytes raw.payloadOffset raw.payload).Reaches s)
    (hbyte : [opcode] <+: s.rest) (hunknown : Opcode.ofByte? opcode = none) :
    raw.UnknownAt chunk s.offset opcode := by
  obtain ⟨before, behind, rfl, hbefore⟩ := hstands
  obtain ⟨bytes, hpayload, hoffset⟩ := hreaches
  obtain ⟨more, hmore⟩ := hbyte
  change raw.payload = bytes ++ s.rest at hpayload
  change s.offset = raw.payloadOffset + bytes.length at hoffset
  rw [← hmore] at hpayload
  refine ⟨⟨?_, ?_⟩, ?_, hunknown⟩
  · omega
  · rw [hoffset, hpayload]
    simp
  · have hplace : s.offset = (before ++ bytes).length := by
      rw [hoffset, List.length_append, hbefore]
    rw [hpayload, hplace]
    simp

/-- Decoding that stops early names the byte in the way. -/
theorem unknownAt_of_stop {decoded : DecodedProgram} {stop : EarlyStop}
    (hstands : raw.StandsIn chunk) (h : d.decodeRaw raw = .ok decoded)
    (hstop : decoded.stoppedAt = some stop) : raw.UnknownAt chunk stop.offset stop.opcode := by
  obtain ⟨ids, s, ops, _, -, hlist, hops, rfl⟩ := Decoder.decodeRaw_eq_ok_iff.1 h
  cases hstop
  obtain ⟨rest, hreads, -, hnext⟩ := Decoder.reads_of_operations hops
  obtain ⟨-, hbyte, hunknown, hoffset⟩ := Decoder.next_eq_unknown_iff.1 hnext
  rw [hoffset]
  exact unknownAt_of_reaches hstands (hlist.reaches.trans hreads.reaches) hbyte hunknown

theorem failsIn_of_overruns {e : DecodeError}
    (h : (ByteReader.ofBytes raw.payloadOffset raw.payload).Overruns e) :
    raw.FailsIn d chunk e := by
  obtain ⟨s, requested, hreaches, hshort, rfl⟩ := h
  obtain ⟨hoffset, hleft⟩ := hreaches.bounds
  exact .short hoffset hleft hshort

/-- A text that is refused is refused where it stops being UTF-8. -/
theorem failsIn_of_refusesText {e : DecodeError} {ids : List UInt16} {ops : List Operation}
    {opcode : Opcode} {front bytes : List UInt8} {s t u : ByteReader}
    (hlist : (ByteReader.ofBytes raw.payloadOffset raw.payload).Takes
      (LittleEndian.u16 (UInt16.ofNat ids.length) ++ ids.flatMap LittleEndian.u16) s)
    (hids : ids.length ≤ 65535) (hreads : d.Reads s ops t)
    (howed : Operation.LeavesOpen raw.declaredCount.toNat ops)
    (hstart : opcode.textStart? = some front.length) (hfront : t.Takes (opcode.toByte :: front) u)
    (hrefuses : d.RefusesText u bytes e) : raw.FailsIn d chunk e := by
  obtain ⟨hstrict, hlength, ⟨v, hbytes⟩, fault, hdecode, rfl⟩ := hrefuses
  obtain ⟨hdecodable, hops⟩ := hreads.takes hstrict
  have hbreaks := Utf8.breaksAt_of_decode hdecode
  let field : TextField := ⟨ids, ops, opcode, front, bytes, v.rest⟩
  obtain ⟨w, hwidth, htext⟩ := ByteReader.takes_append.1 hbytes
  have hbefore : (ByteReader.ofBytes raw.payloadOffset raw.payload).Takes field.before w :=
    ((hlist.append hops).append hfront).append hwidth
  have hpayload : raw.payload = field.before ++ field.bytes ++ field.behind :=
    (hbefore.append htext).1
  have hplace : u.offset + 2 = raw.payloadOffset + field.before.length := by
    rw [← LittleEndian.length_u16 (UInt16.ofNat bytes.length), ← hwidth.2]
    exact hbefore.2
  have hoffset : (DecodeError.malformedText (u.offset + 2) fault).offset =
      raw.payloadOffset + field.before.length + fault.validLength :=
    congrArg (· + fault.validLength) hplace
  refine .illFormed hstrict ⟨?_, ?_⟩ ⟨hpayload, hids, hlength, hdecodable, howed, hstart⟩ hbreaks
    hoffset
  · omega
  · have hinside : fault.validLength < field.bytes.length := hbreaks.inside
    rw [hoffset, hpayload, List.length_append, List.length_append]
    omega

theorem failsIn_of_error {e : DecodeError} (hstands : raw.StandsIn chunk)
    (h : d.decodeRaw raw = .error e) : raw.FailsIn d chunk e := by
  obtain hover | ⟨ids, s, ops, t, hids, hlist, hreads, howed, hlast⟩ :=
    Decoder.decodeRaw_eq_error h
  · exact failsIn_of_overruns hover
  have hreaches := hlist.reaches.trans hreads.reaches
  cases hlast with
  | short overruns => exact failsIn_of_overruns (overruns.of_reaches hreaches)
  | unknown strict stands opcode error =>
    subst error
    exact .unknown strict (unknownAt_of_reaches hstands hreaches stands opcode)
  | text start takes refuses =>
    exact failsIn_of_refusesText hlist hids hreads howed start takes refuses

end RawProgram

/-! ## Payloads in a chunk -/

namespace ProgramImage

/-- The program as its header is read where it starts at this offset. -/
def rawAt (image : ProgramImage) (start : Nat) : RawProgram :=
  ⟨image.demoId, image.declaredCount, image.payload, start + 8⟩

/-- Programs that stand one after another from this offset on. -/
def rawsFrom : (start : Nat) → List ProgramImage → List RawProgram
  | _, [] => []
  | start, image :: images => image.rawAt start :: rawsFrom (start + image.bytes.length) images

theorem getElem?_rawsFrom (start : Nat) (images : List ProgramImage) (index : Nat) :
    (rawsFrom start images)[index]? = images[index]?.map fun image ↦
      image.rawAt (start + ((images.take index).flatMap bytes).length) := by
  induction images generalizing start index with
  | nil => rfl
  | cons image images ih =>
    cases index with
    | zero => rfl
    | succ index =>
      rw [rawsFrom, List.getElem?_cons_succ, List.getElem?_cons_succ, ih, List.take_succ_cons,
        List.flatMap_cons, List.length_append, Nat.add_assoc]

theorem length_rawsFrom (start : Nat) (images : List ProgramImage) :
    (rawsFrom start images).length = images.length := by
  induction images generalizing start with
  | nil => rfl
  | cons image images ih => rw [rawsFrom, List.length_cons, ih, List.length_cons]

/-- A payload stands eight bytes behind the place where its program starts. -/
theorem standsIn_rawAt {images : List ProgramImage} {index : Nat} {image : ProgramImage}
    {front tail : List UInt8} (hfront : front.length = 2) (himage : images[index]? = some image) :
    (image.rawAt (startOf images index)).StandsIn (front ++ images.flatMap bytes ++ tail) := by
  obtain ⟨hindex, rfl⟩ := List.getElem?_eq_some_iff.1 himage
  have hsplit : images.flatMap bytes = (images.take index).flatMap bytes ++
      (images[index].bytes ++ (images.drop (index + 1)).flatMap bytes) := by
    rw [← List.flatMap_cons, ← List.flatMap_append, List.getElem_cons_drop,
      List.take_append_drop]
  let header := LittleEndian.u16 images[index].demoId ++
    LittleEndian.u16 images[index].declaredCount ++
    LittleEndian.u32 (UInt32.ofNat images[index].payload.length)
  refine ⟨front ++ (images.take index).flatMap bytes ++ header,
    (images.drop (index + 1)).flatMap bytes ++ tail, ?_, ?_⟩
  · rw [hsplit, ProgramImage.bytes]
    simp only [header, rawAt, List.append_assoc]
  · have hheader : header.length = 8 := by
      simp only [header, List.length_append, LittleEndian.length_u16, LittleEndian.length_u32]
    rw [List.length_append, List.length_append, hfront, hheader]
    rfl

/-- What is read of programs are images one after another, and then the header that fails. -/
theorem exists_images_of_readMany (count : Nat) (r : ByteReader) :
    ∃ images s, (RawProgram.readMany count r).1.map Prod.fst = rawsFrom r.offset images ∧
      r.Takes (images.flatMap bytes) s ∧
      ∀ cause, (RawProgram.readMany count r).2 = some cause → RawProgram.read s = .error cause := by
  induction count generalizing r with
  | zero => exact ⟨[], r, rfl, ByteReader.takes_nil.2 rfl, nofun⟩
  | succ count ih =>
    rw [RawProgram.readMany]
    cases hread : RawProgram.read r with
    | error e =>
      refine ⟨[], r, rfl, ByteReader.takes_nil.2 rfl, fun cause hcause ↦ ?_⟩
      rw [hread, Option.some.inj hcause]
    | ok found =>
      obtain ⟨raw, rest⟩ := found
      obtain ⟨hoffset, size, hsize, htakes⟩ := Decoder.takes_of_read hread
      let image : ProgramImage :=
        ⟨raw.demoId, raw.declaredCount, raw.payload, hsize ▸ size.toNat_lt⟩
      have himage : r.Takes image.bytes rest := by
        rw [ProgramImage.bytes, ← hsize, UInt32.ofNat_toNat]
        exact htakes
      obtain ⟨images, s, hraws, himages, hfault⟩ := ih rest
      refine ⟨image :: images, s, ?_, ?_, hfault⟩
      · have hraw : image.rawAt r.offset = raw := by
          rw [rawAt, ← hoffset]
        rw [rawsFrom, hraw, ← himage.2, ← hraws]
        rfl
      · rw [List.flatMap_cons]
        exact himage.append himages

end ProgramImage

namespace Archive

open ProgramImage (startOf rawsFrom error?)

/-- Each offset in the archive is true of the chunk that it was decoded from, where these programs
stand one after another. -/
structure Truthful (d : Decoder) (chunk : List UInt8) (images : List ProgramImage)
    (archive : Archive) : Prop where
  stands : ∃ tail, chunk =
    LittleEndian.u16 archive.declaredPrograms ++ images.flatMap ProgramImage.bytes ++ tail
  /-- A program that was decoded, and where it stopped early if it did. -/
  stopped : ∀ p ∈ archive.programs, ∃ (index : Nat) (image : ProgramImage)
    (decoded : DecodedProgram), images[index]? = some image ∧
    d.decodeRaw (image.rawAt (startOf images index)) = .ok decoded ∧ p = decoded.toProgram ∧
    ∀ stop, p.stoppedAt = some stop →
      (image.rawAt (startOf images index)).UnknownAt chunk stop.offset stop.opcode
  /-- A program whose payload could not be decoded. -/
  payload : ∀ e ∈ archive.errors, ∀ id, e.demoId = some id → ∃ image : ProgramImage,
    images[e.index]? = some image ∧ image.demoId = id ∧
      (image.rawAt (startOf images e.index)).FailsIn d chunk e.cause
  /-- A program whose header, or the payload it announces, is cut short. -/
  header : ∀ e ∈ archive.errors, e.demoId = none → e.index = images.length ∧
    ∃ offset requested remaining, e.cause = .outOfRange offset requested remaining ∧
      startOf images images.length ≤ offset ∧ offset + remaining = chunk.length ∧
      remaining < requested

/-- Where the programs of an archive stand, and at which header it was given up. -/
theorem Catalog.exists_images_of_read {chunk : List UInt8} {catalog : Catalog}
    (h : Catalog.read chunk = .ok catalog) :
    ∃ images s, catalog.raws = rawsFrom 2 images ∧
      (ByteReader.ofBytes 0 chunk).Takes
        (LittleEndian.u16 catalog.declared ++ images.flatMap ProgramImage.bytes) s ∧
      ∀ cause, catalog.fault = some cause → RawProgram.read s = .error cause := by
  obtain ⟨⟨declared, r⟩, hdeclared, hfound⟩ := bind_eq_ok_iff.1 h
  obtain rfl := Except.ok.inj hfound
  rw [ByteReader.u16_eq_ok_iff] at hdeclared
  obtain ⟨images, s, hraws, himages, hfault⟩ :=
    ProgramImage.exists_images_of_readMany declared.toNat r
  have hoffset : r.offset = 2 := by
    rw [hdeclared.2, LittleEndian.length_u16]
    rfl
  rw [hoffset] at hraws
  exact ⟨images, s, hraws, hdeclared.append himages, hfault⟩

/-- A program of the catalog is the image at its position. -/
theorem exists_image_of_mem_zipIdx {images : List ProgramImage} {entry : RawProgram × Nat}
    (h : entry ∈ (rawsFrom 2 images).zipIdx 0) :
    ∃ image : ProgramImage, images[entry.2]? = some image ∧
      image.rawAt (startOf images entry.2) = entry.1 := by
  rw [List.mem_zipIdx_iff_getElem?, ProgramImage.getElem?_rawsFrom, Option.map_eq_some_iff] at h
  exact h

theorem truthful_decode {d : Decoder} {chunk : List UInt8} {catalog : Catalog}
    {images : List ProgramImage} {s : ByteReader} (hraws : catalog.raws = rawsFrom 2 images)
    (htakes : (ByteReader.ofBytes 0 chunk).Takes
      (LittleEndian.u16 catalog.declared ++ images.flatMap ProgramImage.bytes) s)
    (hfault : ∀ cause, catalog.fault = some cause → RawProgram.read s = .error cause) :
    Truthful d chunk images (catalog.decode d) := by
  have hchunk : chunk =
      LittleEndian.u16 catalog.declared ++ images.flatMap ProgramImage.bytes ++ s.rest :=
    htakes.1
  have hstands {index : Nat} {image : ProgramImage} (himage : images[index]? = some image) :
      (image.rawAt (startOf images index)).StandsIn chunk := by
    rw [hchunk]
    exact ProgramImage.standsIn_rawAt (LittleEndian.length_u16 _) himage
  refine ⟨⟨s.rest, hchunk⟩, fun p hp ↦ ?_, fun e he id hid ↦ ?_, fun e he hid ↦ ?_⟩
  · obtain ⟨entry, hentry, hok⟩ := mem_programs_outcomesAt.1 hp
    rw [hraws] at hentry
    obtain ⟨image, himage, hraw⟩ := exists_image_of_mem_zipIdx hentry
    obtain ⟨decoded, hdecoded, rfl⟩ := outcomeAt_eq_ok hok
    rw [← hraw] at hdecoded
    exact ⟨entry.2, image, decoded, himage, hdecoded, rfl, fun stop hstop ↦
      RawProgram.unknownAt_of_stop (hstands himage) hdecoded hstop⟩
  · obtain hpayload | hheader := List.mem_append.1 he
    · obtain ⟨entry, hentry, herror⟩ := mem_errors_outcomesAt.1 hpayload
      rw [hraws] at hentry
      obtain ⟨image, himage, hraw⟩ := exists_image_of_mem_zipIdx hentry
      obtain ⟨hindex, hknown, hcause⟩ := outcomeAt_eq_error herror
      rw [← hindex] at himage hraw
      rw [← hraw] at hknown hcause
      exact ⟨image, himage, Option.some.inj (hknown.symm.trans hid),
        RawProgram.failsIn_of_error (hstands himage) hcause⟩
    · obtain ⟨cause, -, rfl⟩ := Option.map_eq_some_iff.1 (Option.mem_toList.1 hheader)
      cases hid
  · obtain hpayload | hheader := List.mem_append.1 he
    · have hknown := isSome_demoId_of_mem_errors hpayload
      rw [hid] at hknown
      cases hknown
    · obtain ⟨cause, hcause, rfl⟩ := Option.map_eq_some_iff.1 (Option.mem_toList.1 hheader)
      obtain ⟨t, requested, hreaches, hshort, rfl⟩ :=
        Decoder.overruns_read.error (hfault cause hcause)
      refine ⟨?_, t.offset, requested, t.remaining, rfl, ?_, ?_, hshort⟩
      · rw [← ProgramImage.length_rawsFrom 2 images, ← hraws]
        rfl
      · have hstart : startOf images images.length = s.offset := by
          rw [startOf, List.take_length, htakes.2, List.length_append, LittleEndian.length_u16]
          exact (Nat.zero_add _).symm
        rw [hstart]
        exact hreaches.bounds.1
      · have hleft := (htakes.reaches.trans hreaches).bounds.2
        exact hleft.trans (Nat.zero_add _)

/-- An archive names no offset that is not so.  Where a program stopped early, the chunk has the
unknown opcode at that place of its payload; an error about a payload lies inside it, and says truly
which bytes were left, which opcode is unknown or where a text stops being UTF-8; and a header error
lies in front of the end of the chunk by as many bytes as it says. -/
theorem reported_offsets_are_true {d : Decoder} {chunk : List UInt8} {archive : Archive}
    (h : decode d chunk = .ok archive) : ∃ images, Truthful d chunk images archive := by
  obtain ⟨catalog, hread, rfl⟩ := decode_eq_ok_iff.1 h
  obtain ⟨images, s, hraws, htakes, hfault⟩ := Catalog.exists_images_of_read hread
  exact ⟨images, truthful_decode hraws htakes hfault⟩

/-- A program that stops early, one without a sprite list, one with a text that is not UTF-8, and
the first bytes of a header. -/
def fourFaults : List UInt8 :=
  [4, 0, 1, 0, 1, 0, 3, 0, 0, 0, 0, 0, 255, 2, 0, 0, 0, 0, 0, 0, 0, 3, 0, 1, 0, 7, 0, 0, 0, 0, 0,
    27, 2, 0, 97, 255, 4, 0, 1]

theorem reported_offsets_are_true_of_faults :
    ∃ archive images, decode {} fourFaults = .ok archive ∧
      Truthful {} fourFaults images archive ∧
      archive.programs.map DemoProgram.stoppedAt = [some ⟨12, 255⟩] ∧
      archive.errors = [⟨1, some 2, .outOfRange 21 2 0⟩, ⟨2, some 3, .malformedText 34 ⟨1, some 1⟩⟩,
        ⟨3, none, .outOfRange 38 2 1⟩] := by
  have hdecode : decode {} fourFaults =
      .ok ⟨4, [⟨1, 1, [], [0, 0, 255], 2, [], some ⟨12, 255⟩⟩],
        [⟨1, some 2, .outOfRange 21 2 0⟩, ⟨2, some 3, .malformedText 34 ⟨1, some 1⟩⟩,
          ⟨3, none, .outOfRange 38 2 1⟩]⟩ := by
    cbv
  obtain ⟨images, htruthful⟩ := reported_offsets_are_true hdecode
  exact ⟨_, images, hdecode, htruthful, rfl, rfl⟩

end Archive

end DemoReel
