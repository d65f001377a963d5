import DemoReel.Program.Archive
import DemoReel.Program.Encoding
import DemoReel.Proofs.Program.Layout
import DemoReel.Proofs.Program.Shifting

/-!
# Programs of an archive do not disturb one another

A header gives the size of its payload, and decoding a payload never leaves it.  So each program of
an archive comes out as it does on its own, whatever its neighbours hold; only its offsets are those
of the place where it stands.
-/

namespace DemoReel

/-- A program as it stands in an archive: a header, and a payload that may hold anything. -/
structure ProgramImage where
  demoId : UInt16
  declaredCount : UInt16
  payload : List UInt8
  length_payload : payload.length < 2 ^ 32

namespace ProgramImage

def bytes (image : ProgramImage) : List UInt8 :=
  LittleEndian.u16 image.demoId ++ LittleEndian.u16 image.declaredCount ++
    LittleEndian.u32 (UInt32.ofNat image.payload.length) ++ image.payload

theorem length_bytes (image : ProgramImage) : image.bytes.length = 8 + image.payload.length := by
  simp only [bytes, List.length_append, LittleEndian.length_u16, LittleEndian.length_u32]

/-- Where the program at this position starts in the archive, behind the count of programs. -/
def startOf (images : List ProgramImage) (index : Nat) : Nat :=
  2 + ((images.take index).flatMap bytes).length

/-- What comes of the program, decoded on its own and then moved to the place where it stands. -/
def outcome (d : Decoder) (index start : Nat) (image : ProgramImage) :
    Except ArchiveError DemoProgram :=
  match d.decodeProgram image.bytes with
  | .ok decoded => .ok (decoded.toProgram.shift start)
  | .error cause => .error ⟨index, some image.demoId, cause.shift start⟩

/-- What comes of each program. -/
def outcomes (d : Decoder) (images : List ProgramImage) : List (Except ArchiveError DemoProgram) :=
  images.mapIdx fun index image ↦ image.outcome d index (startOf images index)

def error? : Except ArchiveError DemoProgram → Option ArchiveError
  | .ok _ => none
  | .error e => some e

end ProgramImage

namespace Archive

open ProgramImage

/-- The archive in which these outcomes are listed, programs and errors each in their order. -/
def ofOutcomes (outcomes : List (Except ArchiveError DemoProgram)) : Archive where
  declaredPrograms := UInt16.ofNat outcomes.length
  programs := outcomes.filterMap Except.toOption
  errors := outcomes.filterMap error?

/-! ## One program -/

theorem read_image {r rest : ByteReader} {image : ProgramImage} (h : r.Takes image.bytes rest) :
    RawProgram.read r =
      .ok (⟨image.demoId, image.declaredCount, image.payload, r.offset + 8⟩, rest) :=
  Decoder.read_of_takes image.length_payload h

theorem decodeProgram_image (d : Decoder) (image : ProgramImage) :
    d.decodeProgram image.bytes =
      d.decodeRaw ⟨image.demoId, image.declaredCount, image.payload, 8⟩ := by
  have hself : (ByteReader.ofBytes 0 image.bytes).Takes image.bytes ⟨image.bytes.length, []⟩ :=
    ⟨(List.append_nil _).symm, (Nat.zero_add _).symm⟩
  rw [Decoder.decodeProgram, read_image hself]
  rfl

/-- Decoded where it stands, a program is decoded as on its own. -/
theorem decodeRaw_image (d : Decoder) (image : ProgramImage) (start : Nat) :
    d.decodeRaw ⟨image.demoId, image.declaredCount, image.payload, start + 8⟩ =
      shiftResult start (DecodedProgram.shift start) (d.decodeProgram image.bytes) := by
  rw [decodeProgram_image, ← Decoder.decodeRaw_shift, Nat.add_comm]

/-- The entries of an archive are those of its first program, and the entries of the others. -/
theorem entries_cons (d : Decoder) {count index : Nat} {r rest : ByteReader}
    {image : ProgramImage} (h : r.Takes image.bytes rest) :
    entries d (count + 1) index r =
      ((image.outcome d index r.offset).toOption.toList ++ (entries d count (index + 1) rest).1,
        (error? (image.outcome d index r.offset)).toList ++
          (entries d count (index + 1) rest).2) := by
  rw [entries, read_image h]
  dsimp only
  rw [decodeRaw_image, outcome]
  cases d.decodeProgram image.bytes <;> rfl

/-! ## All programs -/

theorem entries_of_takes (d : Decoder) {images : List ProgramImage} (index : Nat)
    {r rest : ByteReader} (h : r.Takes (images.flatMap bytes) rest) :
    let placed := images.mapIdx fun i image ↦
      image.outcome d (index + i) (r.offset + ((images.take i).flatMap bytes).length)
    entries d images.length index r =
      (placed.filterMap Except.toOption, placed.filterMap error?) := by
  induction images generalizing index r with
  | nil => rfl
  | cons image images ih =>
    obtain ⟨s, himage, himages⟩ := ByteReader.takes_append.1 (List.flatMap_cons ▸ h)
    have hlater : (fun i (later : ProgramImage) ↦ later.outcome d (index + (i + 1))
          (r.offset + (((image :: images).take (i + 1)).flatMap bytes).length)) =
        fun i later ↦ later.outcome d (index + 1 + i)
          (s.offset + ((images.take i).flatMap bytes).length) := by
      funext i later
      rw [List.take_succ_cons, List.flatMap_cons, List.length_append, himage.2, Nat.add_assoc,
        Nat.add_assoc, Nat.add_comm 1 i]
    dsimp only
    rw [List.length_cons, entries_cons d himage, ih _ himages, List.mapIdx_cons, hlater]
    simp only [List.take_zero, List.flatMap_nil, List.length_nil, Nat.add_zero]
    cases image.outcome d index r.offset <;> rfl

/-- An archive lists what comes of its programs. -/
theorem decode_eq_ofOutcomes (d : Decoder) {images : List ProgramImage} (trailing : List UInt8)
    (hcount : images.length ≤ 65535) :
    decode d (encodeArchive (images.map bytes) ++ trailing) =
      .ok (ofOutcomes (outcomes d images)) := by
  have hbytes : (ByteReader.ofBytes 0 (encodeArchive (images.map bytes) ++ trailing)).rest =
      (LittleEndian.u16 (UInt16.ofNat images.length) ++ images.flatMap bytes) ++ trailing := by
    rw [encodeArchive, List.length_map, List.flatMap_def]
    rfl
  obtain ⟨rest, -, htakes⟩ := ByteReader.exists_takes hbytes
  obtain ⟨s, hdeclared, himages⟩ := ByteReader.takes_append.1 htakes
  have hsize : (UInt16.ofNat images.length).toNat = images.length :=
    UInt16.toNat_ofNat_of_lt' (Nat.lt_succ_of_le hcount)
  have hoffset : s.offset = 2 := by
    rw [hdeclared.2, LittleEndian.length_u16]
    rfl
  have hentries := entries_of_takes d 0 himages
  simp only [Nat.zero_add, hoffset] at hentries
  rw [decode, ByteReader.u16_eq_ok_iff.2 hdeclared]
  simp only [bind, Except.bind, pure, Except.pure, hsize, hentries]
  rw [ofOutcomes, outcomes, List.length_mapIdx]
  rfl

/-- Every outcome is listed, as a program or as an error. -/
theorem length_ofOutcomes (outcomes : List (Except ArchiveError DemoProgram)) :
    (ofOutcomes outcomes).programs.length + (ofOutcomes outcomes).errors.length =
      outcomes.length := by
  induction outcomes with
  | nil => rfl
  | cons outcome outcomes ih =>
    simp only [ofOutcomes] at ih ⊢
    cases outcome with
    | ok program =>
      simp only [List.filterMap_cons, Except.toOption, error?, List.length_cons]
      omega
    | error e =>
      simp only [List.filterMap_cons, Except.toOption, error?, List.length_cons]
      omega

theorem errors_ofOutcomes_eq_nil_iff {outcomes : List (Except ArchiveError DemoProgram)} :
    (ofOutcomes outcomes).errors = [] ↔ ∀ outcome ∈ outcomes, error? outcome = none :=
  List.filterMap_eq_nil_iff

theorem error?_outcome_eq_none_iff {d : Decoder} {index start : Nat} {image : ProgramImage} :
    error? (image.outcome d index start) = none ↔
      ∃ decoded, d.decodeProgram image.bytes = .ok decoded := by
  rw [outcome]
  cases d.decodeProgram image.bytes with
  | ok decoded => simp [error?]
  | error cause => simp [error?]

theorem declaredPrograms_ofOutcomes (d : Decoder) {images : List ProgramImage}
    (hcount : images.length ≤ 65535) :
    (ofOutcomes (outcomes d images)).declaredPrograms.toNat = images.length := by
  rw [ofOutcomes, outcomes, List.length_mapIdx]
  exact UInt16.toNat_ofNat_of_lt' (Nat.lt_succ_of_le hcount)

theorem isComplete_ofOutcomes_iff {d : Decoder} {images : List ProgramImage}
    (hcount : images.length ≤ 65535) :
    (ofOutcomes (outcomes d images)).isComplete = true ↔
      ∀ image ∈ images, ∃ decoded, d.decodeProgram image.bytes = .ok decoded := by
  have hlength := length_ofOutcomes (outcomes d images)
  rw [outcomes, List.length_mapIdx, ← outcomes] at hlength
  have herrors : (ofOutcomes (outcomes d images)).isComplete = true ↔
      (ofOutcomes (outcomes d images)).errors = [] := by
    simp only [isComplete, Bool.and_eq_true, List.isEmpty_iff, beq_iff_eq,
      declaredPrograms_ofOutcomes d hcount]
    constructor
    · exact And.left
    · intro hnone
      rw [hnone] at hlength
      exact ⟨hnone, hlength⟩
  rw [herrors, errors_ofOutcomes_eq_nil_iff]
  constructor
  · intro hall image himage
    obtain ⟨index, hindex, rfl⟩ := List.getElem_of_mem himage
    exact error?_outcome_eq_none_iff.1 (hall _ (List.mem_mapIdx.2 ⟨index, hindex, rfl⟩))
  · intro hall outcome houtcome
    obtain ⟨index, hindex, rfl⟩ := List.mem_mapIdx.1 houtcome
    exact error?_outcome_eq_none_iff.2 (hall _ (List.getElem_mem hindex))

/-! ## Another program in the place of one -/

section

variable {images : List ProgramImage} {index : Nat} {image other : ProgramImage}

/-- A program of the same length moves no other one. -/
theorem startOf_set (himage : images[index]? = some image)
    (hlength : other.payload.length = image.payload.length) (i : Nat) :
    startOf (images.set index other) i = startOf images i := by
  have hlengths : (images.set index other).map (List.length ∘ bytes) =
      images.map (List.length ∘ bytes) := by
    apply List.ext_getElem?
    intro j
    rw [List.getElem?_map, List.getElem?_map, List.getElem?_set]
    split
    · next hindex =>
      rw [← hindex, himage]
      have hinside := (List.getElem?_eq_some_iff.1 himage).1
      simp only [if_pos hinside, Option.map_some, Function.comp_apply, length_bytes, hlength]
    · rfl
  have htotal (images : List ProgramImage) : ((images.take i).flatMap bytes).length =
      ((images.map (List.length ∘ bytes)).take i).sum := by
    rw [List.length_flatMap, List.map_take]
    rfl
  rw [startOf, startOf, htotal, htotal, hlengths]

theorem outcomes_set (d : Decoder) (himage : images[index]? = some image)
    (hlength : other.payload.length = image.payload.length) :
    outcomes d (images.set index other) =
      (outcomes d images).set index (other.outcome d index (startOf images index)) := by
  have hinside := (List.getElem?_eq_some_iff.1 himage).1
  apply List.ext_getElem?
  intro i
  rw [outcomes, outcomes, List.getElem?_mapIdx, List.getElem?_set, List.getElem?_set,
    startOf_set himage hlength, List.length_mapIdx]
  split
  · next hindex =>
    rw [hindex]
    rfl
  · rw [List.getElem?_mapIdx]

end

/-- Every program that an archive holds comes out as it does on its own, with its offsets moved to
where it stands, and nothing else comes out.  What one program holds is seen in its own outcome
only. -/
theorem decode_encodeArchive (d : Decoder) (images : List ProgramImage) (trailing : List UInt8)
    (hcount : images.length ≤ 65535) :
    ∃ archive, decode d (encodeArchive (images.map bytes) ++ trailing) = .ok archive ∧
      archive.declaredPrograms.toNat = images.length ∧
      archive.programs = (outcomes d images).filterMap Except.toOption ∧
      archive.errors = (outcomes d images).filterMap error? ∧
      (archive.isComplete = true ↔
        ∀ image ∈ images, ∃ decoded, d.decodeProgram image.bytes = .ok decoded) ∧
      ∀ (index : Nat) (image other : ProgramImage), images[index]? = some image →
        other.payload.length = image.payload.length →
          decode d (encodeArchive ((images.set index other).map bytes) ++ trailing) =
            .ok (ofOutcomes ((outcomes d images).set index
              (other.outcome d index (startOf images index)))) := by
  refine ⟨_, decode_eq_ofOutcomes d trailing hcount, declaredPrograms_ofOutcomes d hcount, rfl,
    rfl, isComplete_ofOutcomes_iff hcount, fun index image other himage hlength ↦ ?_⟩
  rw [← outcomes_set d himage hlength]
  apply decode_eq_ofOutcomes
  rwa [List.length_set]

/-- A program without its sprite list fails where it stands, between two that are fine. -/
theorem decode_encodeArchive_of_truncated :
    let blank (demoId : UInt16) : ProgramImage := ⟨demoId, 0, [0, 0], by decide⟩
    let images := [blank 1, ⟨2, 1, [], by decide⟩, blank 3]
    images.length ≤ 65535 ∧ ∃ archive,
      decode {} (encodeArchive (images.map bytes) ++ [255]) = .ok archive ∧
        archive.errors = [⟨1, some 2, .outOfRange 20 2 0⟩] := by
  intro blank images
  have hcount : images.length ≤ 65535 := by decide
  obtain ⟨archive, hdecode, -, -, herrors, -⟩ := decode_encodeArchive {} images [255] hcount
  have hblank (demoId : UInt16) (index start : Nat) :
      error? ((blank demoId).outcome {} index start) = none := by
    apply error?_outcome_eq_none_iff.2
    have hraw : Decoder.decodeRaw {} ⟨demoId, 0, encodePayload [] [], 8⟩ = .ok _ :=
      Decoder.decodeRaw_of_forest {} demoId 0 8 (by decide) rfl nofun
    exact ⟨_, (decodeProgram_image _ _).trans hraw⟩
  refine ⟨hcount, archive, hdecode, herrors.trans ?_⟩
  simp only [outcomes, images, List.mapIdx_cons, List.mapIdx_nil, List.filterMap_cons, hblank]
  rfl

end Archive

end DemoReel
