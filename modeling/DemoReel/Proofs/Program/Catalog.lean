import DemoReel.Proofs.Program.Isolation

/-!
# Headers first, payloads after

The headers of an archive say where its programs stand, and no decoder is asked for them.  So an
archive is decoded in two parts: its headers are read, up to the first that is cut short, and then
each payload is decoded on its own.  What two decoders make of the same bytes is compared header by
header.
-/

namespace DemoReel

/-- Both fail alike, or both succeed with related results. -/
inductive Agree {ε α β : Type} (related : α → β → Prop) : Except ε α → Except ε β → Prop
  | error (e : ε) : Agree related (.error e) (.error e)
  | ok {a : α} {b : β} (h : related a b) : Agree related (.ok a) (.ok b)

namespace Archive

open ProgramImage (error?)

/-- What comes of a program whose header was read, at this position of the archive. -/
def outcomeAt (d : Decoder) (raw : RawProgram) (index : Nat) : Except ArchiveError DemoProgram :=
  match d.decodeRaw raw with
  | .ok decoded => .ok decoded.toProgram
  | .error cause => .error ⟨index, some raw.demoId, cause⟩

/-- A program that fails is known by its position and its id, and its payload gives the cause. -/
theorem outcomeAt_eq_error {d : Decoder} {raw : RawProgram} {index : Nat} {e : ArchiveError}
    (h : outcomeAt d raw index = .error e) :
    e.index = index ∧ e.demoId = some raw.demoId ∧ d.decodeRaw raw = .error e.cause := by
  rw [outcomeAt] at h
  split at h
  case h_1 => cases h
  case h_2 cause hcause =>
    obtain rfl := Except.error.inj h
    exact ⟨rfl, rfl, hcause⟩

theorem outcomeAt_eq_ok {d : Decoder} {raw : RawProgram} {index : Nat} {p : DemoProgram}
    (h : outcomeAt d raw index = .ok p) :
    ∃ decoded, d.decodeRaw raw = .ok decoded ∧ p = decoded.toProgram := by
  rw [outcomeAt] at h
  split at h
  case h_1 decoded hdecoded => exact ⟨decoded, hdecoded, (Except.ok.inj h).symm⟩
  case h_2 => cases h

/-- What comes of programs that stand one after another. -/
def outcomesAt (d : Decoder) (raws : List RawProgram) (index : Nat) :
    List (Except ArchiveError DemoProgram) :=
  (raws.zipIdx index).map fun entry ↦ outcomeAt d entry.1 entry.2

theorem outcomesAt_cons (d : Decoder) (raw : RawProgram) (raws : List RawProgram) (index : Nat) :
    outcomesAt d (raw :: raws) index = outcomeAt d raw index :: outcomesAt d raws (index + 1) := by
  rw [outcomesAt, List.zipIdx_cons, List.map_cons, outcomesAt]

theorem length_outcomesAt (d : Decoder) (raws : List RawProgram) (index : Nat) :
    (outcomesAt d raws index).length = raws.length := by
  rw [outcomesAt, List.length_map, List.length_zipIdx]

theorem mem_errors_outcomesAt {d : Decoder} {raws : List RawProgram} {index : Nat}
    {e : ArchiveError} :
    e ∈ (outcomesAt d raws index).filterMap error? ↔
      ∃ entry ∈ raws.zipIdx index, outcomeAt d entry.1 entry.2 = .error e := by
  have herror (outcome : Except ArchiveError DemoProgram) :
      error? outcome = some e ↔ outcome = .error e := by
    cases outcome <;> simp [error?]
  simp only [outcomesAt, List.mem_filterMap, List.mem_map, exists_exists_and_eq_and, herror]

theorem mem_programs_outcomesAt {d : Decoder} {raws : List RawProgram} {index : Nat}
    {p : DemoProgram} :
    p ∈ (outcomesAt d raws index).filterMap Except.toOption ↔
      ∃ entry ∈ raws.zipIdx index, outcomeAt d entry.1 entry.2 = .ok p := by
  have hok (outcome : Except ArchiveError DemoProgram) :
      outcome.toOption = some p ↔ outcome = .ok p := by
    cases outcome <;> simp [Except.toOption]
  simp only [outcomesAt, List.mem_filterMap, List.mem_map, exists_exists_and_eq_and, hok]

theorem isSome_demoId_of_mem_errors {d : Decoder} {raws : List RawProgram} {index : Nat}
    {e : ArchiveError} (h : e ∈ (outcomesAt d raws index).filterMap error?) :
    e.demoId.isSome = true := by
  obtain ⟨entry, -, herror⟩ := mem_errors_outcomesAt.1 h
  rw [(outcomeAt_eq_error herror).2.1]
  rfl

/-- The error for a header that cannot be read. -/
def headerError (index : Nat) (cause : DecodeError) : ArchiveError := ⟨index, none, cause⟩

theorem entries_eq_outcomesAt (d : Decoder) (count index : Nat) (r : ByteReader) :
    let raws := (RawProgram.readMany count r).1.map Prod.fst
    let fault := (RawProgram.readMany count r).2
    entries d count index r =
      ((outcomesAt d raws index).filterMap Except.toOption,
        (outcomesAt d raws index).filterMap error? ++
          (fault.map (headerError (index + raws.length))).toList) := by
  induction count generalizing index r with
  | zero => rfl
  | succ count ih =>
    rw [entries, RawProgram.readMany]
    cases RawProgram.read r with
    | error cause => rfl
    | ok read =>
      dsimp only
      rw [ih, List.map_cons, outcomesAt_cons, outcomeAt, List.length_cons, Nat.add_right_comm,
        Nat.add_assoc]
      cases d.decodeRaw read.1 <;> rfl

/-- The headers of an archive, with the payloads they announce. -/
structure Catalog where
  declared : UInt16
  raws : List RawProgram
  /-- Why there are fewer programs than declared, if so. -/
  fault : Option DecodeError

namespace Catalog

def read (bytes : List UInt8) : Except DecodeError Catalog := do
  let (declared, r) ← ByteReader.u16 (.ofBytes 0 bytes)
  let (found, fault) := RawProgram.readMany declared.toNat r
  return ⟨declared, found.map Prod.fst, fault⟩

def outcomes (d : Decoder) (catalog : Catalog) : List (Except ArchiveError DemoProgram) :=
  outcomesAt d catalog.raws 0

def decode (d : Decoder) (catalog : Catalog) : Archive where
  declaredPrograms := catalog.declared
  programs := (catalog.outcomes d).filterMap Except.toOption
  errors := (catalog.outcomes d).filterMap error? ++
    (catalog.fault.map (headerError catalog.raws.length)).toList

end Catalog

theorem decode_eq_map (d : Decoder) (bytes : List UInt8) :
    decode d bytes = (Catalog.read bytes).map (Catalog.decode d) := by
  unfold decode Catalog.read
  cases ByteReader.u16 (.ofBytes 0 bytes) with
  | error e => rfl
  | ok counted =>
    simp only [bind, Except.bind, pure, Except.pure, Except.map, entries_eq_outcomesAt,
      Nat.zero_add]
    rfl

theorem decode_eq_ok_iff {d : Decoder} {bytes : List UInt8} {archive : Archive} :
    decode d bytes = .ok archive ↔
      ∃ catalog, Catalog.read bytes = .ok catalog ∧ catalog.decode d = archive := by
  rw [decode_eq_map, map_eq_ok_iff]

/-- Two decoders make of the same bytes what they make of the same headers. -/
theorem agree_decode {related : Archive → Archive → Prop} {d d' : Decoder}
    (h : ∀ catalog : Catalog, related (catalog.decode d) (catalog.decode d'))
    (bytes : List UInt8) : Agree related (decode d bytes) (decode d' bytes) := by
  rw [decode_eq_map, decode_eq_map]
  cases Catalog.read bytes with
  | error e => exact .error e
  | ok catalog => exact .ok (h catalog)

end Archive

end DemoReel
