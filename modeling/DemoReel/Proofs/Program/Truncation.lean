import DemoReel.Proofs.Program.Catalog
import Mathlib

/-!
# Archives that are cut short

Every read takes its bytes off the front, so what was read of an archive is read again when more
bytes follow.  Cutting an archive therefore loses programs and errors at its end only, and one
header error marks the place.  An archive lists its errors by ascending position, and it accounts
for every declared program up to a header that cannot be read.
-/

namespace DemoReel

/-! ## More bytes at the end -/

namespace ByteReader

def extend (r : ByteReader) (more : List UInt8) : ByteReader := ⟨r.offset, r.rest ++ more⟩

theorem Takes.extend {r s : ByteReader} {bytes : List UInt8} (h : r.Takes bytes s)
    (more : List UInt8) : (r.extend more).Takes bytes (s.extend more) := by
  obtain ⟨hrest, hoffset⟩ := h
  refine ⟨?_, hoffset⟩
  rw [ByteReader.extend, hrest, List.append_assoc]
  rfl

theorem exists_u16 {r : ByteReader} (h : 2 ≤ r.remaining) : ∃ n s, u16 r = .ok (n, s) := by
  have htake : take 2 r = .ok (r.rest.take 2, ⟨r.offset + 2, r.rest.drop 2⟩) :=
    take_eq_ok_iff.2 ⟨(List.take_append_drop 2 r.rest).symm, List.length_take_of_le h, rfl⟩
  exact ⟨_, _, Reading.bind_eq_ok_iff.2 ⟨_, _, htake, rfl⟩⟩

end ByteReader

namespace RawProgram

theorem read_extend {r s : ByteReader} {raw : RawProgram} (h : read r = .ok (raw, s))
    (more : List UInt8) : read (r.extend more) = .ok (raw, s.extend more) := by
  obtain ⟨hoffset, size, hsize, htakes⟩ := Decoder.takes_of_read h
  have hfits : raw.payload.length < 2 ^ 32 := hsize ▸ size.toNat_lt
  have hannounced : UInt32.ofNat raw.payload.length = size := by
    rw [← hsize, UInt32.ofNat_toNat]
  rw [← hannounced] at htakes
  rw [Decoder.read_of_takes hfits (htakes.extend more)]
  obtain ⟨demoId, declaredCount, payload, payloadOffset⟩ := raw
  obtain rfl : payloadOffset = r.offset + 8 := hoffset
  rfl

/-- Programs that were read are read again when more bytes follow. -/
theorem readMany_prefix_extend (count : Nat) (r : ByteReader) (more : List UInt8) :
    (readMany count r).1.map Prod.fst <+: (readMany count (r.extend more)).1.map Prod.fst := by
  induction count generalizing r with
  | zero => exact List.prefix_refl _
  | succ count ih =>
    rw [readMany]
    cases hread : read r with
    | error e => exact List.nil_prefix
    | ok found =>
      rw [readMany, read_extend hread more]
      exact List.cons_prefix_cons.2 ⟨rfl, ih found.2⟩

/-- There are as many programs as declared, or fewer before a header that cannot be read. -/
theorem length_readMany (count : Nat) (r : ByteReader) :
    ((readMany count r).2 = none → (readMany count r).1.length = count) ∧
      ∀ cause, (readMany count r).2 = some cause → (readMany count r).1.length < count := by
  induction count generalizing r with
  | zero => exact ⟨fun _ ↦ rfl, fun _ hcause ↦ (Option.some_ne_none _ hcause.symm).elim⟩
  | succ count ih =>
    rw [readMany]
    cases read r with
    | error e =>
      exact ⟨fun hnone ↦ (Option.some_ne_none e hnone).elim, fun _ _ ↦ Nat.succ_pos count⟩
    | ok found =>
      obtain ⟨hall, hfewer⟩ := ih found.2
      exact ⟨fun hnone ↦ congrArg Nat.succ (hall hnone),
        fun cause hcause ↦ Nat.succ_lt_succ (hfewer cause hcause)⟩

end RawProgram

namespace Archive

open ProgramImage (error?)

/-! ## The order of the errors -/

/-- Errors stand at different positions of the programs they are about, in order. -/
theorem index_errors_sublist (d : Decoder) (raws : List RawProgram) (index : Nat) :
    (((outcomesAt d raws index).filterMap error?).map ArchiveError.index).Sublist
      (List.range' index raws.length) := by
  induction raws generalizing index with
  | nil => exact .slnil
  | cons raw raws ih =>
    rw [outcomesAt_cons, outcomeAt, List.length_cons, List.range'_succ]
    -- a program that decodes leaves its position out of the list
    cases d.decodeRaw raw with
    | ok decoded => exact (ih (index + 1)).cons index
    | error cause => exact (ih (index + 1)).cons_cons index

/-- The entries of an archive account for its programs. -/
structure Orderly (archive : Archive) : Prop where
  /-- An error without an id is the last of all, and it stands behind every other entry. -/
  header : ∀ (i : Nat) (e : ArchiveError), archive.errors[i]? = some e → e.demoId = none →
    i + 1 = archive.errors.length ∧ e.index = archive.programs.length + i
  /-- Without one there is an entry for every declared program. -/
  accounted : (∀ e ∈ archive.errors, e.demoId ≠ none) →
    archive.programs.length + archive.errors.length = archive.declaredPrograms.toNat
  ascending : archive.errors.Pairwise fun e later ↦ e.index < later.index
  inside : ∀ e ∈ archive.errors, e.index < archive.declaredPrograms.toNat
  complete : archive.isComplete = true ↔ archive.errors = []

namespace Catalog

variable {catalog : Catalog}

/-- There is a header for every declared program, unless one could not be read. -/
structure Covers (catalog : Catalog) : Prop where
  readable : catalog.fault = none → catalog.raws.length = catalog.declared.toNat
  broken : ∀ cause, catalog.fault = some cause → catalog.raws.length < catalog.declared.toNat

theorem covers_of_read {bytes : List UInt8} (h : read bytes = .ok catalog) : catalog.Covers := by
  obtain ⟨counted, -, hfound⟩ := bind_eq_ok_iff.1 h
  obtain rfl := Except.ok.inj hfound
  obtain ⟨hall, hfewer⟩ := RawProgram.length_readMany counted.1.toNat counted.2
  rw [← List.length_map (f := Prod.fst)] at hall hfewer
  exact ⟨hall, hfewer⟩

theorem length_decode (d : Decoder) (catalog : Catalog) :
    (catalog.decode d).programs.length + ((catalog.outcomes d).filterMap error?).length =
      catalog.raws.length :=
  (length_ofOutcomes (catalog.outcomes d)).trans (length_outcomesAt d catalog.raws 0)

theorem errors_decode_of_readable (h : catalog.fault = none) (d : Decoder) :
    (catalog.decode d).errors = (catalog.outcomes d).filterMap error? := by
  simp only [decode, h, Option.map_none, Option.toList_none, List.append_nil]

theorem errors_decode_of_fault {cause : DecodeError} (h : catalog.fault = some cause)
    (d : Decoder) : (catalog.decode d).errors =
      (catalog.outcomes d).filterMap error? ++ [headerError catalog.raws.length cause] := by
  simp only [decode, h, Option.map_some, Option.toList_some]

/-- Each position below the declared count has one error at most. -/
theorem index_decode_sublist (h : catalog.Covers) (d : Decoder) :
    ((catalog.decode d).errors.map ArchiveError.index).Sublist
      (List.range' 0 catalog.declared.toNat) := by
  have hpayloads := index_errors_sublist d catalog.raws 0
  cases hfault : catalog.fault with
  | none =>
    rw [errors_decode_of_readable hfault, ← h.readable hfault]
    exact hpayloads
  | some cause =>
    rw [errors_decode_of_fault hfault, List.map_append]
    calc
      _ = ((catalog.outcomes d).filterMap error?).map ArchiveError.index ++
          [0 + 1 * catalog.raws.length] := by
        rw [Nat.one_mul, Nat.zero_add]
        rfl
      List.Sublist _ (List.range' 0 (catalog.raws.length + 1)) := by
        rw [List.range'_concat]
        exact hpayloads.append (List.Sublist.refl _)
      List.Sublist _ (List.range' 0 catalog.declared.toNat) :=
        List.range'_sublist_right.2 (h.broken cause hfault)

theorem header_decode (d : Decoder) {i : Nat} {e : ArchiveError}
    (h : (catalog.decode d).errors[i]? = some e) (hid : e.demoId = none) :
    i + 1 = (catalog.decode d).errors.length ∧
      e.index = (catalog.decode d).programs.length + i := by
  have hlength := catalog.length_decode d
  have hknown {e : ArchiveError} (he : e ∈ (catalog.outcomes d).filterMap error?) :
      e.demoId ≠ none :=
    Option.isSome_iff_ne_none.1 (isSome_demoId_of_mem_errors he)
  cases hfault : catalog.fault with
  | none =>
    rw [errors_decode_of_readable hfault] at h
    exact (hknown (List.mem_of_getElem? h) hid).elim
  | some cause =>
    rw [errors_decode_of_fault hfault] at h ⊢
    obtain ⟨hinside, hget⟩ := List.getElem?_eq_some_iff.1 h
    rw [List.length_append, List.length_singleton] at hinside ⊢
    by_cases hpayload : i < ((catalog.outcomes d).filterMap error?).length
    · rw [List.getElem?_append_left hpayload] at h
      exact (hknown (List.mem_of_getElem? h) hid).elim
    · obtain rfl : i = ((catalog.outcomes d).filterMap error?).length := by omega
      rw [List.getElem_concat_length rfl] at hget
      exact ⟨rfl, hget ▸ hlength.symm⟩

theorem accounted_decode (h : catalog.Covers) (d : Decoder)
    (hids : ∀ e ∈ (catalog.decode d).errors, e.demoId ≠ none) :
    (catalog.decode d).programs.length + (catalog.decode d).errors.length =
      catalog.declared.toNat := by
  cases hfault : catalog.fault with
  | none =>
    rw [errors_decode_of_readable hfault, catalog.length_decode d, h.readable hfault]
  | some cause =>
    rw [errors_decode_of_fault hfault] at hids
    exact (hids _ (List.mem_append_right _ (List.mem_singleton_self _)) rfl).elim

theorem orderly_decode (h : catalog.Covers) (d : Decoder) : (catalog.decode d).Orderly where
  header _ _ := header_decode d
  accounted := accounted_decode h d
  ascending := by
    have hrange : (List.range' 0 catalog.declared.toNat).Pairwise (· < ·) :=
      List.pairwise_lt_range'
    exact List.pairwise_map.1 (hrange.sublist (index_decode_sublist h d))
  inside e he := by
    have hmem := (index_decode_sublist h d).subset (List.mem_map_of_mem he)
    have hbounds := List.mem_range'_1.1 hmem
    exact Nat.zero_add catalog.declared.toNat ▸ hbounds.2
  complete := by
    rw [isComplete, Bool.and_eq_true, List.isEmpty_iff, beq_iff_eq]
    refine ⟨And.left, fun hnone ↦ ⟨hnone, ?_⟩⟩
    have haccounted := accounted_decode h d (by simp [hnone])
    rwa [hnone] at haccounted

end Catalog

theorem orderly_of_decode {d : Decoder} {bytes : List UInt8} {archive : Archive}
    (h : decode d bytes = .ok archive) : archive.Orderly := by
  obtain ⟨catalog, hread, rfl⟩ := decode_eq_ok_iff.1 h
  exact Catalog.orderly_decode (Catalog.covers_of_read hread) d

/-! ## Cutting -/

/-- What comes of programs does not depend on those behind them. -/
theorem outcomesAt_prefix (d : Decoder) {raws more : List RawProgram} (h : raws <+: more)
    (index : Nat) : outcomesAt d raws index <+: outcomesAt d more index := by
  obtain ⟨behind, rfl⟩ := h
  rw [outcomesAt, outcomesAt, List.zipIdx_append, List.map_append]
  exact List.prefix_append _ _

namespace Catalog

theorem exists_read_take {bytes : List UInt8} {k : Nat} (hk : 2 ≤ k) (hle : k ≤ bytes.length) :
    ∃ whole part, read bytes = .ok whole ∧ read (bytes.take k) = .ok part ∧
      part.declared = whole.declared ∧ part.raws <+: whole.raws := by
  have hremaining : 2 ≤ (ByteReader.ofBytes 0 (bytes.take k)).remaining := by
    change 2 ≤ (bytes.take k).length
    rw [List.length_take]
    omega
  obtain ⟨declared, s, hdeclared⟩ := ByteReader.exists_u16 hremaining
  have hwhole : ByteReader.ofBytes 0 bytes =
      (ByteReader.ofBytes 0 (bytes.take k)).extend (bytes.drop k) := by
    rw [ByteReader.extend, ByteReader.ofBytes, ByteReader.ofBytes, List.take_append_drop]
  have hextended := ByteReader.u16_eq_ok_iff.2
    ((ByteReader.u16_eq_ok_iff.1 hdeclared).extend (bytes.drop k))
  refine ⟨_, _, bind_eq_ok_iff.2 ⟨_, hwhole ▸ hextended, rfl⟩,
    bind_eq_ok_iff.2 ⟨_, hdeclared, rfl⟩, rfl, ?_⟩
  exact RawProgram.readMany_prefix_extend declared.toNat s (bytes.drop k)

/-- Header errors are those without an id. -/
theorem filter_errors_decode (d : Decoder) (catalog : Catalog) :
    ((catalog.decode d).errors.filter fun e ↦ e.demoId.isSome) =
      (catalog.outcomes d).filterMap error? := by
  have hpayloads : ((catalog.outcomes d).filterMap error?).filter (fun e ↦ e.demoId.isSome) =
      (catalog.outcomes d).filterMap error? :=
    List.filter_eq_self.2 fun e he ↦ isSome_demoId_of_mem_errors he
  cases hfault : catalog.fault with
  | none => rw [errors_decode_of_readable hfault, hpayloads]
  | some cause =>
    rw [errors_decode_of_fault hfault, List.filter_append, hpayloads]
    exact List.append_nil _

end Catalog

/-- However an archive is cut behind its program count, it decodes to the programs and the errors
that stand before the cut, and a header error at most is new.  In every archive a header error is
the last one, the errors stand in order, and there are none exactly if it is complete. -/
theorem truncation_loses_the_tail (d : Decoder) (bytes : List UInt8) :
    (∀ archive, decode d bytes = .ok archive → archive.Orderly) ∧
      ∀ k, 2 ≤ k → k ≤ bytes.length → ∃ whole part, decode d bytes = .ok whole ∧
        decode d (bytes.take k) = .ok part ∧
        part.declaredPrograms = whole.declaredPrograms ∧
        part.programs <+: whole.programs ∧
        (part.errors.filter fun e ↦ e.demoId.isSome) <+: whole.errors := by
  refine ⟨fun archive h ↦ orderly_of_decode h, fun k hk hle ↦ ?_⟩
  obtain ⟨whole, part, hwhole, hpart, hdeclared, hraws⟩ := Catalog.exists_read_take hk hle
  have houtcomes : part.outcomes d <+: whole.outcomes d := outcomesAt_prefix d hraws 0
  refine ⟨whole.decode d, part.decode d, decode_eq_ok_iff.2 ⟨whole, hwhole, rfl⟩,
    decode_eq_ok_iff.2 ⟨part, hpart, rfl⟩, hdeclared, houtcomes.filterMap Except.toOption, ?_⟩
  rw [Catalog.filter_errors_decode]
  exact (houtcomes.filterMap error?).trans (List.prefix_append _ _)

/-- Three programs, the second of which lacks its sprite list. -/
def threePrograms : List UInt8 :=
  [3, 0, 1, 0, 0, 0, 2, 0, 0, 0, 0, 0, 2, 0, 1, 0, 0, 0, 0, 0, 3, 0, 0, 0, 2, 0, 0, 0, 0, 0]

/-- Cut inside its third header, the archive keeps the program and the error before. -/
theorem truncation_loses_the_tail_of_header :
    2 ≤ 23 ∧ 23 ≤ threePrograms.length ∧ ∃ whole part, decode {} threePrograms = .ok whole ∧
      decode {} (threePrograms.take 23) = .ok part ∧ part.programs <+: whole.programs ∧
      part.errors = [⟨1, some 2, .outOfRange 20 2 0⟩, ⟨2, none, .outOfRange 22 2 1⟩] := by
  have hlow : 2 ≤ 23 := by decide
  have hhigh : 23 ≤ threePrograms.length := by decide
  obtain ⟨whole, part, hwhole, hpart, -, hprograms, -⟩ :=
    (truncation_loses_the_tail {} threePrograms).2 23 hlow hhigh
  refine ⟨hlow, hhigh, whole, part, hwhole, hpart, hprograms, ?_⟩
  have hcut : decode {} (threePrograms.take 23) =
      .ok ⟨3, [⟨1, 0, [], [0, 0], 2, [], none⟩],
        [⟨1, some 2, .outOfRange 20 2 0⟩, ⟨2, none, .outOfRange 22 2 1⟩]⟩ := by
    cbv
  obtain rfl := Except.ok.inj (hpart.symm.trans hcut)
  rfl

end Archive

end DemoReel
