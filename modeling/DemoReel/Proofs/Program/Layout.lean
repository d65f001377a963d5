import DemoReel.Program.Basic
import DemoReel.Proofs.Program.Grouping

/-!
# The layout of a program

A program is a header, a list of sprite ids and a stream of operations.  What each part holds is
said here in both directions: what its bytes are read as, and which bytes it was read from.
-/

namespace DemoReel

/-- What a program holds after its header: the sprite list and the operations. -/
def encodePayload (ids : List UInt16) (forest : List Operation) : List UInt8 :=
  LittleEndian.u16 (UInt16.ofNat ids.length) ++ ids.flatMap LittleEndian.u16 ++
    Operation.encodeAll forest

theorem encodeProgram_eq (demoId : UInt16) (ids : List UInt16) (forest : List Operation) :
    encodeProgram demoId ids forest =
      LittleEndian.u16 demoId ++ LittleEndian.u16 (UInt16.ofNat forest.length) ++
        LittleEndian.u32 (UInt32.ofNat (encodePayload ids forest).length) ++
        encodePayload ids forest :=
  rfl

theorem length_flatMap_u16 (ids : List UInt16) :
    (ids.flatMap LittleEndian.u16).length = 2 * ids.length := by
  induction ids with
  | nil => rfl
  | cons id ids ih =>
    rw [List.flatMap_cons, List.length_append, LittleEndian.length_u16, ih, List.length_cons]
    omega

theorem length_spriteList (ids : List UInt16) :
    (LittleEndian.u16 (UInt16.ofNat ids.length) ++ ids.flatMap LittleEndian.u16).length =
      2 + 2 * ids.length := by
  rw [List.length_append, length_flatMap_u16, LittleEndian.length_u16]

theorem length_encodePayload (ids : List UInt16) (forest : List Operation) :
    (encodePayload ids forest).length =
      2 + 2 * ids.length + (Operation.encodeAll forest).length := by
  simp only [encodePayload, List.length_append, length_flatMap_u16, LittleEndian.length_u16]

namespace Decoder

/-! ## The sprite list -/

theorem mem_dropRepeats {ids : List UInt16} {id : UInt16} : id ∈ dropRepeats ids ↔ id ∈ ids := by
  fun_induction dropRepeats ids with
  | case1 a rest ih => simp [ih]
  | case2 a b rest hne ih => simp [ih]
  | case3 ids hids => rfl

theorem pairwise_dropRepeats {ids : List UInt16} (h : ids.Pairwise (· ≤ ·)) :
    (dropRepeats ids).Pairwise (· < ·) := by
  fun_induction dropRepeats ids with
  | case1 a rest ih => exact ih h.of_cons
  | case2 a b rest hne ih =>
    obtain ⟨hfirst, hrest⟩ := List.pairwise_cons.1 h
    refine List.pairwise_cons.2 ⟨fun id hid ↦ ?_, ih hrest⟩
    have hab : a < b := UInt16.lt_of_le_of_ne (hfirst b List.mem_cons_self) hne
    obtain rfl | hid := List.mem_cons.1 (mem_dropRepeats.1 hid)
    · exact hab
    · exact UInt16.lt_of_lt_of_le hab ((List.pairwise_cons.1 hrest).1 id hid)
  | case3 ids hids =>
    match ids with
    | [] => exact .nil
    | [a] => exact List.pairwise_singleton _ a
    | a :: b :: rest => exact (hids a b rest rfl).elim

/-- The given ids, each once and in ascending order. -/
theorem distinctAscending_spec (ids : List UInt16) :
    (distinctAscending ids).Pairwise (· < ·) ∧ ∀ id, id ∈ distinctAscending ids ↔ id ∈ ids := by
  constructor
  · apply pairwise_dropRepeats
    have htrans (a b c : UInt16) (hab : decide (a ≤ b) = true) (hbc : decide (b ≤ c) = true) :
        decide (a ≤ c) = true :=
      decide_eq_true (UInt16.le_trans (of_decide_eq_true hab) (of_decide_eq_true hbc))
    have htotal (a b : UInt16) : (decide (a ≤ b) || decide (b ≤ a)) = true := by
      simpa using UInt16.le_total a b
    exact (List.pairwise_mergeSort htrans htotal ids).imp of_decide_eq_true
  · intro id
    rw [distinctAscending, mem_dropRepeats, List.mem_mergeSort]

theorem spriteIds_of_takes {ids : List UInt16} {r rest : ByteReader}
    (h : r.Takes (ids.flatMap LittleEndian.u16) rest) :
    spriteIds ids.length r = .ok (ids, rest) := by
  induction ids generalizing r with
  | nil =>
    obtain rfl := ByteReader.takes_nil.1 h
    rfl
  | cons id ids ih =>
    obtain ⟨s, hid, hids⟩ := ByteReader.takes_append.1 (List.flatMap_cons ▸ h)
    simp only [List.length_cons, spriteIds, Reading.bind_eq_ok_iff, Reading.pure_eq_ok_iff,
      ByteReader.u16_eq_ok_iff]
    exact ⟨id, s, hid, ids, rest, ih hids, rfl, rfl⟩

theorem takes_of_spriteIds {count : Nat} {ids : List UInt16} {r rest : ByteReader}
    (h : spriteIds count r = .ok (ids, rest)) :
    ids.length = count ∧ r.Takes (ids.flatMap LittleEndian.u16) rest := by
  induction count generalizing ids r with
  | zero =>
    obtain ⟨rfl, rfl⟩ := Reading.pure_eq_ok_iff.1 h
    exact ⟨rfl, ByteReader.takes_nil.2 rfl⟩
  | succ count ih =>
    simp only [spriteIds, Reading.bind_eq_ok_iff, Reading.pure_eq_ok_iff,
      ByteReader.u16_eq_ok_iff] at h
    obtain ⟨id, s, hid, ids, _, hids, rfl, rfl⟩ := h
    obtain ⟨hlength, htakes⟩ := ih hids
    exact ⟨congrArg Nat.succ hlength, hid.append htakes⟩

theorem length_dropRepeats_le (ids : List UInt16) : (dropRepeats ids).length ≤ ids.length := by
  fun_induction dropRepeats ids with
  | case1 a rest ih => exact Nat.le_succ_of_le ih
  | case2 a b rest hne ih => exact Nat.succ_le_succ ih
  | case3 ids hids => exact Nat.le_refl _

theorem length_distinctAscending_le (ids : List UInt16) :
    (distinctAscending ids).length ≤ ids.length := by
  have hsorted := length_dropRepeats_le (ids.mergeSort fun a b ↦ decide (a ≤ b))
  rwa [List.length_mergeSort] at hsorted

theorem dropRepeats_of_pairwise {ids : List UInt16} (h : ids.Pairwise (· < ·)) :
    dropRepeats ids = ids := by
  fun_induction dropRepeats ids with
  | case1 a rest ih => exact (UInt16.lt_irrefl a ((List.pairwise_cons.1 h).1 a (by simp))).elim
  | case2 a b rest hne ih => rw [ih h.of_cons]
  | case3 ids hids => rfl

/-- A list in order is left as it is. -/
theorem distinctAscending_of_pairwise {ids : List UInt16} (h : ids.Pairwise (· < ·)) :
    distinctAscending ids = ids := by
  have hsorted : ids.Pairwise fun a b ↦ decide (a ≤ b) = true :=
    h.imp fun hab ↦ decide_eq_true (UInt16.le_of_lt hab)
  rw [distinctAscending, List.mergeSort_of_pairwise hsorted, dropRepeats_of_pairwise h]

/-! ## The header -/

theorem read_of_takes {r rest : ByteReader} {demoId declaredCount : UInt16}
    {payload : List UInt8} (hsize : payload.length < 2 ^ 32)
    (h : r.Takes (LittleEndian.u16 demoId ++ LittleEndian.u16 declaredCount ++
      LittleEndian.u32 (UInt32.ofNat payload.length) ++ payload) rest) :
    RawProgram.read r = .ok (⟨demoId, declaredCount, payload, r.offset + 8⟩, rest) := by
  obtain ⟨s, hheader, hpayload⟩ := ByteReader.takes_append.1 h
  have hoffset : s.offset = r.offset + 8 := by
    rw [hheader.2]
    simp
  simp only [ByteReader.takes_append] at hheader
  obtain ⟨s₂, ⟨s₁, hid, hcount⟩, hlength⟩ := hheader
  have hlength' : payload.length = (UInt32.ofNat payload.length).toNat :=
    (UInt32.toNat_ofNat_of_lt' hsize).symm
  have hget : (MonadState.get : Reading ByteReader) s = .ok (s, s) := rfl
  simp only [RawProgram.read, Reading.bind_eq_ok_iff, Reading.pure_eq_ok_iff,
    ByteReader.u16_eq_ok_iff, ByteReader.u32_eq_ok_iff, ByteReader.take_eq_ok_iff_takes]
  refine ⟨_, s₁, hid, _, s₂, hcount, _, s, hlength, s, s, hget, payload, rest,
    ⟨hlength', hpayload⟩, ?_, rfl⟩
  rw [hoffset]

theorem takes_of_read {r rest : ByteReader} {raw : RawProgram}
    (h : RawProgram.read r = .ok (raw, rest)) :
    raw.payloadOffset = r.offset + 8 ∧ ∃ size : UInt32, size.toNat = raw.payload.length ∧
      r.Takes (LittleEndian.u16 raw.demoId ++ LittleEndian.u16 raw.declaredCount ++
        LittleEndian.u32 size ++ raw.payload) rest := by
  have hget (s : ByteReader) : (MonadState.get : Reading ByteReader) s = .ok (s, s) := rfl
  simp only [RawProgram.read, Reading.bind_eq_ok_iff, Reading.pure_eq_ok_iff,
    ByteReader.u16_eq_ok_iff, ByteReader.u32_eq_ok_iff, ByteReader.take_eq_ok_iff_takes, hget,
    Except.ok.injEq, Prod.mk.injEq] at h
  obtain ⟨demoId, s₁, hid, declaredCount, s₂, hcount, size, s, hsize, _, _, ⟨rfl, rfl⟩, payload, _,
    ⟨hlength, hpayload⟩, rfl, rfl⟩ := h
  have hheader := (hid.append hcount).append hsize
  refine ⟨?_, size, hlength.symm, hheader.append hpayload⟩
  rw [hheader.2]
  simp

/-! ## The program -/

/-- A sprite list is as long as its count says. -/
theorem spriteList_eq_ok_iff {ids : List UInt16} {r s : ByteReader} :
    (∃ count r', ByteReader.u16 r = .ok (count, r') ∧ spriteIds count.toNat r' = .ok (ids, s)) ↔
      ids.length ≤ 65535 ∧
        r.Takes (LittleEndian.u16 (UInt16.ofNat ids.length) ++ ids.flatMap LittleEndian.u16) s := by
  constructor
  · rintro ⟨count, r', hcount, hids⟩
    obtain ⟨hlength, htakes⟩ := takes_of_spriteIds hids
    rw [hlength, UInt16.ofNat_toNat]
    exact ⟨Nat.le_of_lt_succ count.toNat_lt, (ByteReader.u16_eq_ok_iff.1 hcount).append htakes⟩
  · rintro ⟨hlength, hlist⟩
    obtain ⟨r', hcount, hids⟩ := ByteReader.takes_append.1 hlist
    refine ⟨UInt16.ofNat ids.length, r', ByteReader.u16_eq_ok_iff.2 hcount, ?_⟩
    rw [UInt16.toNat_ofNat_of_lt' (Nat.lt_succ_of_le hlength)]
    exact spriteIds_of_takes hids

theorem operationsStart_of_takes {ids : List UInt16} {base : Nat} {payload : List UInt8}
    {s : ByteReader} (h : (ByteReader.ofBytes base payload).Takes
      (LittleEndian.u16 (UInt16.ofNat ids.length) ++ ids.flatMap LittleEndian.u16) s) :
    s.offset - base = 2 + 2 * ids.length := by
  rw [h.2, length_spriteList]
  exact Nat.add_sub_cancel_left base _

/-- A payload holds a sprite list, as long as its count says, and a stream of operations. -/
theorem decodeRaw_eq_ok_iff {d : Decoder} {raw : RawProgram} {decoded : DecodedProgram} :
    d.decodeRaw raw = .ok decoded ↔
      ∃ (ids : List UInt16) (s : ByteReader) (ops : List Operation) (stop : Option EarlyStop),
        ids.length ≤ 65535 ∧
        (ByteReader.ofBytes raw.payloadOffset raw.payload).Takes
          (LittleEndian.u16 (UInt16.ofNat ids.length) ++ ids.flatMap LittleEndian.u16) s ∧
        d.operations raw.declaredCount.toNat s = .ok (ops, stop) ∧
        decoded = {
          demoId := raw.demoId
          declaredCount := raw.declaredCount
          spriteIds := distinctAscending ids
          operations := ops
          payload := raw.payload
          operationsStart := 2 + 2 * ids.length
          stoppedAt := stop } := by
  simp only [decodeRaw, bind_eq_ok_iff, Prod.exists]
  constructor
  · rintro ⟨count, r, hcount, ids, s, hids, ops, stop, hops, hdecoded⟩
    obtain ⟨hlength, hlist⟩ := spriteList_eq_ok_iff.1 ⟨count, r, hcount, hids⟩
    refine ⟨ids, s, ops, stop, hlength, hlist, hops, ?_⟩
    rw [← operationsStart_of_takes hlist]
    exact (Except.ok.inj hdecoded).symm
  · rintro ⟨ids, s, ops, stop, hlength, hlist, hops, rfl⟩
    obtain ⟨count, r, hcount, hids⟩ := spriteList_eq_ok_iff.2 ⟨hlength, hlist⟩
    refine ⟨count, r, hcount, ids, s, hids, ops, stop, hops, ?_⟩
    rw [operationsStart_of_takes hlist]
    rfl

theorem decodeRaw_of_forest (d : Decoder) (demoId declaredCount : UInt16) (payloadOffset : Nat)
    {ids : List UInt16} {forest : List Operation} (hids : ids.length ≤ 65535)
    (hcount : declaredCount.toNat = forest.length) (hgrouped : ∀ op ∈ forest, op.Grouped) :
    d.decodeRaw ⟨demoId, declaredCount, encodePayload ids forest, payloadOffset⟩ =
      .ok {
        demoId
        declaredCount
        spriteIds := distinctAscending ids
        operations := Forest.flatten (Operation.localizeAll d.strings forest)
        payload := encodePayload ids forest
        operationsStart := 2 + 2 * ids.length
        stoppedAt := none } := by
  have hpayload : (ByteReader.ofBytes payloadOffset (encodePayload ids forest)).rest =
      encodePayload ids forest ++ [] := (List.append_nil _).symm
  obtain ⟨rest, -, htakes⟩ := ByteReader.exists_takes hpayload
  obtain ⟨s, hlist, hops⟩ := ByteReader.takes_append.1 htakes
  have hoperations : d.operations declaredCount.toNat s =
      .ok (Forest.flatten (Operation.localizeAll d.strings forest), none) := by
    rw [← Operation.encodeAll_localizeAll d.strings, ← Forest.encodeAll_flatten] at hops
    rw [hcount]
    exact operations_of_takes (Forest.decodable_flatten _ hgrouped) hops
      (Forest.fills_flatten _ hgrouped)
  exact decodeRaw_eq_ok_iff.2 ⟨ids, s, _, none, hids, hlist, hoperations, rfl⟩

theorem decodeProgram_eq_ok_iff {d : Decoder} {bytes : List UInt8} {decoded : DecodedProgram} :
    d.decodeProgram bytes = .ok decoded ↔
      ∃ raw rest, RawProgram.read (.ofBytes 0 bytes) = .ok (raw, rest) ∧
        d.decodeRaw raw = .ok decoded := by
  rw [decodeProgram, bind_eq_ok_iff, Prod.exists]

/-- What is known of a program that was decoded, however strictly. -/
theorem spec_of_decodeRaw {d : Decoder} {raw : RawProgram} {decoded : DecodedProgram}
    (h : d.decodeRaw raw = .ok decoded) :
    (∀ op ∈ decoded.operations, op.Legible d.strings) ∧
      (decoded.stoppedAt = none →
        Operation.Fills decoded.declaredCount.toNat decoded.operations) ∧
      decoded.spriteIds.length ≤ 65535 ∧ decoded.spriteIds.Pairwise (· < ·) := by
  obtain ⟨ids, s, ops, stop, hids, -, hops, rfl⟩ := decodeRaw_eq_ok_iff.1 h
  obtain ⟨hlegible, hfills⟩ := legible_of_operations hops
  exact ⟨hlegible, hfills, Nat.le_trans (length_distinctAscending_le ids) hids,
    (distinctAscending_spec ids).1⟩

theorem spec_of_decodeProgram {d : Decoder} {bytes : List UInt8} {decoded : DecodedProgram}
    (h : d.decodeProgram bytes = .ok decoded) :
    (∀ op ∈ decoded.operations, op.Legible d.strings) ∧
      (decoded.stoppedAt = none →
        Operation.Fills decoded.declaredCount.toNat decoded.operations) ∧
      decoded.spriteIds.length ≤ 65535 ∧ decoded.spriteIds.Pairwise (· < ·) := by
  obtain ⟨raw, rest, -, hraw⟩ := decodeProgram_eq_ok_iff.1 h
  exact spec_of_decodeRaw hraw

end Decoder

end DemoReel
