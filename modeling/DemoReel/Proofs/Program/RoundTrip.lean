import DemoReel.Proofs.Program.Layout

/-!
# Writing a program and reading it back

The header gives the size of the payload, so whatever follows a program does not matter.  Inside the
payload nothing gives the size of the operations: they end where the growing count is used up.
-/

namespace DemoReel

namespace Decoder

/-- A program that the byte format can hold is read back as it was written, with every text resolved
against the table of the decoder and with the sprite ids in order. -/
theorem decodeProgram_encodeProgram (d : Decoder) (demoId : UInt16) (ids : List UInt16)
    (forest : List Operation) (trailing : List UInt8) (hids : ids.length ≤ 65535)
    (hforest : forest.length ≤ 65535) (hgrouped : ∀ op ∈ forest, op.Grouped)
    (hpayload : 2 + 2 * ids.length + (Operation.encodeAll forest).length < 2 ^ 32) :
    ∃ decoded, d.decodeProgram (encodeProgram demoId ids forest ++ trailing) = .ok decoded ∧
      decoded.toProgram.demoId = demoId ∧
      decoded.toProgram.declaredCount.toNat = forest.length ∧
      decoded.toProgram.spriteIds.Pairwise (· < ·) ∧
      (∀ id, id ∈ decoded.toProgram.spriteIds ↔ id ∈ ids) ∧
      decoded.toProgram.stoppedAt = none ∧
      decoded.toProgram.operationBytes = Operation.encodeAll forest ∧
      decoded.toProgram.operations = forest.map (Operation.localize d.strings) := by
  have hcount : (UInt16.ofNat forest.length).toNat = forest.length :=
    UInt16.toNat_ofNat_of_lt' (Nat.lt_succ_of_le hforest)
  have hsize : (encodePayload ids forest).length < 2 ^ 32 := by
    rwa [length_encodePayload]
  obtain ⟨rest, -, htakes⟩ := ByteReader.exists_takes
    (r := .ofBytes 0 (encodeProgram demoId ids forest ++ trailing)) rfl
  rw [encodeProgram_eq] at htakes
  have hread := read_of_takes hsize htakes
  have hraw := decodeRaw_of_forest d demoId (UInt16.ofNat forest.length) 8 hids hcount hgrouped
  have hdecode : d.decodeProgram (encodeProgram demoId ids forest ++ trailing) =
      d.decodeRaw ⟨demoId, UInt16.ofNat forest.length, encodePayload ids forest, 8⟩ := by
    rw [encodeProgram_eq, decodeProgram, hread]
    rfl
  have hspriteIds := distinctAscending_spec ids
  refine ⟨_, hdecode.trans hraw, rfl, hcount, hspriteIds.1, hspriteIds.2, rfl, ?_, ?_⟩
  · have hlength : 2 + 2 * ids.length = (LittleEndian.u16 (UInt16.ofNat ids.length) ++
        ids.flatMap LittleEndian.u16).length := by
      rw [List.length_append, length_flatMap_u16, LittleEndian.length_u16]
    simp only [DecodedProgram.toProgram, DemoProgram.operationBytes, encodePayload, hlength,
      List.drop_left]
  · simp only [DecodedProgram.toProgram]
    rw [Forest.ofFlat_flatten _ hgrouped, Operation.localizeAll_eq_map]

/-- A hint inside a block is resolved, and the repeated sprite id is read once. -/
theorem decodeProgram_hintInBlock :
    ∃ decoded, (⟨{}, some []⟩ : Decoder).decodeProgram (encodeProgram 7 [3, 1, 3]
        [.leaf (.delay 3), .block 2 [.leaf (.playerMove .up), .leaf (.paintHint ⟨"5", none⟩)]] ++
        [255]) = .ok decoded ∧
      decoded.toProgram.operations =
        [.leaf (.delay 3),
          .block 2 [.leaf (.playerMove .up), .leaf (.paintHint ⟨"5", some "null"⟩)]] := by
  have hgrouped : ∀ op ∈ [Operation.leaf (.delay 3),
      .block 2 [.leaf (.playerMove .up), .leaf (.paintHint ⟨"5", none⟩)]], op.Grouped := by
    simp only [List.forall_mem_cons, Operation.Grouped, Operation.WritableLeaf]
    have hfits : DemoText.Fits ⟨"5", none⟩ := by
      unfold DemoText.Fits
      decide
    exact ⟨trivial, ⟨rfl, ⟨_, rfl, 1, rfl⟩, ⟨_, rfl, hfits⟩, List.forall_mem_nil _⟩,
      List.forall_mem_nil _⟩
  obtain ⟨decoded, hdecoded, -, -, -, -, -, -, hoperations⟩ :=
    decodeProgram_encodeProgram ⟨{}, some []⟩ 7 [3, 1, 3] _ [255] (by decide) (by decide) hgrouped
      (by decide)
  exact ⟨decoded, hdecoded, hoperations⟩

end Decoder

end DemoReel
