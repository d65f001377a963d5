import DemoReel.Proofs.Program.Catalog
import DemoReel.Proofs.Program.Leaves
import Mathlib.Data.List.Forall2

/-!
# String tables and structure

The string table says what a text stands for and nothing else.  Decoding with one table is decoding
with any other one and then resolving every text anew, so tables never show in what is read, in an
error, or in the bytes that are written back.
-/

namespace DemoReel

/-! ## Resolving twice -/

/-- A text is resolved if there is a table and its key is known. -/
theorem Localization.isSome_resolve {raw : String} {table : Option StringTable} :
    (resolve raw table).isSome = true ↔ table.isSome = true ∧ (index? raw).isSome = true := by
  unfold resolve
  cases index? raw <;> cases table <;> simp [pure]

theorem Instruction.localize_localize (table table' : Option StringTable) (i : Instruction) :
    (i.localize table).localize table' = i.localize table' := by
  cases i <;> rfl

theorem Instruction.text?_localize (table : Option StringTable) (i : Instruction) :
    (i.localize table).text? = i.text?.map (DemoText.localize table) := by
  cases i <;> rfl

namespace Operation

variable (table table' : Option StringTable)

mutual

theorem localize_localize : ∀ op : Operation,
    (op.localize table).localize table' = op.localize table'
  | leaf i => by rw [localize, localize, i.localize_localize, localize]
  | block childCount children => by
    rw [localize, localize, localizeAll_localizeAll children, localize]

theorem localizeAll_localizeAll : ∀ ops : List Operation,
    localizeAll table' (localizeAll table ops) = localizeAll table' ops
  | [] => rfl
  | op :: ops => by
    rw [localizeAll, localizeAll, localize_localize op, localizeAll_localizeAll ops, localizeAll]

end

mutual

theorem leaves_localize : ∀ op : Operation,
    (op.localize table).leaves = op.leaves.map (Instruction.localize table)
  | leaf i => by rw [localize, leaves, leaves, List.map_singleton]
  | block childCount children => by rw [localize, leaves, leavesAll_localizeAll children, leaves]

theorem leavesAll_localizeAll : ∀ ops : List Operation,
    leavesAll (localizeAll table ops) = (leavesAll ops).map (Instruction.localize table)
  | [] => rfl
  | op :: ops => by
    rw [localizeAll, leavesAll, leaves_localize op, leavesAll_localizeAll ops, leavesAll,
      List.map_append]

end

theorem declaredChildren_localize (op : Operation) :
    (op.localize table).declaredChildren = op.declaredChildren := by
  cases op <;> rw [localize] <;> rfl

end Operation

open Operation

/-- Texts are resolved before or after operations are grouped. -/
theorem Forest.ofFlat_localizeAll (table : Option StringTable) (ops : List Operation) :
    ofFlat (localizeAll table ops) = localizeAll table (ofFlat ops) := by
  fun_induction ofFlat ops with
  | case1 => rw [localizeAll, ofFlat]
  | case2 i rest ih => rw [localizeAll, localize, ofFlat, ih, localizeAll, localize]
  | case3 childCount children rest ih =>
    -- a block takes its children by number, and resolving keeps the number of operations
    rw [localizeAll_eq_map] at ih
    simp only [localizeAll_eq_map, List.map_cons, localize, ofFlat, List.map_append, List.map_take,
      ← List.map_drop, ih]

/-! ## Programs -/

def DecodedProgram.localize (table : Option StringTable) (d : DecodedProgram) : DecodedProgram :=
  { d with operations := localizeAll table d.operations }

namespace DemoProgram

def localize (table : Option StringTable) (p : DemoProgram) : DemoProgram :=
  { p with operations := localizeAll table p.operations }

/-- The texts of a program, at every depth. -/
def texts (p : DemoProgram) : List DemoText :=
  (leavesAll p.operations).filterMap Instruction.text?

theorem localize_localize (table table' : Option StringTable) (p : DemoProgram) :
    (p.localize table).localize table' = p.localize table' := by
  rw [localize, localize, localize, localizeAll_localizeAll]

theorem texts_localize (table : Option StringTable) (p : DemoProgram) :
    (p.localize table).texts = p.texts.map (DemoText.localize table) := by
  simp only [texts, localize, leavesAll_localizeAll, List.filterMap_map, List.map_filterMap]
  refine List.filterMap_congr fun i _ ↦ ?_
  exact i.text?_localize table

end DemoProgram

theorem DecodedProgram.toProgram_localize (table : Option StringTable) (d : DecodedProgram) :
    (d.localize table).toProgram = d.toProgram.localize table := by
  simp only [toProgram, localize, DemoProgram.localize, Forest.ofFlat_localizeAll]

/-! ## Decoding with another table -/

namespace Decoder

/-- The decoder with another table. -/
def withStrings (d : Decoder) (table : Option StringTable) : Decoder := { d with strings := table }

def Next.localize (table : Option StringTable) : Next → Next
  | operation op rest => operation (op.localize table) rest
  | unknown stop => unknown stop

variable (d : Decoder) (table : Option StringTable)

theorem text_withStrings : (d.withStrings table).text = DemoText.localize table <$> d.text := by
  simp only [text, withStrings, map_bind, map_pure, DemoText.localize]

theorem operation_withStrings (opcode : Opcode) :
    (d.withStrings table).operation opcode = Operation.localize table <$> d.operation opcode := by
  cases opcode <;>
    simp only [operation, text_withStrings, map_bind, map_pure, bind_map_left, Operation.localize,
      Instruction.localize, localizeAll]

theorem next_withStrings (r : ByteReader) :
    (d.withStrings table).next r = (d.next r).map (Next.localize table) := by
  unfold next
  rw [withStrings]
  cases ByteReader.u8 r with
  | error e => rfl
  | ok head =>
    simp only [bind, Except.bind]
    cases Opcode.ofByte? head.1 with
    | none => cases d.options.strictOpcodes <;> rfl
    | some opcode =>
      have hread : (d.withStrings table).operation opcode head.2 =
          (d.operation opcode head.2).map fun read ↦ (read.1.localize table, read.2) := by
        rw [operation_withStrings]
        rfl
      rw [withStrings] at hread
      simp only [hread]
      cases d.operation opcode head.2 <;> rfl

/-- Blocks announce as many children whatever the table, so the stream is read equally far. -/
theorem operations_withStrings (pending : Nat) (r : ByteReader) :
    (d.withStrings table).operations pending r =
      (d.operations pending r).map fun read ↦ (localizeAll table read.1, read.2) := by
  fun_induction d.operations pending r with
  | case1 r => rw [operations_zero]; rfl
  | case2 r pending e hnext =>
    rw [Nat.succ_eq_add_one, operations_succ, next_withStrings, hnext]
    rfl
  | case3 r pending stop hnext =>
    rw [Nat.succ_eq_add_one, operations_succ, next_withStrings, hnext]
    rfl
  | case4 r pending op rest hnext e hmore ih =>
    rw [hmore] at ih
    rw [Nat.succ_eq_add_one, operations_succ, next_withStrings, hnext]
    simp only [Except.map, Next.localize, bind, Except.bind, declaredChildren_localize, ih]
  | case5 r pending op rest hnext ops stop hmore ih =>
    rw [hmore] at ih
    rw [Nat.succ_eq_add_one, operations_succ, next_withStrings, hnext]
    simp only [Except.map, Next.localize, bind, Except.bind, declaredChildren_localize, ih,
      localizeAll]

theorem decodeRaw_withStrings (raw : RawProgram) :
    (d.withStrings table).decodeRaw raw =
      (d.decodeRaw raw).map (DecodedProgram.localize table) := by
  unfold decodeRaw
  cases ByteReader.u16 (.ofBytes raw.payloadOffset raw.payload) with
  | error e => rfl
  | ok counted =>
    simp only [bind, Except.bind]
    cases spriteIds counted.1.toNat counted.2 with
    | error e => rfl
    | ok ids =>
      simp only [operations_withStrings]
      cases d.operations raw.declaredCount.toNat ids.2 <;> rfl

end Decoder

/-! ## Archives -/

namespace DemoProgram

/-- The programs differ at most in what their texts stand for. -/
structure SameStructure (p p' : DemoProgram) : Prop where
  /-- Without their localized strings they are the same. -/
  erased : p.localize none = p'.localize none
  stoppedAt : p.stoppedAt = p'.stoppedAt
  payload : p.payload = p'.payload
  encoded : encodeAll p.operations = encodeAll p'.operations

theorem sameStructure_localize (table : Option StringTable) (p : DemoProgram) :
    p.SameStructure (p.localize table) where
  erased := (p.localize_localize table none).symm
  stoppedAt := rfl
  payload := rfl
  encoded := (encodeAll_localizeAll table p.operations).symm

end DemoProgram

namespace Archive

open ProgramImage (error?)

def localize (table : Option StringTable) (a : Archive) : Archive :=
  { a with programs := a.programs.map (DemoProgram.localize table) }

/-- The archives differ at most in what the texts of their programs stand for. -/
structure SameStructure (a a' : Archive) : Prop where
  declaredPrograms : a.declaredPrograms = a'.declaredPrograms
  errors : a.errors = a'.errors
  programs : a.programs.Forall₂ DemoProgram.SameStructure a'.programs

/-- Every text stands for the string that the table has for its key, where there is a table and the
key is known, and for nothing else. -/
def ResolvedBy (table : Option StringTable) (a : Archive) : Prop :=
  ∀ program ∈ a.programs, ∀ text ∈ program.texts,
    text.resolved = Localization.resolve text.raw table ∧
      (text.resolved.isSome = true ↔
        table.isSome = true ∧ (Localization.index? text.raw).isSome = true)

variable (d : Decoder) (table : Option StringTable)

theorem outcomeAt_withStrings (raw : RawProgram) (index : Nat) :
    outcomeAt (d.withStrings table) raw index =
      (outcomeAt d raw index).map (DemoProgram.localize table) := by
  rw [outcomeAt, d.decodeRaw_withStrings table raw, outcomeAt]
  cases d.decodeRaw raw with
  | error cause => rfl
  | ok decoded => exact congrArg Except.ok (decoded.toProgram_localize table)

/-- An archive is decoded with another table by resolving all of its texts anew. -/
theorem Catalog.decode_withStrings (catalog : Catalog) :
    catalog.decode (d.withStrings table) = (catalog.decode d).localize table := by
  have houtcomes : catalog.outcomes (d.withStrings table) =
      (catalog.outcomes d).map (Except.map (DemoProgram.localize table)) := by
    rw [outcomes, outcomes, outcomesAt, outcomesAt, List.map_map]
    exact List.map_congr_left fun entry _ ↦ outcomeAt_withStrings d table entry.1 entry.2
  have hprograms : ((catalog.outcomes d).map (Except.map (DemoProgram.localize table))).filterMap
      Except.toOption =
        ((catalog.outcomes d).filterMap Except.toOption).map (DemoProgram.localize table) := by
    rw [List.filterMap_map, List.map_filterMap]
    refine List.filterMap_congr fun outcome _ ↦ ?_
    cases outcome <;> rfl
  have herrors : ((catalog.outcomes d).map (Except.map (DemoProgram.localize table))).filterMap
      error? = (catalog.outcomes d).filterMap error? := by
    rw [List.filterMap_map]
    refine List.filterMap_congr fun outcome _ ↦ ?_
    cases outcome <;> rfl
  rw [decode, decode, houtcomes, hprograms, herrors]
  rfl

theorem sameStructure_localize (a : Archive) : a.SameStructure (a.localize table) where
  declaredPrograms := rfl
  errors := rfl
  programs := List.forall₂_map_right_iff.2
    (List.forall₂_same.2 fun p _ ↦ p.sameStructure_localize table)

theorem resolvedBy_localize (a : Archive) : (a.localize table).ResolvedBy table := by
  intro program hprogram text htext
  obtain ⟨p, -, rfl⟩ := List.mem_map.1 hprogram
  rw [DemoProgram.texts_localize] at htext
  obtain ⟨source, -, rfl⟩ := List.mem_map.1 htext
  exact ⟨rfl, Localization.isSome_resolve⟩

/-- A decoder resolves texts with its own table. -/
theorem resolvedBy_decode (catalog : Catalog) : (catalog.decode d).ResolvedBy d.strings := by
  have hself : catalog.decode d = (catalog.decode d).localize d.strings :=
    catalog.decode_withStrings d d.strings
  rw [hself]
  exact resolvedBy_localize d.strings _

/-- With any two string tables an archive is decoded to the same errors and to programs of the same
structure, and both times every text is resolved with the table at hand. -/
theorem localization_keeps_structure (options : DecodeOptions) (table table' : Option StringTable)
    (bytes : List UInt8) :
    Agree (fun a a' : Archive ↦ a.SameStructure a' ∧ a.ResolvedBy table ∧ a'.ResolvedBy table')
      (decode ⟨options, table⟩ bytes) (decode ⟨options, table'⟩ bytes) := by
  refine agree_decode (fun catalog ↦ ⟨?_, ?_, ?_⟩) bytes
  · have hother : catalog.decode ⟨options, table'⟩ =
        (catalog.decode ⟨options, table⟩).localize table' :=
      catalog.decode_withStrings ⟨options, table⟩ table'
    rw [hother]
    exact sameStructure_localize table' _
  · exact resolvedBy_decode ⟨options, table⟩ catalog
  · exact resolvedBy_decode ⟨options, table'⟩ catalog

end Archive

end DemoReel
