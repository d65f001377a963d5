import DemoReel.Program.Archive
import DemoReel.Proofs.Program.Layout

/-!
# The leaves of a forest

Only leaves do anything; blocks say which of them run side by side.  Grouping a flat stream into a
forest moves leaves, but it neither loses nor adds one; so what decoding yields, on its own or as
part of an archive, has no unknown operation at any depth.
-/

namespace DemoReel

namespace Operation

mutual

/-- The instructions of an operation, depth first. -/
def leaves : Operation → List Instruction
  | leaf instruction => [instruction]
  | block _ children => leavesAll children

def leavesAll : List Operation → List Instruction
  | [] => []
  | op :: ops => leaves op ++ leavesAll ops

end

theorem leavesAll_eq_flatMap (ops : List Operation) : leavesAll ops = ops.flatMap leaves := by
  induction ops with
  | nil => rfl
  | cons op ops ih => rw [leavesAll, ih, List.flatMap_cons]

theorem leavesAll_append (ops more : List Operation) :
    leavesAll (ops ++ more) = leavesAll ops ++ leavesAll more := by
  simp only [leavesAll_eq_flatMap, List.flatMap_append]

theorem leaves_subset_leavesAll {op : Operation} {ops : List Operation} (h : op ∈ ops) :
    op.leaves ⊆ leavesAll ops := by
  intro i hi
  rw [leavesAll_eq_flatMap]
  exact List.mem_flatMap.2 ⟨op, h, hi⟩

mutual

theorem leavesAll_flattenOne : ∀ op : Operation, leavesAll (Forest.flattenOne op) = op.leaves
  | leaf instruction => by rw [Forest.flattenOne, leavesAll, leavesAll, List.append_nil]
  | block childCount children => by
    rw [Forest.flattenOne, leavesAll, leaves, leavesAll, List.nil_append,
      leavesAll_flatten children, leaves]

theorem leavesAll_flatten : ∀ ops : List Operation, leavesAll (Forest.flatten ops) = leavesAll ops
  | [] => by rw [Forest.flatten]
  | op :: ops => by
    rw [Forest.flatten, leavesAll_append, leavesAll_flattenOne op, leavesAll_flatten ops, leavesAll]

end

theorem leavesAll_ofFlat (ops : List Operation) :
    leavesAll (Forest.ofFlat ops) = leavesAll ops := by
  calc
    leavesAll (Forest.ofFlat ops) = leavesAll (Forest.flatten (Forest.ofFlat ops)) :=
      (leavesAll_flatten _).symm
    _ = leavesAll (Forest.flatten ops) := by rw [Forest.flatten_ofFlat]
    _ = leavesAll ops := leavesAll_flatten ops

/-- No operation of the forest is unknown. -/
def AllKnown (forest : List Operation) : Prop :=
  ∀ i ∈ leavesAll forest, ∃ opcode, i.opcode? = some opcode

theorem allKnown_of_legible {table : Option StringTable} {ops : List Operation}
    (h : ∀ op ∈ ops, op.Legible table) : AllKnown ops := by
  induction ops with
  | nil => exact nofun
  | cons op ops ih =>
    obtain ⟨hop, hops⟩ := List.forall_mem_cons.1 h
    intro i hi
    rw [leavesAll, List.mem_append] at hi
    cases hi with
    | inr hrest => exact ih hops i hrest
    | inl hhere =>
      cases op with
      | leaf instruction =>
        rw [leaves, List.mem_singleton] at hhere
        exact hhere ▸ hop.known
      | block childCount children =>
        obtain rfl : children = [] := hop.childless
        cases hhere

end Operation

/-! ## Decoded programs -/

/-- The program was decoded, on its own or as part of an archive. -/
inductive DemoProgram.DecodedBy (d : Decoder) (program : DemoProgram) : Prop
  | single {bytes : List UInt8} {decoded : DecodedProgram}
      (decodes : d.decodeProgram bytes = .ok decoded) (isProgram : decoded.toProgram = program)
  | archived {bytes : List UInt8} {archive : Archive}
      (decodes : Archive.decode d bytes = .ok archive) (isProgram : program ∈ archive.programs)

theorem Archive.exists_decodeRaw_of_entries {d : Decoder} {count index : Nat} {r : ByteReader}
    {program : DemoProgram} (h : program ∈ (entries d count index r).1) :
    ∃ raw decoded, d.decodeRaw raw = .ok decoded ∧ decoded.toProgram = program := by
  induction count generalizing index r with
  | zero => cases h
  | succ count ih =>
    rw [entries] at h
    split at h
    · cases h
    · next raw rest hread =>
      dsimp only at h
      split at h
      · next decoded hdecoded =>
        cases List.mem_cons.1 h with
        | inl hfirst => exact ⟨raw, decoded, hdecoded, hfirst.symm⟩
        | inr hmore => exact ih hmore
      · exact ih h

theorem DemoProgram.DecodedBy.exists_decodeRaw {d : Decoder} {program : DemoProgram}
    (h : program.DecodedBy d) :
    ∃ raw decoded, d.decodeRaw raw = .ok decoded ∧ decoded.toProgram = program := by
  cases h with
  | single decodes isProgram =>
    obtain ⟨raw, rest, -, hraw⟩ := Decoder.decodeProgram_eq_ok_iff.1 decodes
    exact ⟨raw, _, hraw, isProgram⟩
  | @archived bytes archive decodes isProgram =>
    obtain ⟨count, -, hentries⟩ := bind_eq_ok_iff.1 decodes
    obtain rfl := Except.ok.inj hentries
    exact Archive.exists_decodeRaw_of_entries isProgram

theorem DemoProgram.DecodedBy.allKnown {d : Decoder} {program : DemoProgram}
    (h : program.DecodedBy d) : Operation.AllKnown program.operations := by
  obtain ⟨raw, decoded, hraw, rfl⟩ := h.exists_decodeRaw
  intro i hi
  rw [DecodedProgram.toProgram, Operation.leavesAll_ofFlat] at hi
  exact Operation.allKnown_of_legible (Decoder.spec_of_decodeRaw hraw).1 i hi

end DemoReel
