import DemoReel.Program.Forest
import DemoReel.Proofs.Program.Grammar

/-!
# Forests as flat streams

A forest that the byte format can hold is flattened into a stream whose growing count starts at the
number of trees and is used up at the very end.  Grouping the stream gives the forest back.
-/

namespace DemoReel

/-! ## Resolving every text anew -/

def DemoText.localize (table : Option StringTable) (text : DemoText) : DemoText :=
  ⟨text.raw, Localization.resolve text.raw table⟩

def Instruction.localize (table : Option StringTable) : Instruction → Instruction
  | paintChat lineCount offsetY text => paintChat lineCount offsetY (text.localize table)
  | paintHint text => paintHint (text.localize table)
  | i => i

theorem Instruction.encodeFields_localize (table : Option StringTable) (i : Instruction) :
    (i.localize table).encodeFields = i.encodeFields := by
  cases i <;> rfl

theorem Instruction.opcodeByte_localize (table : Option StringTable) (i : Instruction) :
    (i.localize table).opcodeByte = i.opcodeByte := by
  cases i <;> rfl

theorem Instruction.Writable.decodable_localize {i : Instruction} (h : i.Writable)
    (table : Option StringTable) : (i.localize table).Decodable table := by
  refine ⟨?_, fun text htext ↦ ?_⟩
  · cases i <;> exact h
  · cases i <;> cases htext <;> rfl

namespace Operation

mutual

/-- The operation with the strings that the table has for its texts. -/
def localize (table : Option StringTable) : Operation → Operation
  | leaf instruction => leaf (instruction.localize table)
  | block childCount children => block childCount (localizeAll table children)

def localizeAll (table : Option StringTable) : List Operation → List Operation
  | [] => []
  | op :: ops => localize table op :: localizeAll table ops

end

theorem localizeAll_eq_map (table : Option StringTable) (ops : List Operation) :
    localizeAll table ops = ops.map (localize table) := by
  induction ops with
  | nil => rfl
  | cons op ops ih => rw [localizeAll, ih, List.map_cons]

mutual

theorem encode_localize (table : Option StringTable) :
    ∀ op : Operation, (op.localize table).encode = op.encode
  | leaf i => by
    simp only [localize, encode, i.opcodeByte_localize, i.encodeFields_localize]
  | block childCount children => by
    simp only [localize, encode, encodeAll_localizeAll table children]

theorem encodeAll_localizeAll (table : Option StringTable) :
    ∀ ops : List Operation, encodeAll (localizeAll table ops) = encodeAll ops
  | [] => rfl
  | op :: ops => by
    rw [localizeAll, encodeAll, encode_localize table op, encodeAll_localizeAll table ops,
      encodeAll]

end

theorem encodeAll_append (ops more : List Operation) :
    encodeAll (ops ++ more) = encodeAll ops ++ encodeAll more := by
  induction ops with
  | nil => rfl
  | cons op ops ih => rw [List.cons_append, encodeAll, ih, encodeAll, List.append_assoc]

/-! ## Forests one level deep -/

/-- The operation is a leaf that can be written. -/
def WritableLeaf (op : Operation) : Prop := ∃ i : Instruction, op = leaf i ∧ i.Writable

/-- The operation can stand in a forest that is read back as it is: a block counts its children and
none of them is a block. -/
def Grouped : Operation → Prop
  | leaf instruction => instruction.Writable
  | block childCount children =>
    childCount.toNat = children.length ∧ ∀ child ∈ children, child.WritableLeaf

theorem WritableLeaf.localize {op : Operation} (h : op.WritableLeaf)
    (table : Option StringTable) :
    ∃ i : Instruction, op.localize table = leaf i ∧ i.Decodable table := by
  obtain ⟨i, rfl, hi⟩ := h
  exact ⟨i.localize table, rfl, hi.decodable_localize table⟩

/-! ## The growing count along a flat stream -/

theorem fills_append {m n : Nat} {ops more : List Operation} (hops : Fills m ops)
    (hmore : Fills n more) : Fills (m + n) (ops ++ more) := by
  induction ops generalizing m with
  | nil =>
    obtain rfl := fills_nil.1 hops
    rwa [Nat.zero_add, List.nil_append]
  | cons op ops ih =>
    cases m with
    | zero => exact (not_fills_zero_cons hops).elim
    | succ m =>
      have htail := ih (fills_succ_cons.1 hops)
      rw [Nat.add_right_comm] at htail ⊢
      exact fills_succ_cons.2 htail

theorem fills_leaves {ops : List Operation} (h : ∀ op ∈ ops, ∃ i, op = leaf i) :
    Fills ops.length ops := by
  induction ops with
  | nil => exact fills_nil.2 rfl
  | cons op ops ih =>
    obtain ⟨⟨i, rfl⟩, hops⟩ := List.forall_mem_cons.1 h
    exact fills_succ_cons.2 (ih hops)

end Operation

namespace Forest

open Operation

mutual

theorem encodeAll_flattenOne : ∀ op : Operation, encodeAll (flattenOne op) = op.encode
  | leaf i => by simp [flattenOne, encodeAll]
  | block childCount children => by
    simp [flattenOne, encodeAll, encode, encodeAll_flatten children]

theorem encodeAll_flatten : ∀ ops : List Operation, encodeAll (flatten ops) = encodeAll ops
  | [] => rfl
  | op :: ops => by
    rw [flatten, encodeAll_append, encodeAll_flattenOne op, encodeAll_flatten ops, encodeAll]

end

theorem flatten_append (ops more : List Operation) :
    flatten (ops ++ more) = flatten ops ++ flatten more := by
  induction ops with
  | nil => rfl
  | cons op ops ih => rw [List.cons_append, flatten, ih, flatten, List.append_assoc]

/-- Flattening undoes grouping. -/
theorem flatten_ofFlat (ops : List Operation) : flatten (ofFlat ops) = flatten ops := by
  fun_induction ofFlat ops with
  | case1 => rfl
  | case2 instruction rest ih => rw [flatten, ih, flatten]
  | case3 childCount children rest ih =>
    have hsplit : flatten rest = flatten (rest.take childCount.toNat) ++
        flatten (rest.drop childCount.toNat) := by
      rw [← flatten_append, List.take_append_drop]
    rw [flatten, flatten, flattenOne, flattenOne, ih, flatten_append, hsplit]
    simp only [List.cons_append, List.append_assoc]

/-- A flat stream is flat already. -/
theorem flatten_childless {ops : List Operation} (h : ∀ op ∈ ops, op.children = []) :
    flatten ops = ops := by
  induction ops with
  | nil => rfl
  | cons op ops ih =>
    obtain ⟨hop, hops⟩ := List.forall_mem_cons.1 h
    rw [flatten, ih hops]
    cases op with
    | leaf instruction => rfl
    | block childCount children =>
      obtain rfl : children = [] := hop
      rfl

/-- Grouping changes nothing about the bytes. -/
theorem encodeAll_ofFlat (ops : List Operation) : encodeAll (ofFlat ops) = encodeAll ops := by
  rw [← encodeAll_flatten, flatten_ofFlat, encodeAll_flatten]

theorem flatten_leaves {ops : List Operation} (h : ∀ op ∈ ops, ∃ i, op = leaf i) :
    flatten ops = ops := by
  induction ops with
  | nil => rfl
  | cons op ops ih =>
    obtain ⟨⟨i, rfl⟩, hops⟩ := List.forall_mem_cons.1 h
    rw [flatten, flattenOne, ih hops, List.singleton_append]

variable (table : Option StringTable) {forest : List Operation}

theorem children_localize {childCount : UInt8} {children : List Operation}
    (h : (block childCount children).Grouped) :
    (localizeAll table children).length = childCount.toNat ∧
      ∀ child ∈ localizeAll table children, ∃ i, child = leaf i ∧ i.Decodable table := by
  rw [localizeAll_eq_map]
  refine ⟨by rw [List.length_map, h.1], fun child hchild ↦ ?_⟩
  obtain ⟨child, hmem, rfl⟩ := List.mem_map.1 hchild
  exact (h.2 child hmem).localize table

theorem flattenOne_localize_block {childCount : UInt8} {children : List Operation}
    (h : (block childCount children).Grouped) :
    flattenOne ((block childCount children).localize table) =
      block childCount [] :: localizeAll table children := by
  obtain ⟨-, hleaves⟩ := children_localize table h
  rw [localize, flattenOne, flatten_leaves fun child hchild ↦ ?_]
  exact (hleaves child hchild).imp fun _ hi ↦ hi.1

theorem decodable_flattenOne {op : Operation} (h : op.Grouped) :
    ∀ flat ∈ flattenOne (op.localize table), flat.Decodable table := by
  cases op with
  | leaf i =>
    intro flat hflat
    obtain rfl := List.mem_singleton.1 hflat
    exact Instruction.Writable.decodable_localize h table
  | block childCount children =>
    rw [flattenOne_localize_block table h]
    refine List.forall_mem_cons.2 ⟨rfl, fun flat hflat ↦ ?_⟩
    obtain ⟨i, rfl, hi⟩ := (children_localize table h).2 flat hflat
    exact hi

theorem fills_flattenOne {op : Operation} (h : op.Grouped) :
    Fills 1 (flattenOne (op.localize table)) := by
  cases op with
  | leaf i => exact fills_succ_cons.2 (fills_nil.2 rfl)
  | block childCount children =>
    obtain ⟨hlength, hleaves⟩ := children_localize table h
    have hfills := fills_leaves fun child hchild ↦ (hleaves child hchild).imp fun _ hi ↦ hi.1
    rw [flattenOne_localize_block table h]
    apply fills_succ_cons.2
    rwa [Nat.zero_add, declaredChildren, ← hlength]

theorem ofFlat_flattenOne_append {op : Operation} (h : op.Grouped) (rest : List Operation) :
    ofFlat (flattenOne (op.localize table) ++ rest) = op.localize table :: ofFlat rest := by
  cases op with
  | leaf i => rw [localize, flattenOne, List.singleton_append, ofFlat]
  | block childCount children =>
    have hlength := (children_localize table h).1
    rw [flattenOne_localize_block table h, List.cons_append, ofFlat, localize, List.nil_append,
      ← hlength, List.take_left, List.drop_left]

theorem decodable_flatten (h : ∀ op ∈ forest, op.Grouped) :
    ∀ flat ∈ flatten (localizeAll table forest), flat.Decodable table := by
  induction forest with
  | nil => exact nofun
  | cons op forest ih =>
    obtain ⟨hop, hforest⟩ := List.forall_mem_cons.1 h
    rw [localizeAll, flatten]
    intro flat hflat
    obtain hflat | hflat := List.mem_append.1 hflat
    · exact decodable_flattenOne table hop flat hflat
    · exact ih hforest flat hflat

/-- The declared count of a forest, which is the number of its trees, asks for exactly its flat
stream. -/
theorem fills_flatten (h : ∀ op ∈ forest, op.Grouped) :
    Fills forest.length (flatten (localizeAll table forest)) := by
  induction forest with
  | nil => exact fills_nil.2 rfl
  | cons op forest ih =>
    obtain ⟨hop, hforest⟩ := List.forall_mem_cons.1 h
    rw [localizeAll, flatten, List.length_cons, Nat.add_comm]
    exact fills_append (fills_flattenOne table hop) (ih hforest)

/-- Grouping undoes flattening. -/
theorem ofFlat_flatten (h : ∀ op ∈ forest, op.Grouped) :
    ofFlat (flatten (localizeAll table forest)) = localizeAll table forest := by
  induction forest with
  | nil => rw [localizeAll, flatten, ofFlat]
  | cons op forest ih =>
    obtain ⟨hop, hforest⟩ := List.forall_mem_cons.1 h
    rw [localizeAll, flatten, ofFlat_flattenOne_append table hop, ih hforest]

end Forest

end DemoReel
