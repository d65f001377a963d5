import DemoReel.Proofs.Program.Leaves
import Mathlib

/-!
# The shape of a forest

Grouping makes forests of one level: a block takes what follows it as it is, up to the number it
declares, and only the last block of a stream can find too little.  These forests, and no others,
come back from their flat streams.  In a program that was decoded to its end no block is short of
children, and what the header counts are the top-level operations that no block inside a block has
announced.
-/

namespace DemoReel

open Operation

namespace Operation

theorem sizeAll_eq_sum (ops : List Operation) : sizeAll ops = (ops.map size).sum := by
  induction ops with
  | nil => rfl
  | cons op ops ih => rw [sizeAll, ih, List.map_cons, List.sum_cons]

theorem announced_leaves {ops : List Operation} (h : ∀ op ∈ ops, ∃ i, op = leaf i) :
    announced ops = 0 := by
  induction ops with
  | nil => rfl
  | cons op ops ih =>
    obtain ⟨⟨i, rfl⟩, hops⟩ := List.forall_mem_cons.1 h
    rw [announced_cons, ih hops]
    rfl

theorem le_length_of_fills {declared : Nat} {ops : List Operation} (h : Fills declared ops) :
    declared ≤ ops.length := by
  rw [h.1]
  exact Nat.le_add_right _ _

/-- Where so many operations of a stream have been read, the count asks for the rest of it. -/
theorem fills_drop {declared taken : Nat} {ops : List Operation}
    (h : Fills (declared + taken) ops) :
    Fills (declared + announced (ops.take taken)) (ops.drop taken) := by
  induction taken generalizing declared ops with
  | zero => exact h
  | succ taken ih =>
    cases ops with
    | nil =>
      have hnone := fills_nil.1 h
      omega
    | cons op ops =>
      have hrest : Fills (declared + op.declaredChildren + taken) ops := by
        rw [Nat.add_right_comm]
        exact fills_succ_cons.1 h
      rw [List.take_succ_cons, List.drop_succ_cons, announced_cons, ← Nat.add_assoc]
      exact ih hrest

end Operation

namespace Forest

/-! ## Flat streams -/

mutual

theorem childless_of_mem_flattenOne : ∀ {op flat : Operation}, flat ∈ flattenOne op →
    flat.children = []
  | leaf _, _, h => by
    rw [flattenOne, List.mem_singleton] at h
    rw [h, children]
  | block _ _, _, h => by
    rw [flattenOne] at h
    cases List.mem_cons.1 h with
    | inl hblock => rw [hblock, children]
    | inr hbelow => exact childless_of_mem_flatten hbelow

theorem childless_of_mem_flatten : ∀ {ops : List Operation} {flat : Operation},
    flat ∈ flatten ops → flat.children = []
  | [], _, h => by
    rw [flatten] at h
    cases h
  | _ :: _, _, h => by
    rw [flatten] at h
    exact (List.mem_append.1 h).elim childless_of_mem_flattenOne childless_of_mem_flatten

end

mutual

theorem length_flattenOne : ∀ op : Operation, (flattenOne op).length = op.size
  | leaf _ => rfl
  | block _ children => by
    rw [flattenOne, List.length_cons, length_flatten children, size, Nat.add_comm]

/-- A flat stream holds every operation of the forest once. -/
theorem length_flatten : ∀ ops : List Operation, (flatten ops).length = sizeAll ops
  | [] => rfl
  | op :: ops => by
    rw [flatten, List.length_append, length_flattenOne op, length_flatten ops, sizeAll]

end

theorem flatten_eq_nil_iff {ops : List Operation} : flatten ops = [] ↔ ops = [] := by
  cases ops with
  | nil => simp [flatten]
  | cons op ops => cases op <;> simp [flatten, flattenOne]

/-! ## Forests of one level -/

/-- The children of top-level blocks have no children of their own.  A block before the last
top-level operation has as many children as it declares, and the last one may have fewer. -/
structure OneLevel (forest : List Operation) : Prop where
  childless : ∀ op ∈ forest, ∀ child ∈ op.children, child.children = []
  full : ∀ op ∈ forest.dropLast, op.children.length = op.declaredChildren
  last : ∀ op ∈ forest.getLast?, op.children.length ≤ op.declaredChildren

/-- What a forest of one level says of its first operation, when `rest` follows it. -/
def Leads (op : Operation) (rest : List Operation) : Prop :=
  (∀ child ∈ op.children, child.children = []) ∧ op.children.length ≤ op.declaredChildren ∧
    (rest ≠ [] → op.children.length = op.declaredChildren)

theorem oneLevel_nil : OneLevel [] := ⟨nofun, nofun, nofun⟩

theorem oneLevel_cons {op : Operation} {rest : List Operation} :
    OneLevel (op :: rest) ↔ Leads op rest ∧ OneLevel rest := by
  cases rest with
  | nil =>
    constructor
    · intro h
      exact ⟨⟨h.childless op (by simp), h.last op (by simp), by simp⟩, oneLevel_nil⟩
    · rintro ⟨⟨hchildless, hle, -⟩, -⟩
      exact ⟨by simpa using hchildless, nofun, by simpa using hle⟩
  | cons next rest =>
    constructor
    · intro h
      obtain ⟨hchildless, hothers⟩ := List.forall_mem_cons.1 h.childless
      obtain ⟨hfull, hfullRest⟩ := List.forall_mem_cons.1 (List.dropLast_cons_cons ▸ h.full)
      exact ⟨⟨hchildless, Nat.le_of_eq hfull, fun _ ↦ hfull⟩, hothers, hfullRest,
        List.getLast?_cons_cons ▸ h.last⟩
    · rintro ⟨⟨hchildless, -, hfull⟩, hrest⟩
      refine ⟨List.forall_mem_cons.2 ⟨hchildless, hrest.childless⟩, ?_, ?_⟩
      · rw [List.dropLast_cons_cons]
        exact List.forall_mem_cons.2 ⟨hfull (List.cons_ne_nil _ _), hrest.full⟩
      · rw [List.getLast?_cons_cons]
        exact hrest.last

theorem leads_leaf (i : Instruction) (rest : List Operation) : Leads (leaf i) rest :=
  ⟨nofun, Nat.le_refl 0, fun _ ↦ rfl⟩

/-- A block finds its own children in front of the rest of the stream if it leads a forest of one
level. -/
theorem take_flatten_eq_iff {childCount : UInt8} {children rest : List Operation} :
    (flatten children ++ flatten rest).take childCount.toNat = children ↔
      Leads (block childCount children) rest := by
  constructor
  · intro htake
    have hchildless : ∀ child ∈ children, child.children = [] := by
      intro child hchild
      rw [← htake] at hchild
      exact (List.mem_append.1 (List.mem_of_mem_take hchild)).elim childless_of_mem_flatten
        childless_of_mem_flatten
    have hlength := congrArg List.length htake
    rw [flatten_childless hchildless, List.length_take, List.length_append] at hlength
    refine ⟨hchildless, ?_, fun hrest ↦ ?_⟩
    · simp only [Operation.children, declaredChildren]
      omega
    · have hpos := List.length_pos_iff.2 (mt flatten_eq_nil_iff.1 hrest)
      simp only [Operation.children, declaredChildren]
      omega
  · rintro ⟨hchildless, hle, hfull⟩
    simp only [Operation.children, declaredChildren] at hchildless hle hfull
    rw [flatten_childless hchildless]
    by_cases hrest : rest = []
    · rw [hrest, flatten, List.append_nil, List.take_of_length_le hle]
    · rw [← hfull hrest, List.take_left]

theorem drop_flatten {childCount : UInt8} {children rest : List Operation}
    (h : Leads (block childCount children) rest) :
    (flatten children ++ flatten rest).drop childCount.toNat = flatten rest := by
  have hsplit := List.take_append_drop childCount.toNat (flatten children ++ flatten rest)
  have hchildren : flatten children = children := flatten_childless h.1
  rw [take_flatten_eq_iff.2 h, hchildren] at hsplit
  rw [hchildren]
  exact List.append_cancel_left hsplit

/-- Grouping undoes flattening on the forests of one level, and on no others. -/
theorem ofFlat_flatten_iff {forest : List Operation} :
    ofFlat (flatten forest) = forest ↔ OneLevel forest := by
  induction forest with
  | nil => exact iff_of_true (by rw [flatten, ofFlat]) oneLevel_nil
  | cons op rest ih =>
    rw [oneLevel_cons, flatten]
    cases op with
    | leaf i =>
      rw [flattenOne, List.singleton_append, ofFlat, List.cons_inj_right, ih]
      exact (and_iff_right (leads_leaf i rest)).symm
    | block childCount children =>
      rw [flattenOne, List.cons_append, ofFlat, List.nil_append, List.cons.injEq, block.injEq,
        and_iff_right rfl, take_flatten_eq_iff]
      apply and_congr_right
      intro hleads
      rw [drop_flatten hleads, ih]

/-- Grouping loses and adds nothing, so that the flat stream, the bytes and the number of
operations stay the same, and it takes back a flattening exactly if the forest has one level. -/
theorem grouping_inverts_flattening (ops : List Operation) :
    flatten (ofFlat ops) = flatten ops ∧
      encodeAll (ofFlat ops) = encodeAll (flatten ops) ∧
      encodeAll (flatten ops) = encodeAll ops ∧
      (flatten ops).length = (ops.map size).sum ∧
      (ofFlat (flatten ops) = ops ↔ OneLevel ops) := by
  refine ⟨flatten_ofFlat ops, ?_, encodeAll_flatten ops, ?_, ofFlat_flatten_iff⟩
  · rw [encodeAll_ofFlat, encodeAll_flatten]
  · rw [length_flatten, sizeAll_eq_sum]

/-- A block that declares three children and has one of them comes back at the end of a forest, but
not in front of another operation, which becomes its second child. -/
example : OneLevel [block 3 [leaf .hideDemoSprite]] ∧
    ofFlat (flatten [block 3 [leaf .hideDemoSprite], leaf .hideDemoSprite]) =
      [block 3 [leaf .hideDemoSprite, leaf .hideDemoSprite]] :=
  ⟨⟨by simp [children], nofun, by simp [children, declaredChildren]⟩, by cbv⟩

/-! ## Streams that fill a count -/

variable {flat : List Operation}

/-- A flat stream is grouped into a forest of one level. -/
theorem oneLevel_ofFlat (hflat : ∀ op ∈ flat, op.children = []) : OneLevel (ofFlat flat) := by
  rw [← ofFlat_flatten_iff, flatten_ofFlat, flatten_childless hflat]

/-- Where a stream fills a count, every block in it finds as many operations behind it as it
declares. -/
theorem full_ofFlat {declared : Nat} (hflat : ∀ op ∈ flat, op.children = [])
    (h : Fills declared flat) :
    ∀ op ∈ ofFlat flat, op.children.length = op.declaredChildren := by
  fun_induction ofFlat flat generalizing declared with
  | case1 => exact List.forall_mem_nil _
  | case2 i rest ih =>
    cases declared with
    | zero => exact (not_fills_zero_cons h).elim
    | succ declared =>
      have hrest := (List.forall_mem_cons.1 hflat).2
      exact List.forall_mem_cons.2 ⟨rfl, ih hrest (fills_succ_cons.1 h)⟩
  | case3 childCount children rest ih =>
    cases declared with
    | zero => exact (not_fills_zero_cons h).elim
    | succ declared =>
      obtain ⟨hnone, hrest⟩ := List.forall_mem_cons.1 hflat
      have hfills : Fills (declared + childCount.toNat) rest := fills_succ_cons.1 h
      have hlength := le_length_of_fills hfills
      have hbelow : ∀ op ∈ rest.drop childCount.toNat, op.children = [] :=
        fun op hop ↦ hrest op (List.mem_of_mem_drop hop)
      refine List.forall_mem_cons.2 ⟨?_, ih hbelow (fills_drop hfills)⟩
      obtain rfl : children = [] := hnone
      simp only [Operation.children, declaredChildren, List.nil_append, List.length_take]
      omega

/-- The operations of a forest of one level, and what they announce, are those at the top and those
right below. -/
theorem count_flatten {forest : List Operation}
    (h : ∀ op ∈ forest, ∀ child ∈ op.children, child.children = []) :
    (flatten forest).length = forest.length + (forest.map fun op ↦ op.children.length).sum ∧
      announced (flatten forest) = announced forest + announced (forest.flatMap children) := by
  induction forest with
  | nil => exact ⟨rfl, rfl⟩
  | cons op rest ih =>
    obtain ⟨hop, hrest⟩ := List.forall_mem_cons.1 h
    obtain ⟨hlength, hannounced⟩ := ih hrest
    have hhere : (flattenOne op).length = 1 + op.children.length ∧
        announced (flattenOne op) = op.declaredChildren + announced op.children := by
      cases op with
      | leaf i => exact ⟨rfl, rfl⟩
      | block childCount below =>
        have hbelow : flatten below = below := flatten_childless hop
        rw [flattenOne, hbelow, List.length_cons, announced_cons]
        exact ⟨Nat.add_comm _ _, rfl⟩
    rw [flatten, List.length_append, announced_append, hlength, hannounced, hhere.1, hhere.2,
      List.length_cons, List.map_cons, List.sum_cons, announced_cons, List.flatMap_cons,
      announced_append]
    omega

/-- Of a stream that fills a count, those operations come to the top that the count names, and those
that blocks inside of blocks announce. -/
theorem length_ofFlat {declared : Nat} (hflat : ∀ op ∈ flat, op.children = [])
    (h : Fills declared flat) :
    (ofFlat flat).length = declared + announced ((ofFlat flat).flatMap children) := by
  obtain ⟨hlength, hannounced⟩ := count_flatten (oneLevel_ofFlat hflat).childless
  rw [flatten_ofFlat, flatten_childless hflat] at hlength hannounced
  have hfull : (ofFlat flat).map (fun op ↦ op.children.length) =
      (ofFlat flat).map declaredChildren :=
    List.map_congr_left (full_ofFlat hflat h)
  have hcount := h.1
  rw [hannounced, hlength, hfull] at hcount
  simp only [announced] at hcount ⊢
  omega

end Forest

/-! ## Decoded programs -/

namespace Decoder

open Forest

variable {d : Decoder} {bytes : List UInt8} {decoded : DecodedProgram}

/-- A decoded program is its flat stream, grouped: nothing is lost, only top-level blocks have
children, and every operation is known.  Decoded to its end, it has no block that is short of
children, and at the top stand the operations that the header declares and those that blocks inside
of blocks announce.  Where decoding stopped early, only the last block can be short. -/
theorem decoded_program_has_shape (h : d.decodeProgram bytes = .ok decoded) :
    let p := decoded.toProgram
    flatten p.operations = decoded.operations ∧
      p.decodedLength = decoded.operations.length ∧
      (∀ op ∈ p.operations, ∀ child ∈ op.children, child.children = []) ∧
      AllKnown p.operations ∧
      (p.stoppedAt = none →
        (∀ op ∈ p.operations, op.children.length = op.declaredChildren) ∧
        p.operations.length =
          p.declaredCount.toNat + announced (p.operations.flatMap children) ∧
        ((∀ op ∈ p.operations, ∀ child ∈ op.children, ∃ i, child = leaf i) →
          p.operations.length = p.declaredCount.toNat)) ∧
      ∀ stop, p.stoppedAt = some stop →
        (∀ op ∈ p.operations.dropLast, op.children.length = op.declaredChildren) ∧
        ∀ op ∈ p.operations.getLast?, op.children.length ≤ op.declaredChildren := by
  intro p
  obtain ⟨hlegible, hfills, -⟩ := spec_of_decodeProgram h
  have hflat (op : Operation) (hop : op ∈ decoded.operations) : op.children = [] :=
    (hlegible op hop).childless
  have hflatten : flatten p.operations = decoded.operations :=
    (flatten_ofFlat _).trans (flatten_childless hflat)
  have hlevel : OneLevel p.operations := oneLevel_ofFlat hflat
  refine ⟨hflatten, ?_, hlevel.childless, ?_, fun hstop ↦ ?_, fun _ _ ↦ ⟨hlevel.full, hlevel.last⟩⟩
  · rw [DemoProgram.decodedLength, ← length_flatten, hflatten]
  · exact (DemoProgram.DecodedBy.single h rfl).allKnown
  · have hlength : p.operations.length =
        p.declaredCount.toNat + announced (p.operations.flatMap children) :=
      length_ofFlat hflat (hfills hstop)
    refine ⟨full_ofFlat hflat (hfills hstop), hlength, fun hleaves ↦ ?_⟩
    rw [hlength, announced_leaves, Nat.add_zero]
    intro child hchild
    obtain ⟨op, hop, hbelow⟩ := List.mem_flatMap.1 hchild
    exact hleaves op hop child hbelow

/-- One operation is declared, a block of two.  The block inside of it announces one more, which
comes to the top. -/
theorem decoded_program_has_shape_of_nestedBlock :
    ∃ decoded, decodeProgram {} [7, 0, 1, 0, 8, 0, 0, 0, 0, 0, 0, 2, 0, 1, 15, 15] = .ok decoded ∧
      decoded.toProgram.stoppedAt = none ∧ decoded.toProgram.declaredCount.toNat = 1 ∧
      announced (decoded.toProgram.operations.flatMap children) = 1 ∧
      decoded.toProgram.operations.length = 2 := by
  obtain ⟨decoded, h, hstop, hdeclared, hnested⟩ : ∃ decoded,
      decodeProgram {} [7, 0, 1, 0, 8, 0, 0, 0, 0, 0, 0, 2, 0, 1, 15, 15] = .ok decoded ∧
        decoded.toProgram.stoppedAt = none ∧ decoded.toProgram.declaredCount.toNat = 1 ∧
        announced (decoded.toProgram.operations.flatMap children) = 1 := by
    refine ⟨⟨7, 1, [], [.block 2 [], .block 1 [], .leaf .hideDemoSprite, .leaf .hideDemoSprite],
      [0, 0, 0, 2, 0, 1, 15, 15], 2, none⟩, ?_, rfl, rfl, ?_⟩
    · cbv
    · cbv
  obtain ⟨-, -, -, -, hcomplete, -⟩ := decoded_program_has_shape h
  have hlength := (hcomplete hstop).2.1
  rw [hdeclared, hnested] at hlength
  exact ⟨decoded, h, hstop, hdeclared, hnested, hlength⟩

end Decoder

end DemoReel
