import DemoReel.Stage.Layers
import Mathlib.Data.Option.Basic

/-!
# The cells of a stage

A layer holds its blocks row by row, so that each place of the stage has a position of its own and
each position a place.  Writing a block changes one place, in those layers for which a value is
given, and nothing at all if the place is outside the stage.
-/

namespace DemoReel

/-- A block that is to be written.  The foreground is left alone where no value is given for it. -/
structure BlockWrite where
  x : UInt16
  y : UInt16
  player : UInt8
  foreground : Option UInt8
deriving DecidableEq, Repr

namespace BlockWrite

/-- What is written to a layer, if anything. -/
def value? (w : BlockWrite) : Layer → Option UInt8
  | .background => none
  | .player => some w.player
  | .foreground => w.foreground

/-- Overwrites the block at one place of a stage that is given block by block.  Where there is no
block there is none afterwards. -/
def overwrite (cell? : Layer → UInt16 → UInt16 → Option UInt8) (w : BlockWrite) :
    Layer → UInt16 → UInt16 → Option UInt8 := fun layer x y ↦
  if x = w.x ∧ y = w.y then (cell? layer x y).map (w.value? layer).getD else cell? layer x y

end BlockWrite

namespace StageLayers

variable {s s' snapshot : StageLayers} {x y x' y' : UInt16} {index : Nat} {w : BlockWrite}
  {writes : List BlockWrite} {layer : Layer}

/-! ## Places and positions -/

theorem index?_eq_some_iff : s.index? x y = some index ↔
    (x < s.width ∧ y < s.height) ∧ x.toNat + y.toNat * s.width.toNat = index := by
  rw [index?, Option.ite_none_right_eq_some, Option.some.injEq]

theorem lt_area_of_index? (h : s.index? x y = some index) : index < s.area := by
  obtain ⟨⟨hx, hy⟩, rfl⟩ := index?_eq_some_iff.1 h
  calc
    x.toNat + y.toNat * s.width.toNat
    _ < s.width.toNat + y.toNat * s.width.toNat := Nat.add_lt_add_right hx _
    _ = (y.toNat + 1) * s.width.toNat := by rw [Nat.succ_mul, Nat.add_comm]
    _ ≤ s.height.toNat * s.width.toNat := Nat.mul_le_mul_right _ hy
    _ = s.area := Nat.mul_comm _ _

/-- A position is column and row at once. -/
theorem column_row_of_index? (h : s.index? x y = some index) :
    x.toNat = index % s.width.toNat ∧ y.toNat = index / s.width.toNat := by
  obtain ⟨⟨hx, -⟩, rfl⟩ := index?_eq_some_iff.1 h
  have hx : x.toNat < s.width.toNat := hx
  constructor
  · rw [Nat.add_mul_mod_self_right, Nat.mod_eq_of_lt hx]
  · rw [Nat.add_mul_div_right _ _ (Nat.zero_lt_of_lt hx), Nat.div_eq_of_lt hx, Nat.zero_add]

theorem eq_of_index? (h : s.index? x y = some index) (h' : s.index? x' y' = some index) :
    x = x' ∧ y = y' := by
  obtain ⟨hx, hy⟩ := column_row_of_index? h
  obtain ⟨hx', hy'⟩ := column_row_of_index? h'
  exact ⟨UInt16.toNat_inj.1 (hx.trans hx'.symm), UInt16.toNat_inj.1 (hy.trans hy'.symm)⟩

/-- Each position is the one of a place. -/
theorem exists_index? (h : index < s.area) : ∃ x y, s.index? x y = some index := by
  have hwidth : 0 < s.width.toNat := Nat.pos_of_mul_pos_right (Nat.zero_lt_of_lt h)
  have hcolumn : index % s.width.toNat < s.width.toNat := Nat.mod_lt _ hwidth
  have hrow : index / s.width.toNat < s.height.toNat := (Nat.div_lt_iff_lt_mul hwidth).2
    (Nat.mul_comm s.width.toNat s.height.toNat ▸ h)
  have hx : (UInt16.ofNat (index % s.width.toNat)).toNat = index % s.width.toNat :=
    UInt16.toNat_ofNat_of_lt' (Nat.lt_trans hcolumn s.width.toNat_lt)
  have hy : (UInt16.ofNat (index / s.width.toNat)).toNat = index / s.width.toNat :=
    UInt16.toNat_ofNat_of_lt' (Nat.lt_trans hrow s.height.toNat_lt)
  refine ⟨.ofNat (index % s.width.toNat), .ofNat (index / s.width.toNat),
    index?_eq_some_iff.2 ⟨⟨?_, ?_⟩, ?_⟩⟩
  · exact UInt16.lt_iff_toNat_lt.2 (by rwa [hx])
  · exact UInt16.lt_iff_toNat_lt.2 (by rwa [hy])
  · rw [hx, hy, Nat.mul_comm]
    exact Nat.mod_add_div _ _

/-! ## Cells -/

/-- The bytes of a layer, row by row. -/
def cells (s : StageLayers) : Layer → Array UInt8
  | .background => s.background
  | .player => s.player
  | .foreground => s.foreground

/-- The block at a place in a layer, or `none` outside the stage. -/
def cell? (s : StageLayers) (layer : Layer) (x y : UInt16) : Option UInt8 :=
  (s.index? x y).bind fun index ↦ (s.cells layer)[index]?

theorem WellFormed.size_cells (h : s.WellFormed) (layer : Layer) :
    (s.cells layer).size = s.area := by
  cases layer with
  | background => exact h.background
  | player => exact h.player
  | foreground => exact h.foreground

theorem WellFormed.lt_size (h : s.WellFormed) (hindex : s.index? x y = some index)
    (layer : Layer) : index < (s.cells layer).size := by
  rw [h.size_cells]
  exact lt_area_of_index? hindex

/-- A place has a block in each layer if it lies in the stage. -/
theorem WellFormed.isSome_cell?_iff (h : s.WellFormed) :
    (s.cell? layer x y).isSome = true ↔ x < s.width ∧ y < s.height := by
  constructor
  · intro hcell
    obtain ⟨block, hcell⟩ := Option.isSome_iff_exists.1 hcell
    obtain ⟨index, hindex, -⟩ := Option.bind_eq_some_iff.1 hcell
    exact (index?_eq_some_iff.1 hindex).1
  · intro hplace
    have hindex := index?_eq_some_iff.2 ⟨hplace, rfl⟩
    rw [cell?, hindex, Option.bind_some, Array.getElem?_eq_getElem (h.lt_size hindex layer)]
    rfl

/-! ## Writing a block -/

/-- Writes a block, or nothing outside the stage. -/
def write (s : StageLayers) (w : BlockWrite) : StageLayers :=
  (s.setBlock w.x w.y w.player w.foreground).getD s

theorem write_of_outside (h : s.index? w.x w.y = none) : s.write w = s := by
  rw [write, setBlock, h]
  rfl

theorem write_of_inside (h : s.index? w.x w.y = some index) : s.write w =
    match w.foreground with
    | some value => (s.setCell .player index w.player).setCell .foreground index value
    | none => s.setCell .player index w.player := by
  rw [write, setBlock, h]
  rfl

theorem width_write (s : StageLayers) (w : BlockWrite) : (s.write w).width = s.width := by
  cases hindex : s.index? w.x w.y with
  | none => rw [write_of_outside hindex]
  | some index =>
    rw [write_of_inside hindex]
    split <;> rfl

theorem height_write (s : StageLayers) (w : BlockWrite) : (s.write w).height = s.height := by
  cases hindex : s.index? w.x w.y with
  | none => rw [write_of_outside hindex]
  | some index =>
    rw [write_of_inside hindex]
    split <;> rfl

theorem index?_write (s : StageLayers) (w : BlockWrite) (x y : UInt16) :
    (s.write w).index? x y = s.index? x y := by
  rw [index?, index?, width_write, height_write]

theorem area_write (s : StageLayers) (w : BlockWrite) : (s.write w).area = s.area := by
  rw [area, area, width_write, height_write]

/-- Each layer gets its value at the position of the place. -/
theorem cells_write (h : s.index? w.x w.y = some index) (layer : Layer) :
    (s.write w).cells layer =
      (w.value? layer).elim (s.cells layer) ((s.cells layer).setIfInBounds index) := by
  rw [write_of_inside h]
  cases layer with
  | background => split <;> rfl
  | player => split <;> rfl
  | foreground =>
    rw [BlockWrite.value?]
    cases w.foreground <;> rfl

theorem background_write (s : StageLayers) (w : BlockWrite) :
    (s.write w).background = s.background := by
  cases hindex : s.index? w.x w.y with
  | none => rw [write_of_outside hindex]
  | some index => exact cells_write hindex .background

theorem WellFormed.write (h : s.WellFormed) (w : BlockWrite) : (s.write w).WellFormed := by
  cases hindex : s.index? w.x w.y with
  | none => rwa [write_of_outside hindex]
  | some index =>
    have hsize (layer : Layer) : ((s.write w).cells layer).size = (s.write w).area := by
      rw [cells_write hindex, area_write, ← h.size_cells layer]
      cases w.value? layer with
      | none => rfl
      | some value => exact Array.size_setIfInBounds
    exact ⟨hsize .background, hsize .player, hsize .foreground⟩

/-- Seen block by block, a write changes its own place and no other. -/
theorem WellFormed.cell?_write (h : s.WellFormed) (w : BlockWrite) :
    (s.write w).cell? = w.overwrite s.cell? := by
  funext layer x y
  rw [BlockWrite.overwrite, cell?, index?_write, cell?]
  cases hindex : s.index? x y with
  | none => exact (ite_self none).symm
  | some index =>
    dsimp only [Option.bind_some]
    cases hwritten : s.index? w.x w.y with
    | none =>
      have hother : ¬(x = w.x ∧ y = w.y) := by
        rintro ⟨rfl, rfl⟩
        rw [hwritten] at hindex
        cases hindex
      rw [write_of_outside hwritten, if_neg hother]
    | some written =>
      rw [cells_write hwritten]
      by_cases hplace : x = w.x ∧ y = w.y
      · obtain ⟨rfl, rfl⟩ := hplace
        obtain rfl : written = index := Option.some.inj (hwritten.symm.trans hindex)
        rw [if_pos ⟨rfl, rfl⟩, Array.getElem?_eq_getElem (h.lt_size hindex layer)]
        cases w.value? layer with
        | none => exact Array.getElem?_eq_getElem (h.lt_size hindex layer)
        | some value =>
          exact Array.getElem?_setIfInBounds_self_of_lt (h.lt_size hindex layer)
      · have hindex_ne : written ≠ index := by
          rintro rfl
          exact hplace (eq_of_index? hindex hwritten)
        rw [if_neg hplace]
        cases w.value? layer with
        | none => rfl
        | some value => exact Array.getElem?_setIfInBounds_ne hindex_ne

/-! ## Writing one block after another -/

/-- The layers are those of the snapshot after these writes, one after another. -/
structure Written (snapshot : StageLayers) (writes : List BlockWrite) (s : StageLayers) :
    Prop where
  width : s.width = snapshot.width
  height : s.height = snapshot.height
  background : s.background = snapshot.background
  wellFormed : s.WellFormed
  cells : s.cell? = writes.foldl BlockWrite.overwrite snapshot.cell?

namespace Written

theorem nil (h : snapshot.WellFormed) : Written snapshot [] snapshot := ⟨rfl, rfl, rfl, h, rfl⟩

theorem write (h : Written snapshot writes s) (w : BlockWrite) :
    Written snapshot (writes ++ [w]) (s.write w) where
  width := (s.width_write w).trans h.width
  height := (s.height_write w).trans h.height
  background := (s.background_write w).trans h.background
  wellFormed := h.wellFormed.write w
  cells := by rw [List.foldl_append, h.wellFormed.cell?_write, h.cells]; rfl

end Written

end StageLayers

end DemoReel
