/-!
# The block layers of a stage

Three layers of equal size, one byte per block, row by row.
-/

namespace DemoReel

inductive Layer where
  | background
  | player
  | foreground
deriving DecidableEq, Repr

def Layer.name : Layer → String
  | background => "background"
  | player => "player"
  | foreground => "foreground"

structure StageLayers where
  width : UInt16
  height : UInt16
  background : Array UInt8
  player : Array UInt8
  foreground : Array UInt8
deriving DecidableEq, Repr

/-- A layer whose number of cells does not fit the stage. -/
structure LayerSizeError where
  layer : Layer
  actual : Nat
  width : UInt16
  height : UInt16
deriving DecidableEq, Repr

def LayerSizeError.message (e : LayerSizeError) : String :=
  let expected := e.width.toNat * e.height.toNat
  s!"{e.layer.name} layer has {e.actual} cells, expected {expected} ({e.width}x{e.height})"

namespace StageLayers

/-- The number of cells that each layer should have. -/
def area (s : StageLayers) : Nat := s.width.toNat * s.height.toNat

/-- Every layer has one cell per block. -/
structure WellFormed (s : StageLayers) : Prop where
  background : s.background.size = s.area
  player : s.player.size = s.area
  foreground : s.foreground.size = s.area

/-- Checks the layers in their order and reports the first of a wrong size. -/
def check (s : StageLayers) : Except LayerSizeError StageLayers :=
  let fault (layer : Layer) (cells : Array UInt8) : Except LayerSizeError StageLayers :=
    .error ⟨layer, cells.size, s.width, s.height⟩
  if s.background.size ≠ s.area then fault .background s.background
  else if s.player.size ≠ s.area then fault .player s.player
  else if s.foreground.size ≠ s.area then fault .foreground s.foreground
  else .ok s

/-- A stage with every cell zero. -/
def zeroed (width height : UInt16) : StageLayers :=
  let cells := Array.replicate (width.toNat * height.toNat) 0
  ⟨width, height, cells, cells, cells⟩

/-- Position of a block in each layer, or `none` outside the stage. -/
def index? (s : StageLayers) (x y : UInt16) : Option Nat :=
  if x < s.width ∧ y < s.height then some (x.toNat + y.toNat * s.width.toNat) else none

/-- Overwrites one cell of one layer. -/
def setCell (s : StageLayers) (layer : Layer) (index : Nat) (value : UInt8) : StageLayers :=
  match layer with
  | .background => { s with background := s.background.setIfInBounds index value }
  | .player => { s with player := s.player.setIfInBounds index value }
  | .foreground => { s with foreground := s.foreground.setIfInBounds index value }

/-- Writes a block, or nothing outside the stage.  The foreground is left alone where no value is
given for it. -/
def setBlock (s : StageLayers) (x y : UInt16) (player : UInt8) (foreground : Option UInt8) :
    Option StageLayers := do
  let index ← s.index? x y
  let s := s.setCell .player index player
  return match foreground with
    | some value => s.setCell .foreground index value
    | none => s

end StageLayers

end DemoReel
