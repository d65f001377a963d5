import DemoReel.Stage.Layers
import DemoReel.Stage.Raster
import DemoReel.World.Binding

/-!
# The stage of a running demo

The layers may be changed by others at any time; the snapshot taken at the start is what they are
put back to when a demo starts over.
-/

namespace DemoReel

/-- Turns layers into an image, or fails to.  The answer may depend on how many renders were asked
for before, counting this one. -/
abbrev StageRenderer := (call : Nat) → (world stage : UInt8) → StageLayers → Option StageImage

structure Stage where
  binding : WorldBinding
  layers : StageLayers
  snapshot : StageLayers
  renderer : StageRenderer
  /-- Renders asked for so far. -/
  renders : Nat

namespace Stage

/-- Takes the snapshot of the layers as they are now. -/
def ofLayers (binding : WorldBinding) (layers : StageLayers) (renderer : StageRenderer) : Stage :=
  ⟨binding, layers, layers, renderer, 0⟩

def setBlock (s : Stage) (x y : UInt16) (player : UInt8) (foreground : Option UInt8) :
    Option Stage :=
  (s.layers.setBlock x y player foreground).map fun layers ↦ { s with layers }

def restore (s : Stage) : Stage := { s with layers := s.snapshot }

def render (s : Stage) : Option StageImage × Stage :=
  let call := s.renders + 1
  (s.renderer call s.binding.world s.binding.stage s.layers, { s with renders := call })

end Stage

end DemoReel
