import DemoReel.Sprite

/-!
# Why playback stops
-/

namespace DemoReel.Playback

inductive Error where
  | unknownOpcode (opcode : UInt8)
  | missingSprite (frame : SpriteFrame)
  | missingStage (world stage : UInt8)
  | missingStageRender (world stage : UInt8)
  /-- The demo has no world binding. -/
  | unplaceable (demoId : UInt16)
  | emptyProgram (demoId : UInt16)
deriving DecidableEq, Repr

def Error.message : Error → String
  | unknownOpcode opcode => s!"cannot execute opcode {opcode}"
  | missingSprite f => s!"missing asset: sprite frame {f.frame} of the {f.sheet.name} sheet"
  | missingStage world stage => s!"missing asset: stage {stage} of world {world}"
  | missingStageRender world stage => s!"missing asset: render of stage {stage} in world {world}"
  | unplaceable demoId => s!"demo {demoId} has no world binding"
  | emptyProgram demoId => s!"demo {demoId} has no operations"

end DemoReel.Playback
