import DemoReel.Program.Archive
import DemoReel.Report.Json

/-!
# Programs as JSON documents

An operation is an object that starts with its tag.  A program shows its header, its sprites and its
forest; where decoding stopped early it also shows the place.
-/

namespace DemoReel

open JsonValue

def Direction.document : Direction → JsonValue
  | up => text "up"
  | right => text "right"
  | down => text "down"
  | left => text "left"
  | unknown byte => object [("unknown", number byte.toNat)]

def DemoText.document (t : DemoText) : JsonValue :=
  object [("raw", text t.raw), ("resolved", (t.resolved.map text).getD null)]

def Instruction.documentFields : Instruction → List (String × JsonValue)
  | moveCamera blockX blockY frameCount =>
    [("block_x", number blockX.toNat), ("block_y", number blockY.toNat),
      ("frame_count", number frameCount.toNat)]
  | paintChat lineCount offsetY t =>
    [("line_count", number lineCount.toNat), ("offset_y", number offsetY.toNat),
      ("text", t.document)]
  | delay frameCount => [("frame_count", number frameCount.toNat)]
  | playerMove direction => [("direction", direction.document)]
  | setDemoSprite heroSprite backgroundAnim =>
    [("hero_sprite_id", number heroSprite.toNat),
      ("background_anim_id", number backgroundAnim.toNat)]
  | setPosAndShow x y => [("x", number x.toNat), ("y", number y.toNat)]
  | hideDemoSprite => []
  | showDecoSymbol frameIndex blinkCount =>
    [("frame_index", number frameIndex.toNat), ("blink_count", number blinkCount.toNat)]
  | hideDecoSymbol unused needHide =>
    [("unused", number unused.toNat), ("need_hide", number needHide.toNat)]
  | screenBlink blinkCount color =>
    [("blink_count", number blinkCount.toNat),
      ("color", list [number color.red.toNat, number color.green.toNat, number color.blue.toNat])]
  | setBlockShort blockX blockY blockId specialData =>
    [("block_x", number blockX.toNat), ("block_y", number blockY.toNat),
      ("block_id", number blockId.toNat), ("special_data", number specialData.toNat)]
  | setBlockLong blockX blockY blockId =>
    [("block_x", number blockX.toNat), ("block_y", number blockY.toNat),
      ("block_id", number blockId.toNat)]
  | paintHint t => [("text", t.document)]
  | unknown opcode => [("opcode", number opcode.toNat)]

namespace Operation

/-- The tag that opens an operation's object. -/
def tag (op : Operation) : String := (op.opcode?.map Opcode.tag).getD "unknown"

mutual

def document : Operation → JsonValue
  | leaf instruction =>
    object (("op", text (leaf instruction).tag) :: instruction.documentFields)
  | block childCount children =>
    object [("op", text Opcode.parallelBlock.tag), ("child_count", number childCount.toNat),
      ("children", list (documents children))]

def documents : List Operation → List JsonValue
  | [] => []
  | op :: ops => document op :: documents ops

end

end Operation

def EarlyStop.document (stop : EarlyStop) : JsonValue :=
  object [("offset", number (shownOffset stop.offset).toNat), ("opcode", number stop.opcode.toNat)]

def DemoProgram.document (p : DemoProgram) : JsonValue :=
  object ([("demo_id", number p.demoId.toNat), ("declared_count", number p.declaredCount.toNat),
      ("sprite_ids", list (p.spriteIds.map fun id ↦ number id.toNat)),
      ("operations", list (Operation.documents p.operations))] ++
    match p.stoppedAt with
    | some stop => [("stopped_at", stop.document)]
    | none => [])

/-- The whole archive; programs that failed appear by their messages. -/
def Archive.document (a : Archive) : JsonValue :=
  object [("declared_programs", number a.declaredPrograms.toNat),
    ("programs", list (a.programs.map DemoProgram.document)),
    ("errors", list (a.errors.map fun e ↦ text e.message))]

end DemoReel
