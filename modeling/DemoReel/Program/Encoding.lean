import DemoReel.Bytes.LittleEndian
import DemoReel.Program.Operation
import DemoReel.Text.Utf8

/-!
# Writing programs as bytes

Text is written from its key, and the children of a block right after the block.  Counts and
lengths are 16 bits wide and wrap.
-/

namespace DemoReel

open LittleEndian

/-- A text field: its length in bytes, then the key as UTF-8. -/
def DemoText.encode (text : DemoText) : List UInt8 :=
  let bytes := Utf8.encode text.raw
  u16 (UInt16.ofNat bytes.length) ++ bytes

/-- The fields of an instruction, without its opcode. -/
def Instruction.encodeFields : Instruction → List UInt8
  | moveCamera blockX blockY frameCount => u16 blockX ++ u16 blockY ++ u16 frameCount
  | paintChat lineCount offsetY text => u8 lineCount ++ u16 offsetY ++ text.encode
  | delay frameCount => u32 frameCount
  | playerMove direction => u8 direction.toByte
  | setDemoSprite heroSprite backgroundAnim => u16 heroSprite ++ u16 backgroundAnim
  | setPosAndShow x y => u16 x ++ u16 y
  | hideDemoSprite => []
  | showDecoSymbol frameIndex blinkCount => u16 frameIndex ++ u8 blinkCount
  | hideDecoSymbol unused needHide => u16 unused ++ u8 needHide
  | screenBlink blinkCount color =>
    u8 blinkCount ++ u8 color.red ++ u8 color.green ++ u8 color.blue
  | setBlockShort blockX blockY blockId specialData =>
    u16 blockX ++ u16 blockY ++ u8 blockId ++ u8 specialData
  | setBlockLong blockX blockY blockId => u16 blockX ++ u16 blockY ++ u32 blockId
  | paintHint text => text.encode
  | unknown _ => []

namespace Operation

mutual

def encode : Operation → List UInt8
  | leaf instruction => instruction.opcodeByte :: instruction.encodeFields
  | block childCount children => Opcode.parallelBlock.toByte :: childCount :: encodeAll children

/-- A stream of operations, flat or as a forest. -/
def encodeAll : List Operation → List UInt8
  | [] => []
  | op :: ops => encode op ++ encodeAll ops

end

end Operation

/-- A whole program.  Its declared count is the number of top-level operations. -/
def encodeProgram (demoId : UInt16) (spriteIds : List UInt16) (forest : List Operation) :
    List UInt8 :=
  let payload := u16 (UInt16.ofNat spriteIds.length) ++ spriteIds.flatMap u16 ++
    Operation.encodeAll forest
  u16 demoId ++ u16 (UInt16.ofNat forest.length) ++ u32 (UInt32.ofNat payload.length) ++ payload

/-- A chunk of programs that are encoded already. -/
def encodeArchive (programs : List (List UInt8)) : List UInt8 :=
  u16 (UInt16.ofNat programs.length) ++ programs.flatten

end DemoReel
