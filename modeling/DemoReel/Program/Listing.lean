import DemoReel.Program.Operation
import DemoReel.Text.Quoted

/-!
# Operations as text

One line per operation: its name and, in brackets, its fields.
-/

namespace DemoReel

def Direction.listing : Direction → String
  | up => "Up"
  | right => "Right"
  | down => "Down"
  | left => "Left"
  | unknown byte => s!"Unknown({byte})"

def hexByte (b : UInt8) : String :=
  String.ofList [Nat.digitChar (b.toNat / 16), Nat.digitChar (b.toNat % 16)]

/-- A colour as six hexadecimal digits. -/
def Rgb.listing (color : Rgb) : String :=
  "#" ++ hexByte color.red ++ hexByte color.green ++ hexByte color.blue

def DemoText.listing (text : DemoText) : String :=
  s!"raw: {Text.quoted text.raw}, text: {Text.quotedOption text.resolved}"

def Instruction.fields : Instruction → String
  | moveCamera blockX blockY frameCount =>
    s!"block_x: {blockX}, block_y: {blockY}, frame_count: {frameCount}"
  | paintChat lineCount offsetY text =>
    s!"line_count: {lineCount}, offset_y: {offsetY}, {text.listing}"
  | delay frameCount => s!"frame_count: {frameCount}"
  | playerMove direction => s!"direction: {direction.listing}"
  | setDemoSprite heroSprite backgroundAnim =>
    s!"hero_sprite_id: {heroSprite}, background_anim_id: {backgroundAnim}"
  | setPosAndShow x y => s!"x: {x}, y: {y}"
  | hideDemoSprite => ""
  | showDecoSymbol frameIndex blinkCount =>
    s!"frame_index: {frameIndex}, blink_count: {blinkCount}"
  | hideDecoSymbol unused needHide => s!"unused: {unused}, need_hide: {needHide}"
  | screenBlink blinkCount color => s!"blink_count: {blinkCount}, color: {color.listing}"
  | setBlockShort blockX blockY blockId specialData =>
    s!"block_x: {blockX}, block_y: {blockY}, block_id: {blockId}, special_data: {specialData}"
  | setBlockLong blockX blockY blockId =>
    s!"block_x: {blockX}, block_y: {blockY}, block_id: {blockId}"
  | paintHint text => text.listing
  | unknown opcode => s!"opcode: {opcode}"

/-- The operation on one line; a block without its children. -/
def Operation.listing (op : Operation) : String :=
  let fields := match op with
    | leaf instruction => instruction.fields
    | block childCount _ => s!"child_count: {childCount}"
  s!"{op.name}({fields})"

end DemoReel
