/-!
# Opcodes

The one-byte tags of the demo format.  The numbering has gaps; bytes outside this set belong to
later builds of the game.
-/

namespace DemoReel

inductive Opcode where
  | parallelBlock
  | moveCamera
  | paintChat
  | delay
  | playerMove
  | setDemoSprite
  | setPosAndShow
  | hideDemoSprite
  | showDecoSymbol
  | hideDecoSymbol
  | screenBlink
  | setBlockShort
  | setBlockLong
  | paintHint
deriving DecidableEq, Repr

namespace Opcode

/-- Every opcode, in the order of their bytes. -/
def all : List Opcode :=
  [parallelBlock, moveCamera, paintChat, delay, playerMove, setDemoSprite, setPosAndShow,
    hideDemoSprite, showDecoSymbol, hideDecoSymbol, screenBlink, setBlockShort, setBlockLong,
    paintHint]

def toByte : Opcode → UInt8
  | parallelBlock => 0
  | moveCamera => 1
  | paintChat => 2
  | delay => 6
  | playerMove => 10
  | setDemoSprite => 11
  | setPosAndShow => 12
  | hideDemoSprite => 15
  | showDecoSymbol => 16
  | hideDecoSymbol => 17
  | screenBlink => 18
  | setBlockShort => 25
  | setBlockLong => 26
  | paintHint => 27

def ofByte? (byte : UInt8) : Option Opcode := all.find? fun opcode ↦ opcode.toByte == byte

/-- The name shown in listings. -/
def name : Opcode → String
  | parallelBlock => "ParallelBlock"
  | moveCamera => "MoveCamera"
  | paintChat => "PaintChat"
  | delay => "Delay"
  | playerMove => "PlayerMove"
  | setDemoSprite => "SetDemoSprite"
  | setPosAndShow => "SetPosAndShow"
  | hideDemoSprite => "HideDemoSprite"
  | showDecoSymbol => "ShowDecoSymbol"
  | hideDecoSymbol => "HideDecoSymbol"
  | screenBlink => "ScreenBlink"
  | setBlockShort => "SetBlockShort"
  | setBlockLong => "SetBlockLong"
  | paintHint => "PaintHint"

/-- The name used as a tag in structured output. -/
def tag : Opcode → String
  | parallelBlock => "parallel_block"
  | moveCamera => "move_camera"
  | paintChat => "paint_chat"
  | delay => "delay"
  | playerMove => "player_move"
  | setDemoSprite => "set_demo_sprite"
  | setPosAndShow => "set_pos_and_show"
  | hideDemoSprite => "hide_demo_sprite"
  | showDecoSymbol => "show_deco_symbol"
  | hideDecoSymbol => "hide_deco_symbol"
  | screenBlink => "screen_blink"
  | setBlockShort => "set_block_short"
  | setBlockLong => "set_block_long"
  | paintHint => "paint_hint"

theorem ofByte?_toByte (opcode : Opcode) : ofByte? opcode.toByte = some opcode := by
  cases opcode <;> decide

theorem toByte_of_ofByte? {byte : UInt8} {opcode : Opcode} (h : ofByte? byte = some opcode) :
    opcode.toByte = byte := by
  simpa using List.find?_some h

end Opcode

end DemoReel
