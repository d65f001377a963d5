import DemoReel.Program.Opcode

/-!
# Operations of a demo program

A leaf instruction acts on its own.  A parallel block runs its children side by side; it carries the
child count of the byte format next to the children themselves, because a block fresh from the
stream has a count and no children yet.
-/

namespace DemoReel

/-- Walking direction of the hero. -/
inductive Direction where
  | up
  | right
  | down
  | left
  /-- A byte outside `1` to `4`, kept so that it can be written back. -/
  | unknown (byte : UInt8)
deriving DecidableEq, Repr

namespace Direction

def ofByte (byte : UInt8) : Direction :=
  if byte = 1 then up
  else if byte = 2 then right
  else if byte = 3 then down
  else if byte = 4 then left
  else unknown byte

def toByte : Direction → UInt8
  | up => 1
  | right => 2
  | down => 3
  | left => 4
  | unknown byte => byte

/-- Unit step on the screen, where `y` grows downwards. -/
def delta : Direction → Int × Int
  | up => (0, -1)
  | right => (1, 0)
  | down => (0, 1)
  | left => (-1, 0)
  | unknown _ => (0, 0)

theorem toByte_ofByte (byte : UInt8) : (ofByte byte).toByte = byte := by
  unfold ofByte
  repeat' split
  all_goals simp_all [toByte]

end Direction

/-- Text of a chat or hint: the key stored in the program and the localized string it stands for. -/
structure DemoText where
  raw : String
  resolved : Option String
deriving DecidableEq, Repr

/-- The text to put on screen. -/
def DemoText.shown (text : DemoText) : String := text.resolved.getD text.raw

structure Rgb where
  red : UInt8
  green : UInt8
  blue : UInt8
deriving DecidableEq, Repr

inductive Instruction where
  | moveCamera (blockX blockY frameCount : UInt16)
  | paintChat (lineCount : UInt8) (offsetY : UInt16) (text : DemoText)
  | delay (frameCount : UInt32)
  | playerMove (direction : Direction)
  | setDemoSprite (heroSprite backgroundAnim : UInt16)
  | setPosAndShow (x y : UInt16)
  | hideDemoSprite
  | showDecoSymbol (frameIndex : UInt16) (blinkCount : UInt8)
  | hideDecoSymbol (unused : UInt16) (needHide : UInt8)
  | screenBlink (blinkCount : UInt8) (color : Rgb)
  | setBlockShort (blockX blockY : UInt16) (blockId specialData : UInt8)
  | setBlockLong (blockX blockY : UInt16) (blockId : UInt32)
  | paintHint (text : DemoText)
  /-- An opcode that cannot be executed.  The decoder stops before such a byte, so only programs
  assembled by other means hold one. -/
  | unknown (opcode : UInt8)
deriving DecidableEq, Repr

namespace Instruction

def opcode? : Instruction → Option Opcode
  | moveCamera .. => some .moveCamera
  | paintChat .. => some .paintChat
  | delay .. => some .delay
  | playerMove .. => some .playerMove
  | setDemoSprite .. => some .setDemoSprite
  | setPosAndShow .. => some .setPosAndShow
  | hideDemoSprite => some .hideDemoSprite
  | showDecoSymbol .. => some .showDecoSymbol
  | hideDecoSymbol .. => some .hideDecoSymbol
  | screenBlink .. => some .screenBlink
  | setBlockShort .. => some .setBlockShort
  | setBlockLong .. => some .setBlockLong
  | paintHint .. => some .paintHint
  | unknown _ => none

/-- The byte that introduces the instruction in a stream. -/
def opcodeByte : Instruction → UInt8
  | unknown opcode => opcode
  | i => (i.opcode?.map Opcode.toByte).getD 0

def text? : Instruction → Option DemoText
  | paintChat _ _ text => some text
  | paintHint text => some text
  | _ => none

end Instruction

inductive Operation where
  | leaf (instruction : Instruction)
  | block (childCount : UInt8) (children : List Operation)

namespace Operation

/-- The block that owns exactly these children, if the count byte can hold their number. -/
def parallel? (children : List Operation) : Option Operation :=
  if children.length ≤ 255 then some (block (UInt8.ofNat children.length) children) else none

def opcode? : Operation → Option Opcode
  | leaf instruction => instruction.opcode?
  | block .. => some .parallelBlock

def opcodeByte : Operation → UInt8
  | leaf instruction => instruction.opcodeByte
  | block .. => Opcode.parallelBlock.toByte

def name (op : Operation) : String := (op.opcode?.map Opcode.name).getD "Unknown"

def children : Operation → List Operation
  | leaf _ => []
  | block _ children => children

/-- How many of the operations that follow in a flat stream belong to this one. -/
def declaredChildren : Operation → Nat
  | leaf _ => 0
  | block childCount _ => childCount.toNat

mutual

/-- The number of operations in the subtree, this one included. -/
def size : Operation → Nat
  | leaf _ => 1
  | block _ children => 1 + sizeAll children

def sizeAll : List Operation → Nat
  | [] => 0
  | op :: ops => size op + sizeAll ops

end

mutual

/-- Structural equality, by recursion on the tree. -/
def same : Operation → Operation → Bool
  | leaf i, leaf j => i == j
  | block m cs, block n ds => m == n && sameAll cs ds
  | _, _ => false

def sameAll : List Operation → List Operation → Bool
  | [], [] => true
  | c :: cs, d :: ds => same c d && sameAll cs ds
  | _, _ => false

end

mutual

theorem eq_of_same : ∀ {a b : Operation}, same a b = true → a = b
  | leaf i, leaf j, h => by simpa [same] using h
  | block m cs, block n ds, h => by
    simp only [same, Bool.and_eq_true, beq_iff_eq] at h
    rw [h.1, eq_of_sameAll h.2]
  | leaf _, block .., h => by simp [same] at h
  | block .., leaf _, h => by simp [same] at h

theorem eq_of_sameAll : ∀ {as bs : List Operation}, sameAll as bs = true → as = bs
  | [], [], _ => rfl
  | a :: as, b :: bs, h => by
    simp only [sameAll, Bool.and_eq_true] at h
    rw [eq_of_same h.1, eq_of_sameAll h.2]
  | [], _ :: _, h => by simp [sameAll] at h
  | _ :: _, [], h => by simp [sameAll] at h

end

mutual

theorem same_self : ∀ a : Operation, same a a = true
  | leaf _ => by simp [same]
  | block _ cs => by simp [same, sameAll_self cs]

theorem sameAll_self : ∀ as : List Operation, sameAll as as = true
  | [] => rfl
  | a :: as => by simp [sameAll, same_self a, sameAll_self as]

end

instance : DecidableEq Operation := fun a b ↦
  decidable_of_iff (same a b = true) ⟨eq_of_same, fun h ↦ h ▸ same_self a⟩

end Operation

end DemoReel
