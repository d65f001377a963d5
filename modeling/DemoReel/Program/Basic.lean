import DemoReel.Program.Decoding
import DemoReel.Program.Forest

/-!
# Demo programs

A program with its operations grouped into a forest.
-/

namespace DemoReel

structure DemoProgram where
  demoId : UInt16
  /-- Number of top-level operations according to the header. -/
  declaredCount : UInt16
  /-- Sprites the program asks for, strictly ascending. -/
  spriteIds : List UInt16
  payload : List UInt8
  operationsStart : Nat
  operations : List Operation
  stoppedAt : Option EarlyStop
deriving DecidableEq

namespace DecodedProgram

def toProgram (d : DecodedProgram) : DemoProgram where
  demoId := d.demoId
  declaredCount := d.declaredCount
  spriteIds := d.spriteIds
  payload := d.payload
  operationsStart := d.operationsStart
  operations := Forest.ofFlat d.operations
  stoppedAt := d.stoppedAt

end DecodedProgram

namespace DemoProgram

/-- The payload after the sprite list. -/
def operationBytes (p : DemoProgram) : List UInt8 := p.payload.drop p.operationsStart

/-- Number of operations, children of blocks included. -/
def decodedLength (p : DemoProgram) : Nat := Operation.sizeAll p.operations

def isEmpty (p : DemoProgram) : Bool := p.operations.isEmpty

/-- Whether decoding stopped before an unknown opcode. -/
def isPartial (p : DemoProgram) : Bool := p.stoppedAt.isSome

end DemoProgram

end DemoReel
