import DemoReel.Program.Archive
import DemoReel.Program.Listing
import DemoReel.World.Binding

/-!
# Reports as text

What a reader at a terminal sees: the programs of an archive with their operations, indented by
depth, and the table of placements.
-/

namespace DemoReel

namespace Operation

mutual

/-- An operation and, indented below it, its children. -/
def listingLines (depth : Nat) : Operation → List String
  | leaf instruction => ["".pushn ' ' (2 * depth) ++ (leaf instruction).listing]
  | block childCount children =>
    ("".pushn ' ' (2 * depth) ++ (block childCount children).listing) ::
      forestLines (depth + 1) children

def forestLines (depth : Nat) : List Operation → List String
  | [] => []
  | op :: ops => listingLines depth op ++ forestLines depth ops

end

end Operation

/-- Where a demo takes place, in words. -/
def WorldBindings.placement (bindings : WorldBindings) (demoId : UInt16) : String :=
  match bindings.get? demoId with
  | some b => s!"world {b.world} stage {b.stage} at ({b.x}, {b.y})"
  | none => "no stage binding"

def hexadecimal (n : Nat) : String := "0x" ++ String.ofList (Nat.toDigits 16 n)

/-- A program under an empty line. -/
def DemoProgram.listingLines (bindings : WorldBindings) (p : DemoProgram) : List String :=
  let sprites := "[" ++ ", ".intercalate (p.spriteIds.map fun id ↦ toString id.toNat) ++ "]"
  ["", s!"demo {p.demoId} [{bindings.placement p.demoId}]: {p.operations.length} top-level of " ++
    s!"{p.declaredCount} declared, {p.decodedLength} total, sprites {sprites}"] ++
  Operation.forestLines 1 p.operations ++
  match p.stoppedAt with
  | some stop =>
    let place := hexadecimal (shownOffset stop.offset).toNat
    [s!"  stopped early at offset {place}: unknown opcode {stop.opcode}"]
  | none => []

/-- The programs of an archive, then its errors. -/
def Archive.listingLines (bindings : WorldBindings) (a : Archive) : List String :=
  s!"{a.programs.length} of {a.declaredPrograms} demo programs decoded" ::
    a.programs.flatMap (DemoProgram.listingLines bindings) ++
    a.errors.map fun e ↦ s!"error: {e.message}"

/-- Right-aligned in a column. -/
def column (width n : Nat) : String := "".pushn ' ' (width - (toString n).length) ++ toString n

def WorldBinding.listing (b : WorldBinding) : String :=
  "  ".intercalate [column 4 b.demoId.toNat, column 5 b.world.toNat, column 5 b.stage.toNat,
    column 5 b.x.toNat, column 5 b.y.toNat]

/-- One placement per line, under a line of headings. -/
def WorldBindings.listingLines (bindings : WorldBindings) : List String :=
  "demo  world  stage      x      y" :: bindings.toList.map WorldBinding.listing

end DemoReel
