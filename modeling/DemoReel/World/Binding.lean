import Std.Data.ExtTreeMap

/-!
# Where demos take place

A program does not say where it plays.  A binding places a demo id on a stage of a world; the table
holds at most one binding per id, and a later one replaces an earlier one.
-/

namespace DemoReel

structure WorldBinding where
  demoId : UInt16
  world : UInt8
  stage : UInt8
  /-- Block on which camera and hero start. -/
  x : UInt16
  y : UInt16
deriving DecidableEq, Repr

/-- Bindings by demo id, each under its own. -/
structure WorldBindings where
  byDemo : Std.ExtTreeMap UInt16 WorldBinding
  demoId_eq : ∀ {demoId : UInt16} {binding : WorldBinding},
    byDemo[demoId]? = some binding → binding.demoId = demoId
deriving DecidableEq

namespace WorldBindings

def empty : WorldBindings := ⟨∅, by simp⟩

def get? (b : WorldBindings) (demoId : UInt16) : Option WorldBinding := b.byDemo[demoId]?

def insert (b : WorldBindings) (binding : WorldBinding) : WorldBindings where
  byDemo := b.byDemo.insert binding.demoId binding
  demoId_eq {demoId other} h := by
    rw [Std.ExtTreeMap.getElem?_insert] at h
    split at h
    · next hsame => exact Option.some.inj h ▸ Std.LawfulEqOrd.eq_of_compare hsame
    · exact b.demoId_eq h

/-- Adds bindings one after another. -/
def merge (b : WorldBindings) (more : List WorldBinding) : WorldBindings := more.foldl insert b

/-- The bindings in ascending order of their demo ids. -/
def toList (b : WorldBindings) : List WorldBinding := b.byDemo.toList.map Prod.snd

def size (b : WorldBindings) : Nat := b.byDemo.size

def isEmpty (b : WorldBindings) : Bool := b.byDemo.isEmpty

def ofList (bindings : List WorldBinding) : WorldBindings := empty.merge bindings

/-- The placements that ship with the game. -/
def standard : WorldBindings := ofList [
  -- world 0; most of it happens on the tutorial stage
  ⟨10, 0, 13, 31, 7⟩, ⟨11, 0, 13, 28, 6⟩, ⟨13, 0, 13, 37, 7⟩, ⟨16, 0, 13, 46, 7⟩,
  ⟨28, 0, 13, 57, 8⟩, ⟨29, 0, 13, 6, 4⟩, ⟨20, 0, 0, 19, 9⟩, ⟨22, 0, 3, 26, 18⟩,
  ⟨30, 0, 2, 6, 18⟩, ⟨33, 0, 8, 6, 5⟩,
  -- world 1
  ⟨23, 1, 2, 24, 25⟩, ⟨24, 1, 7, 20, 12⟩, ⟨34, 1, 9, 9, 20⟩,
  -- world 2
  ⟨25, 2, 5, 32, 22⟩, ⟨35, 2, 10, 8, 16⟩]

end WorldBindings

end DemoReel
