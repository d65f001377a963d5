import DemoReel.Playback.Camera
import Std.Data.ExtTreeMap
import Std.Data.ExtTreeSet

/-!
# How far a demo has come

Progress is the active top-level operation, the ticks spent on it, and two tables about the
operations below it: which children of a block are done, and where the camera stood when a pan
began.  Both tables are keyed by the path of an operation in the forest.
-/

namespace DemoReel.Playback

/-- Index of a top-level operation, followed by child indices. -/
abbrev OpPath := List Nat

namespace OpPath

def top (index : Nat) : OpPath := [index]

def child (path : OpPath) (index : Nat) : OpPath := path ++ [index]

/-- Whether a path lies strictly below another. -/
def isWithin : (path ancestor : OpPath) → Bool
  | [], _ => false
  | _ :: _, [] => true
  | i :: path, j :: ancestor => i == j && isWithin path ancestor

theorem isWithin_iff {path ancestor : OpPath} :
    path.isWithin ancestor ↔ ancestor <+: path ∧ path ≠ ancestor := by
  induction path generalizing ancestor with
  | nil => cases ancestor <;> simp [isWithin]
  | cons i path ih =>
    cases ancestor with
    | nil => simp [isWithin]
    | cons j ancestor =>
      simp only [isWithin, Bool.and_eq_true, beq_iff_eq, ih, List.cons_prefix_cons, ne_eq,
        List.cons.injEq]
      grind

end OpPath

structure Progress where
  index : Nat
  tick : UInt32
  latched : Std.ExtTreeSet OpPath
  panOrigins : Std.ExtTreeMap OpPath Camera
deriving DecidableEq

namespace Progress

def start : Progress := ⟨0, 0, ∅, ∅⟩

def isLatched (p : Progress) (path : OpPath) : Bool := p.latched.contains path

/-- Marks a child of a block as done. -/
def latch (p : Progress) (path : OpPath) : Progress := { p with latched := p.latched.insert path }

def panOrigin? (p : Progress) (path : OpPath) : Option Camera := p.panOrigins[path]?

def setPanOrigin (p : Progress) (path : OpPath) (origin : Camera) : Progress :=
  { p with panOrigins := p.panOrigins.insert path origin }

/-- Forgets everything about the operations below `block`. -/
def clearWithin (p : Progress) (block : OpPath) : Progress :=
  { p with
    latched := p.latched.filter fun path ↦ !OpPath.isWithin path block
    panOrigins := p.panOrigins.filter fun path _ ↦ !OpPath.isWithin path block }

/-- Goes on to the next top-level operation. -/
def advance (p : Progress) : Progress := { start with index := p.index + 1 }

/-- Spends one more tick on the active operation. -/
def wait (p : Progress) : Progress := { p with tick := p.tick + 1 }

end Progress

end DemoReel.Playback
