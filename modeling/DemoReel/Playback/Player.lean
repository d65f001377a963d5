import DemoReel.Playback.Step

/-!
# Playing a forest tick by tick

Each tick gives one frame.  The active top-level operation is stepped; when it is done the next one
takes its place, in the same frame if the frame is not spent.  After the last operation the stage is
put back and the demo starts over.
-/

namespace DemoReel.Playback

inductive Status where
  | running
  /-- The demo started over during this tick. -/
  | looped
  /-- Nothing happens any more. -/
  | halted (error : Error)
deriving DecidableEq, Repr

/-- What one tick gives. -/
structure TickReport where
  status : Status
  commands : List Command
deriving DecidableEq, Repr

structure Player where
  forest : Array Operation
  reel : Reel
  halted : Option Error
  /-- Ticks run so far; calls after a halt do not count. -/
  ticks : Nat

namespace Player

/-- Places camera and hero at the origin and renders the stage. -/
def start (forest : List Operation) (state : State) : Except Error Player :=
  if forest.isEmpty then .error (.emptyProgram state.stage.binding.demoId)
  else
    match state.resetWorld with
    | (some error, _) => .error error
    | (none, state) => .ok ⟨forest.toArray, ⟨.start, state⟩, none, 0⟩

def index (p : Player) : Nat := p.reel.progress.index

def camera (p : Player) : Camera := p.reel.state.camera

/-- Goes back to the first operation and to the origin. -/
def restart (p : Player) : Player :=
  let (fault, state) := p.reel.state.resetWorld
  { p with reel := ⟨.start, state⟩, halted := fault }

/-- Goes on to the next top-level operation, and from the last one back to the first.  Also says
whether the demo started over. -/
def advance (p : Player) : Player × Bool :=
  let p := { p with reel := { p.reel with progress := p.reel.progress.advance } }
  if p.index < p.forest.size then (p, false)
  else
    let p := p.restart
    (p, p.halted.isNone)

/-- Steps top-level operations until the frame is spent, at most `budget` of them.  Also says
whether the demo started over, now or before. -/
def stepChain : (budget : Nat) → Player → (looped : Bool) → Player × Bool
  | 0, p, looped => (p, looped)
  | budget + 1, p, looped =>
    match p.forest[p.index]? with
    | none => (p, looped)
    | some op =>
      let (outcome, reel) := Reel.step op (.top p.index) p.reel
      let p := { p with reel }
      if outcome.halt.isSome then ({ p with halted := outcome.halt }, looped)
      else if !outcome.advance then
        ({ p with reel := { reel with progress := reel.progress.wait } }, looped)
      else
        let (p, loopedNow) := p.advance
        let looped := looped || loopedNow
        if p.halted.isSome || outcome.consumesTick then (p, looped)
        else stepChain budget p looped

def status (p : Player) (looped : Bool) : Status :=
  match p.halted with
  | some error => .halted error
  | none => if looped then .looped else .running

/-- One frame.  No operation of the forest is stepped twice in it. -/
def tick (p : Player) : TickReport × Player :=
  match p.halted with
  | some error => (⟨.halted error, []⟩, p)
  | none =>
    let (p, looped) := stepChain p.forest.size { p with ticks := p.ticks + 1 } false
    let (commands, state) := p.reel.state.finishTick
    (⟨p.status looped, commands⟩, { p with reel := { p.reel with state } })

/-- The next `n` frames. -/
def run : (n : Nat) → Player → List TickReport × Player
  | 0, p => ([], p)
  | n + 1, p =>
    let (report, p) := p.tick
    let (reports, p) := run n p
    (report :: reports, p)

/-- Steps one operation outside the tick order, at a path of its own. -/
def stepAt (p : Player) (op : Operation) (path : OpPath) : Outcome × Player :=
  let (outcome, reel) := Reel.step op path p.reel
  (outcome, { p with reel })

/-- A change of the stage layers by others. -/
def mapLayers (p : Player) (f : StageLayers → StageLayers) : Player :=
  let stage := p.reel.state.stage
  let state := { p.reel.state with stage := { stage with layers := f stage.layers } }
  { p with reel := { p.reel with state } }

end Player

end DemoReel.Playback
