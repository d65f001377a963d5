import DemoReel.Playback.Progress
import DemoReel.Playback.State
import DemoReel.Program.Operation

/-!
# Executing one operation for one tick

An operation is told how many ticks it has run and says whether it is done, and whether the frame is
spent.  A block steps the children that are not done yet, and is done when all of them are.
-/

namespace DemoReel.Playback

/-- Distance of chat and hint text from the left edge of the viewport. -/
def textMargin : Int32 := 5
/-- Pixels a chat line moves per tick. -/
def chatSpeed : Int32 := 5
/-- Distance of hint text from the upper edge of the viewport. -/
def hintOffsetY : Int32 := 270
/-- Ticks that a hint stays. -/
def hintTicks : UInt32 := 20
/-- Ticks of the visible and of the hidden half of a blink. -/
def blinkInterval : UInt32 := 5
/-- Distance of the decoration symbol from the portrait. -/
def decorationOffsetX : Int32 := 75
/-- Ticks the hero needs for one block. -/
def walkTicks : UInt32 := 12

/-- What stepping an operation says about it. -/
structure Outcome where
  /-- The operation is done. -/
  advance : Bool
  /-- The frame is spent; of interest once the operation is done. -/
  consumesTick : Bool
  /-- Playback must stop. -/
  halt : Option Error
deriving DecidableEq, Repr

namespace Outcome

/-- Takes the frame, and is done if `advance` says so. -/
def ticking (advance : Bool) : Outcome := ⟨advance, true, none⟩

/-- Done, with the frame spent. -/
def done : Outcome := ticking true

/-- Done, with the frame left for the next operation. -/
def instant : Outcome := ⟨true, false, none⟩

def halted (error : Error) : Outcome := ⟨false, true, some error⟩

/-- Two operations side by side are done when both are, and take the frame when both do. -/
def both (a b : Outcome) : Outcome :=
  ⟨a.advance && b.advance, a.consumesTick && b.consumesTick, none⟩

end Outcome

/-- A running demo: how far it is, and what it shows. -/
structure Reel where
  progress : Progress
  state : State

namespace State

/-- Puts text on show, or moves it if it is on show already. -/
def placeText (s : State) (id text : String) (x y : Int32) : State :=
  { s with scene :=
    if s.scene.contains id then s.scene.setPosition id x y
    else s.scene.upsert id (.text text x y Depth.overlayText) }

/-- Hides and shows an element in turn, and removes it when the blinks are over. -/
def blink (s : State) (id : String) (t : UInt32) (blinkCount : UInt8) : Outcome × State :=
  let scene := s.scene.setVisible id ((t / blinkInterval) % 2 == 0)
  let advance := decide (blinkCount.toUInt32 * 2 * blinkInterval ≤ t)
  (.ticking advance, { s with scene := if advance then scene.remove id else scene })

def paintChat (s : State) (t : UInt32) (offsetY : UInt16) (text : DemoText) : Outcome × State :=
  let corner := s.cameraPixel
  let x := corner.x + textMargin + t.toInt32 * chatSpeed
  let s := s.placeText ElementId.chat text.shown x (corner.y + offsetY.toUInt32.toInt32)
  let advance := decide (s.config.viewportWidth.toInt32 ≤ x - corner.x)
  (.ticking advance,
    if advance then { s with scene := s.scene.remove ElementId.chat } else s)

def paintHint (s : State) (t : UInt32) (text : DemoText) : Outcome × State :=
  let corner := s.cameraPixel
  let s := s.placeText ElementId.hint text.shown (corner.x + textMargin) (corner.y + hintOffsetY)
  let advance := decide (hintTicks ≤ t)
  (.ticking advance,
    if advance then { s with scene := s.scene.remove ElementId.hint } else s)

/-- Builds the portrait anew from its two frames.  It keeps place and visibility, and is hidden at
first. -/
def setDemoSprite (s : State) (heroSprite backgroundAnim : UInt16) : Outcome × State :=
  let backgroundFrame : SpriteFrame := ⟨.portraitBackground, backgroundAnim &&& 1⟩
  let portraitFrame : SpriteFrame := ⟨.portrait, heroSprite⟩
  match s.sprites[backgroundFrame]?, s.sprites[portraitFrame]? with
  | none, _ => (.halted (.missingSprite backgroundFrame), s)
  | some _, none => (.halted (.missingSprite portraitFrame), s)
  | some background, some portrait =>
    let kind := ElementKind.image [background, portrait]
    let element : Element :=
      match s.scene.get? ElementId.demoSprite with
      | some sprite => ⟨kind, sprite.x, sprite.y, Depth.overlayText, sprite.visible⟩
      | none => ⟨kind, 0, 0, Depth.overlayText, false⟩
    (.instant, { s with scene := s.scene.upsert ElementId.demoSprite element })

def setPosAndShow (s : State) (x y : UInt16) : Outcome × State :=
  let corner := s.cameraPixel
  let scene := s.scene.setPosition ElementId.demoSprite (corner.x + x.toUInt32.toInt32)
    (corner.y + y.toUInt32.toInt32)
  (.done, { s with scene := scene.setVisible ElementId.demoSprite true })

def hideDemoSprite (s : State) : Outcome × State :=
  let scene := s.scene.setVisible ElementId.demoSprite false
  (.done, { s with scene := scene.remove ElementId.decoration })

def showDecoSymbol (s : State) (t : UInt32) (frameIndex : UInt16) (blinkCount : UInt8) :
    Outcome × State :=
  if s.scene.contains ElementId.decoration then s.blink ElementId.decoration t blinkCount
  else
    let frame : SpriteFrame := ⟨.portraitDecoration, frameIndex⟩
    match s.sprites[frame]? with
    | none => (.halted (.missingSprite frame), s)
    | some raster =>
      let (x, y) := match s.scene.get? ElementId.demoSprite with
        | some sprite => (sprite.x, sprite.y)
        | none => (0, 0)
      let symbol := Element.image [raster] (x + decorationOffsetX) y Depth.overlayText
      blink { s with scene := s.scene.upsert ElementId.decoration symbol } ElementId.decoration t
        blinkCount

def screenBlink (s : State) (t : UInt32) (blinkCount : UInt8) (color : Rgb) : Outcome × State :=
  let s :=
    if s.scene.contains ElementId.blinkOverlay then s
    else
      let overlay := Raster.solid s.config.viewportWidth s.config.viewportHeight
        (packRgba color.red color.green color.blue 0xFF)
      let corner := s.cameraPixel
      let element := Element.image [overlay] corner.x corner.y Depth.screenBlink
      { s with scene := s.scene.upsert ElementId.blinkOverlay element }
  s.blink ElementId.blinkOverlay t blinkCount

/-- Writes a block and renders the stage.  A block outside the stage is passed over. -/
def setBlock (s : State) (x y : UInt16) (player : UInt8) (foreground : Option UInt8) :
    Outcome × State :=
  match s.stage.setBlock x y player foreground with
  | none => (.instant, s)
  | some stage =>
    match renderStage { s with stage } with
    | (some error, s) => (.halted error, s)
    | (none, s) => (.instant, s)

/-- Moves the hero by one walking step; a twelfth of a block, rounded towards zero. -/
def walkHero (s : State) (direction : Direction) : State :=
  let step := s.config.blockSize.toInt32 / walkTicks.toInt32
  let (dx, dy) := direction.delta
  match s.scene.get? ElementId.hero with
  | none => s
  | some hero =>
    let x := hero.x + Int32.ofInt dx * step
    let y := hero.y + Int32.ofInt dy * step
    { s with scene := s.scene.setPosition ElementId.hero x y }

end State

namespace Reel

/-- The part of its way that a pan of `frameCount` frames has covered in its tick `t`.  A pan of no
frames stays where it is, and one of a single frame is at its target at once. -/
def panProgress (t : UInt32) (frameCount : UInt16) : Float :=
  if frameCount = 0 then 0
  else if frameCount = 1 then 1
  else min (t.toFloat / (frameCount - 1).toFloat) 1

/-- Pans the camera from where it stood when the pan began. -/
def moveCamera (r : Reel) (path : OpPath) (blockX blockY frameCount : UInt16) : Outcome × Reel :=
  let t := r.progress.tick
  let known := if t = 0 then none else r.progress.panOrigin? path
  let origin := known.getD r.state.camera
  let progress := if known.isSome then r.progress else r.progress.setPanOrigin path origin
  let camera := origin.between (.atBlock blockX blockY) (panProgress t frameCount)
  (.ticking (decide (frameCount.toNat ≤ t.toNat + 1)), ⟨progress, { r.state with camera }⟩)

/-- Steps a leaf instruction. -/
def stepLeaf (instruction : Instruction) (path : OpPath) (r : Reel) : Outcome × Reel :=
  let t := r.progress.tick
  let onState (result : Outcome × State) : Outcome × Reel :=
    (result.1, { r with state := result.2 })
  match instruction with
  | .moveCamera blockX blockY frameCount => r.moveCamera path blockX blockY frameCount
  | .paintChat _ offsetY text => onState (r.state.paintChat t offsetY text)
  | .delay frameCount => (.ticking (decide (frameCount.toNat ≤ t.toNat + 1)), r)
  | .playerMove direction =>
    onState (.ticking (decide (walkTicks ≤ t + 1)), r.state.walkHero direction)
  | .setDemoSprite heroSprite backgroundAnim =>
    onState (r.state.setDemoSprite heroSprite backgroundAnim)
  | .setPosAndShow x y => onState (r.state.setPosAndShow x y)
  | .hideDemoSprite => onState r.state.hideDemoSprite
  | .showDecoSymbol frameIndex blinkCount =>
    onState (r.state.showDecoSymbol t frameIndex blinkCount)
  | .hideDecoSymbol _ _ =>
    onState (.done, { r.state with scene := r.state.scene.remove ElementId.decoration })
  | .screenBlink blinkCount color => onState (r.state.screenBlink t blinkCount color)
  | .setBlockShort blockX blockY blockId specialData =>
    onState (r.state.setBlock blockX blockY blockId (some specialData))
  | .setBlockLong blockX blockY blockId =>
    onState (r.state.setBlock blockX blockY blockId.toUInt8 none)
  | .paintHint text => onState (r.state.paintHint t text)
  | .unknown opcode => (.halted (.unknownOpcode opcode), r)

/-- Marks the operation at `path` as done if the outcome says so. -/
def latchIfDone (r : Reel) (path : OpPath) (outcome : Outcome) : Reel :=
  if outcome.advance then { r with progress := r.progress.latch path } else r

mutual

/-- Steps an operation for the current tick. -/
def step : Operation → OpPath → Reel → Outcome × Reel
  | .leaf instruction, path, r => stepLeaf instruction path r
  | .block _ children, path, r =>
    let (outcome, r) := stepChildren children path 0 .done r
    -- a block that halts keeps its tables, since its outcome does not advance
    if outcome.advance then (outcome, { r with progress := r.progress.clearWithin path })
    else (outcome, r)

/-- Steps the children from position `index` on that are not done, where `outcome` sums up those
before.  A child that halts ends the round. -/
def stepChildren : List Operation → OpPath → (index : Nat) → Outcome → Reel → Outcome × Reel
  | [], _, _, outcome, r => (outcome, r)
  | child :: rest, path, index, outcome, r =>
    if r.progress.isLatched (path.child index) then stepChildren rest path (index + 1) outcome r
    else
      let (result, r) := step child (path.child index) r
      if result.halt.isSome then (result, r)
      else
        stepChildren rest path (index + 1) (outcome.both result)
          (r.latchIfDone (path.child index) result)

end

end Reel

end DemoReel.Playback
