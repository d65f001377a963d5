import DemoReel.Playback.Player
import DemoReel.Program.Basic
import DemoReel.Settings.Basic
import Std.Data.ExtTreeSet

/-!
# Playback sessions

A session gathers everything a program needs before its first tick: its place in the world, the
stage, the hero and the sprite frames that its operations may draw.  A frame that is missing stops
playback only when an operation asks for it.
-/

namespace DemoReel.Playback

/-- The hero standing still. -/
def heroFrame : SpriteFrame := ⟨.hero, 2⟩

/-- Supplies the layers of a stage, if they are available. -/
abbrev WorldSource := (world stage : UInt8) → Option StageLayers

/-- The frames that an instruction draws. -/
def framesOf : Instruction → List SpriteFrame
  | .setDemoSprite heroSprite backgroundAnim =>
    [⟨.portrait, heroSprite⟩, ⟨.portraitBackground, backgroundAnim &&& 1⟩]
  | .showDecoSymbol frameIndex _ => [⟨.portraitDecoration, frameIndex⟩]
  | _ => []

mutual

def framesOfOperation : Operation → List SpriteFrame
  | .leaf instruction => framesOf instruction
  | .block _ children => framesOfForest children

def framesOfForest : List Operation → List SpriteFrame
  | [] => []
  | op :: ops => framesOfOperation op ++ framesOfForest ops

end

/-- The frames that the operations of a forest may draw, children of blocks included. -/
def requiredFrames (forest : List Operation) : Std.ExtTreeSet SpriteFrame :=
  .ofList (framesOfForest forest)

structure Session where
  demoId : UInt16
  player : Player
  /-- Milliseconds between two ticks. -/
  intervalMs : UInt64

/-- The outcome of preparing a session, and what was asked for on the way, in order. -/
structure Preparation where
  stagesAsked : List (UInt8 × UInt8)
  framesAsked : List SpriteFrame
  result : Except Error Session

namespace Session

/-- Gathers what the program needs, places it and renders the stage once. -/
def prepare (program : DemoProgram) (settings : Settings) (sprites : SpriteSource)
    (world : WorldSource) (renderer : StageRenderer) : Preparation :=
  let demoId := program.demoId
  if program.operations.isEmpty then ⟨[], [], .error (.emptyProgram demoId)⟩
  else
    match settings.worldBindings.get? demoId with
    | none => ⟨[], [], .error (.unplaceable demoId)⟩
    | some binding =>
      let stagesAsked := [(binding.world, binding.stage)]
      match world binding.world binding.stage with
      | none => ⟨stagesAsked, [], .error (.missingStage binding.world binding.stage)⟩
      | some layers =>
        match sprites heroFrame with
        | none => ⟨stagesAsked, [heroFrame], .error (.missingSprite heroFrame)⟩
        | some hero =>
          let frames := (requiredFrames program.operations).toList
          let stage := Stage.ofLayers binding layers renderer
          let state := State.initial settings.playback stage hero (.gather sprites frames)
          let result := (Player.start program.operations state).map fun player ↦
            ⟨demoId, player, settings.playback.tickMs⟩
          ⟨stagesAsked, heroFrame :: frames, result⟩

def tick (s : Session) : TickReport × Session :=
  let (report, player) := s.player.tick
  (report, { s with player })

/-- Ticks until playback halts, at most `n` times. -/
def run : (n : Nat) → Session → List TickReport × Session
  | 0, s => ([], s)
  | n + 1, s =>
    match s.tick with
    | (⟨.halted error, commands⟩, s) => ([⟨.halted error, commands⟩], s)
    | (report, s) =>
      let (reports, s) := run n s
      (report :: reports, s)

/-- How a run ended; a run of no ticks leaves playback running. -/
def lastStatus (reports : List TickReport) : Status :=
  (reports.getLast?.map TickReport.status).getD .running

end Session

end DemoReel.Playback
