import DemoReel.Playback.Error
import DemoReel.Playback.Scene
import DemoReel.Stage.Basic

/-!
# What a running demo changes

Camera, scene, stage and pixel runs, together with the assets that stay the same.
-/

namespace DemoReel.Playback

structure State where
  config : Config
  camera : Camera
  scene : Scene
  stage : Stage
  sprites : SpriteCache
  hero : Raster
  /-- Beams reported by the latest render. -/
  pixelRuns : List PixelRun
  /-- The camera position reported last. -/
  reportedCamera : Option Point

namespace State

/-- Nothing is on show yet. -/
def initial (config : Config) (stage : Stage) (hero : Raster) (sprites : SpriteCache) : State where
  config
  camera := .atBlock 0 0
  scene := .empty
  stage
  sprites
  hero
  pixelRuns := []
  reportedCamera := none

def cameraPixel (s : State) : Point := s.camera.pixel s.config

/-- Where the hero stands at the origin of the stage, with the feet on the lower edge of the
block. -/
def heroOrigin (s : State) : Point :=
  let block := s.config.blockSize.toInt32
  { x := s.stage.binding.x.toUInt32.toInt32 * block
    y := s.stage.binding.y.toUInt32.toInt32 * block + block - s.hero.height.toInt32 }

/-- The camera over the origin of the stage. -/
def originCamera (s : State) : Camera := .atBlock s.stage.binding.x s.stage.binding.y

/-- Renders the stage anew and shows it.  A render that fails counts all the same. -/
def renderStage (s : State) : Option Error × State :=
  match s.stage.render with
  | (none, stage) =>
    (some (.missingStageRender stage.binding.world stage.binding.stage), { s with stage })
  | (some image, stage) =>
    (none, { s with
      stage
      scene := s.scene.upsert ElementId.stage (.image [image.raster] 0 0 Depth.stage)
      pixelRuns := image.pixelRuns })

/-- Puts the stage back to its snapshot, and camera and hero to the origin. -/
def resetWorld (s : State) : Option Error × State :=
  let s := { s with stage := s.stage.restore, camera := s.originCamera }
  let place := s.heroOrigin
  let scene :=
    if s.scene.contains ElementId.hero then s.scene.setPosition ElementId.hero place.x place.y
    else s.scene.upsert ElementId.hero (.image [s.hero] place.x place.y Depth.hero)
  renderStage { s with scene }

/-- The commands of the tick that ends here: changes of elements, then the camera if it moved, then
the beams. -/
def finishTick (s : State) : List Command × State :=
  let (changes, scene) := s.scene.drain
  let place := s.cameraPixel
  let moved := if s.reportedCamera = some place then [] else [Command.camera place.x place.y]
  (changes ++ moved ++ s.pixelRuns.map .pixelRun, { s with scene, reportedCamera := some place })

end State

end DemoReel.Playback
