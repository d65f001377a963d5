import DemoReel.Playback.Config
import DemoReel.Program.Decoding
import DemoReel.World.Binding

/-!
# Settings

Everything about decoding and playback that can be configured, with the values that hold when
nothing is configured.
-/

namespace DemoReel

structure Settings where
  playback : Playback.Config := {}
  /-- Name of the string table that demo text is resolved against. -/
  localizationTable : String := "lang.xx"
  decode : DecodeOptions := {}
  worldBindings : WorldBindings := .standard

end DemoReel
