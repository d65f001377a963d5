/-!
# Frame timing and screen geometry
-/

namespace DemoReel.Playback

structure Config where
  /-- Milliseconds per tick. -/
  tickMs : UInt64 := 50
  /-- Size of the viewport in pixels. -/
  viewportWidth : UInt32 := 240
  viewportHeight : UInt32 := 320
  /-- Edge length of a stage block in pixels. -/
  blockSize : UInt32 := 24
deriving DecidableEq, Repr

end DemoReel.Playback
