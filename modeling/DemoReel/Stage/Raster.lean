/-!
# Images

Decoded pictures as the sprite sheets and the stage renderer hand them over.
-/

namespace DemoReel

/-- Packs a colour as `0xRRGGBBAA`. -/
def packRgba (red green blue alpha : UInt8) : UInt32 :=
  red.toUInt32 <<< 24 ||| green.toUInt32 <<< 16 ||| blue.toUInt32 <<< 8 ||| alpha.toUInt32

structure Raster where
  width : UInt32
  height : UInt32
  /-- Offset of the anchor from the top-left corner. -/
  originX : Int32
  originY : Int32
  /-- Packed pixels, row by row. -/
  pixels : Array UInt32
deriving DecidableEq, Repr

namespace Raster

/-- A picture of one colour.  The number of its pixels is a 32-bit number and wraps. -/
def solid (width height : UInt32) (color : UInt32) : Raster where
  width
  height
  originX := 0
  originY := 0
  pixels := Array.replicate (width * height).toNat color

def withOrigin (r : Raster) (originX originY : Int32) : Raster := { r with originX, originY }

end Raster

/-- A horizontal run of equal pixels, drawn over the stage image for one tick. -/
structure PixelRun where
  x : Int32
  y : Int32
  length : UInt32
  color : UInt32
deriving DecidableEq, Repr

/-- What rendering a stage yields. -/
structure StageImage where
  raster : Raster
  pixelRuns : List PixelRun
deriving DecidableEq, Repr

end DemoReel
