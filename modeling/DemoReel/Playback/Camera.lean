import DemoReel.Playback.Config

/-!
# The camera

The camera stands over a block of the stage, between two blocks while it pans.  On the screen only
the pixel at the top-left corner of the viewport counts.
-/

namespace DemoReel.Playback

/-- A place on the stage, in pixels. -/
structure Point where
  x : Int32
  y : Int32
deriving DecidableEq, Repr

/-- The nearest representable pixel coordinate. -/
def clampInt32 (n : Int) : Int32 :=
  Int32.ofInt (max Int32.minValue.toInt (min Int32.maxValue.toInt n))

/-- Two to the power `n`. -/
def twoTo (n : Nat) : Nat := 1 <<< n

/-- The integer part, towards minus infinity, of the finite number with these bits. -/
def floorOfBits (bits : Nat) : Int :=
  let exponent := bits / twoTo 52 % twoTo 11
  let fraction := bits % twoTo 52
  -- the magnitude is `mantissa * 2 ^ (scale - 1075)`
  let mantissa : Int := if exponent = 0 then fraction else twoTo 52 + fraction
  let scale := max 1 exponent
  let signed := if bits < twoTo 63 then mantissa else -mantissa
  if 1075 ≤ scale then signed * twoTo (scale - 1075) else signed.fdiv (twoTo (1075 - scale))

/-- The pixel that holds a coordinate.  Coordinates beyond the pixel range end at its border, and
one that is not a number is zero. -/
def floorPixel (x : Float) : Int32 :=
  let bits := x.toBits.toNat
  if bits / twoTo 52 % twoTo 11 = twoTo 11 - 1 then
    if bits % twoTo 52 ≠ 0 then 0
    else if bits < twoTo 63 then Int32.maxValue else Int32.minValue
  else clampInt32 (floorOfBits bits)

/-- A distance in blocks, as the word of a binary64 number.  Kept as a word, it stays what it is
even where it is not a number. -/
structure Coordinate where
  bits : UInt64
deriving DecidableEq, Repr

namespace Coordinate

def ofFloat (x : Float) : Coordinate := ⟨x.toBits⟩

def toFloat (c : Coordinate) : Float := .ofBits c.bits

/-- The coordinate at which the given part of the way to another one is covered. -/
def between (origin target : Coordinate) (progress : Float) : Coordinate :=
  .ofFloat (origin.toFloat + (target.toFloat - origin.toFloat) * progress)

end Coordinate

/-- Centre of the view, in blocks. -/
structure Camera where
  x : Coordinate
  y : Coordinate
deriving DecidableEq, Repr

namespace Camera

def atBlock (x y : UInt16) : Camera := ⟨.ofFloat x.toFloat, .ofFloat y.toFloat⟩

/-- Top-left corner of the viewport when the block under the camera is in its middle. -/
def pixel (c : Camera) (config : Config) : Point :=
  let block := config.blockSize.toFloat
  let halfBlock := (config.blockSize / 2).toFloat
  { x := floorPixel (c.x.toFloat * block - (config.viewportWidth / 2).toFloat + halfBlock)
    y := floorPixel (c.y.toFloat * block - (config.viewportHeight / 2).toFloat + halfBlock) }

/-- The place between two others at which a pan has covered this part of its way. -/
def between (origin target : Camera) (progress : Float) : Camera :=
  ⟨origin.x.between target.x progress, origin.y.between target.y progress⟩

end Camera

end DemoReel.Playback
