import DemoReel.Playback.Camera
import DemoReel.Stage.Raster
import Std.Data.ExtTreeMap

/-!
# The scene

The named elements on show, and the commands that tell the presentation layer about every change.
A change that changes nothing gives no command.
-/

namespace DemoReel.Playback

/-! ## Names of the elements that playback uses -/

namespace ElementId

def stage : String := "stage_image"
def hero : String := "hero"
def demoSprite : String := "demo_sprite"
def decoration : String := "demo_sprite_decoration"
def chat : String := "chat"
def hint : String := "hint"
def blinkOverlay : String := "blink_overlay"

end ElementId

/-! ## Drawing order: a higher number is drawn on top -/

namespace Depth

def stage : Int32 := 0
def hero : Int32 := 11
def overlayText : Int32 := 12
def screenBlink : Int32 := 1000

end Depth

inductive ElementKind where
  /-- Images on top of each other, the lowest first. -/
  | image (rasters : List Raster)
  | text (text : String)
deriving DecidableEq, Repr

structure Element where
  kind : ElementKind
  x : Int32
  y : Int32
  z : Int32
  visible : Bool
deriving DecidableEq, Repr

namespace Element

def image (rasters : List Raster) (x y z : Int32) : Element := ⟨.image rasters, x, y, z, true⟩

def text (text : String) (x y z : Int32) : Element := ⟨.text text, x, y, z, true⟩

end Element

/-- One instruction to the presentation layer. -/
inductive Command where
  /-- Creates or replaces an element. -/
  | upsert (id : String) (element : Element)
  | remove (id : String)
  | setVisible (id : String) (visible : Bool)
  | setPosition (id : String) (x y : Int32)
  /-- Pixels drawn over the stage for this tick only. -/
  | pixelRun (run : PixelRun)
  /-- Top-left corner of the viewport. -/
  | camera (x y : Int32)
deriving DecidableEq, Repr

structure Scene where
  elements : Std.ExtTreeMap String Element
  /-- Commands issued since the last drain, in order. -/
  pending : Array Command
deriving DecidableEq

namespace Scene

def empty : Scene := ⟨∅, #[]⟩

def get? (s : Scene) (id : String) : Option Element := s.elements[id]?

def contains (s : Scene) (id : String) : Bool := s.elements.contains id

def size (s : Scene) : Nat := s.elements.size

def isEmpty (s : Scene) : Bool := s.elements.isEmpty

def upsert (s : Scene) (id : String) (element : Element) : Scene :=
  ⟨s.elements.insert id element, s.pending.push (.upsert id element)⟩

def remove (s : Scene) (id : String) : Scene :=
  if s.contains id then ⟨s.elements.erase id, s.pending.push (.remove id)⟩ else s

/-- Shows or hides an element; one that does not exist is left alone. -/
def setVisible (s : Scene) (id : String) (visible : Bool) : Scene :=
  match s.get? id with
  | none => s
  | some element =>
    if element.visible = visible then s
    else ⟨s.elements.insert id { element with visible }, s.pending.push (.setVisible id visible)⟩

/-- Moves an element; one that does not exist is left alone. -/
def setPosition (s : Scene) (id : String) (x y : Int32) : Scene :=
  match s.get? id with
  | none => s
  | some element =>
    if element.x = x ∧ element.y = y then s
    else ⟨s.elements.insert id { element with x, y }, s.pending.push (.setPosition id x y)⟩

/-- Issues a command that touches no element. -/
def push (s : Scene) (command : Command) : Scene := { s with pending := s.pending.push command }

/-- The commands since the last drain, and the scene without them. -/
def drain (s : Scene) : List Command × Scene := (s.pending.toList, { s with pending := #[] })

end Scene

end DemoReel.Playback
