import DemoReel.Stage.Raster
import Std.Data.ExtTreeMap

/-!
# Sprite frames

Frames are named by their sheet and number, and ordered by both in that order.
-/

namespace DemoReel

inductive SpriteSheet where
  /-- The player character. -/
  | hero
  /-- Portrait heads next to chat text. -/
  | portrait
  /-- What a portrait is drawn on. -/
  | portraitBackground
  /-- Emotion symbols that blink beside a portrait. -/
  | portraitDecoration
deriving DecidableEq, Repr

namespace SpriteSheet

def name : SpriteSheet → String
  | hero => "hero"
  | portrait => "portrait"
  | portraitBackground => "portrait_background"
  | portraitDecoration => "portrait_decoration"

def rank : SpriteSheet → Nat
  | hero => 0
  | portrait => 1
  | portraitBackground => 2
  | portraitDecoration => 3

theorem rank_injective {s t : SpriteSheet} (h : s.rank = t.rank) : s = t := by
  cases s <;> cases t <;> simp_all [rank]

end SpriteSheet

structure SpriteFrame where
  sheet : SpriteSheet
  frame : UInt16
deriving DecidableEq, Repr

namespace SpriteFrame

/-- Position in the order of all frames. -/
def rank (f : SpriteFrame) : Nat := f.sheet.rank * 65536 + f.frame.toNat

instance : Ord SpriteFrame := ⟨compareOn rank⟩

theorem rank_injective {f g : SpriteFrame} (h : f.rank = g.rank) : f = g := by
  have hf := f.frame.toNat_lt
  have hg := g.frame.toNat_lt
  simp only [rank] at h
  have hframe : f.frame.toNat = g.frame.toNat := by omega
  have hsheet : f.sheet.rank = g.sheet.rank := by omega
  obtain ⟨sheet, frame⟩ := f
  obtain ⟨sheet', frame'⟩ := g
  obtain rfl : sheet = sheet' := SpriteSheet.rank_injective hsheet
  obtain rfl : frame = frame' := UInt16.toNat_inj.1 hframe
  rfl

instance : Std.TransOrd SpriteFrame := inferInstanceAs (Std.TransCmp (compareOn rank))

instance : Std.LawfulEqOrd SpriteFrame where
  eq_of_compare {f g} h := by
    change compareOn rank f g = .eq at h
    rw [compareOn, Nat.compare_eq_eq] at h
    exact rank_injective h

end SpriteFrame

/-- Supplies a frame, if it is available. -/
abbrev SpriteSource := SpriteFrame → Option Raster

/-- The frames at hand while a demo plays. -/
abbrev SpriteCache := Std.ExtTreeMap SpriteFrame Raster

/-- Keeps the frames that the source has. -/
def SpriteCache.gather (source : SpriteSource) (frames : List SpriteFrame) : SpriteCache :=
  frames.foldl (fun cache frame ↦
    match source frame with
    | some raster => cache.insert frame raster
    | none => cache) ∅

end DemoReel
