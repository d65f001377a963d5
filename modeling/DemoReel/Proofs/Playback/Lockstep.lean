import DemoReel.Proofs.Playback.Chain

/-!
# Playback in lockstep

Two states may show different scenes and still be played on alike.  Which scenes these are is left
open: it takes a relation that is kept when playback does the same to both.  Cursor, camera and
outcomes are then the same in both runs for ever, and the scenes stay related.  With equal scenes
the reports are equal, too.
-/

namespace DemoReel.Playback

/-- The portrait made of new images: in its old place, or hidden at the origin if there was none. -/
def Element.redrawn (old : Option Element) (kind : ElementKind) : Element :=
  match old with
  | some sprite => ⟨kind, sprite.x, sprite.y, Depth.overlayText, sprite.visible⟩
  | none => ⟨kind, 0, 0, Depth.overlayText, false⟩

namespace Scene

def rebuilt (s : Scene) (kind : ElementKind) : Element :=
  .redrawn (s.get? ElementId.demoSprite) kind

/-- A new decoration beside the portrait. -/
def symbol (s : Scene) (raster : Raster) : Element :=
  let (x, y) := match s.get? ElementId.demoSprite with
    | some sprite => (sprite.x, sprite.y)
    | none => (0, 0)
  .image [raster] (x + decorationOffsetX) y Depth.overlayText

/-- A relation between scenes that playback keeps.  The portrait is all that may be there in one of
them only, and what stands beside it may stand elsewhere. -/
structure Similarity (sim : Scene → Scene → Prop) : Prop where
  contains {s s' : Scene} (id : String) : sim s s' → id ≠ ElementId.demoSprite →
    s'.contains id = s.contains id
  hero {s s' : Scene} : sim s s' → s'.get? ElementId.hero = s.get? ElementId.hero
  upsert {s s' : Scene} (id : String) (element : Element) : sim s s' →
    id ≠ ElementId.demoSprite → id ≠ ElementId.decoration →
      sim (s.upsert id element) (s'.upsert id element)
  remove {s s' : Scene} (id : String) : sim s s' → id ≠ ElementId.demoSprite →
    sim (s.remove id) (s'.remove id)
  setVisible {s s' : Scene} (id : String) (visible : Bool) : sim s s' →
    sim (s.setVisible id visible) (s'.setVisible id visible)
  setPosition {s s' : Scene} (id : String) (x y : Int32) : sim s s' →
    sim (s.setPosition id x y) (s'.setPosition id x y)
  rebuilt {s s' : Scene} (kind : ElementKind) : sim s s' →
    sim (s.upsert ElementId.demoSprite (s.rebuilt kind))
      (s'.upsert ElementId.demoSprite (s'.rebuilt kind))
  symbol {s s' : Scene} (raster : Raster) : sim s s' →
    sim (s.upsert ElementId.decoration (s.symbol raster))
      (s'.upsert ElementId.decoration (s'.symbol raster))

theorem similarity_eq : Similarity (· = ·) where
  contains _ h _ := h ▸ rfl
  hero h := h ▸ rfl
  upsert _ _ h _ _ := h ▸ rfl
  remove _ h _ := h ▸ rfl
  setVisible _ _ h := h ▸ rfl
  setPosition _ _ _ h := h ▸ rfl
  rebuilt _ h := h ▸ rfl
  symbol _ h := h ▸ rfl

end Scene

/-- The scenes are related; apart from them the states differ at most in the number of renders and
in the camera reported last.  The number of renders does not count. -/
inductive State.Alike (sim : Scene → Scene → Prop) (s : State) : State → Prop
  | intro (scene : Scene) (renders : Nat) (reportedCamera : Option Point)
      (related : sim s.scene scene)
      (fixed : ∀ call call', s.stage.renderer call = s.stage.renderer call') :
      Alike sim s { s with scene, stage := { s.stage with renders }, reportedCamera }

variable {sim : Scene → Scene → Prop}

namespace State

variable {s s' : State}

/-- What comes of an instruction in alike states. -/
def ResultsAlike (sim : Scene → Scene → Prop) (result result' : Outcome × State) : Prop :=
  result'.1 = result.1 ∧ result.2.Alike sim result'.2

theorem Alike.scene (h : s.Alike sim s') : sim s.scene s'.scene := by
  cases h with
  | intro _ _ _ related _ => exact related

theorem Alike.camera (h : s.Alike sim s') : s'.camera = s.camera := by
  cases h
  rfl

theorem Alike.cameraPixel (h : s.Alike sim s') : s'.cameraPixel = s.cameraPixel := by
  cases h
  rfl

theorem Alike.withScene {scene scene' : Scene} (h : s.Alike sim s') (hscene : sim scene scene') :
    Alike sim { s with scene } { s' with scene := scene' } := by
  cases h with
  | intro _ renders reported _ fixed => exact .intro scene' renders reported hscene fixed

theorem Alike.withCamera (h : s.Alike sim s') (camera : Camera) :
    Alike sim { s with camera } { s' with camera } := by
  cases h with
  | intro scene renders reported related fixed => exact .intro scene renders reported related fixed

theorem Alike.withLayers (h : s.Alike sim s') (layers : StageLayers) :
    Alike sim { s with stage := { s.stage with layers } }
      { s' with stage := { s'.stage with layers } } := by
  cases h with
  | intro scene renders reported related fixed => exact .intro scene renders reported related fixed

/-- With equal scenes and the same camera reported last, the commands are the same. -/
theorem Alike.finishTick (h : s.Alike (· = ·) s')
    (hreported : s'.reportedCamera = s.reportedCamera) :
    s'.finishTick.1 = s.finishTick.1 ∧ s.finishTick.2.Alike (· = ·) s'.finishTick.2 ∧
      s'.finishTick.2.reportedCamera = s.finishTick.2.reportedCamera := by
  cases h with
  | intro scene renders reported related fixed =>
    subst related hreported
    exact ⟨rfl, .intro _ renders _ rfl fixed, rfl⟩

section

variable (hsim : Scene.Similarity sim)
include hsim

theorem Alike.placeText (h : s.Alike sim s') {id : String} (hportrait : id ≠ ElementId.demoSprite)
    (hdecoration : id ≠ ElementId.decoration) (text : String) (x y : Int32) :
    (s.placeText id text x y).Alike sim (s'.placeText id text x y) := by
  refine h.withScene ?_
  rw [hsim.contains id h.scene hportrait]
  split
  · exact hsim.setPosition id x y h.scene
  · exact hsim.upsert id _ h.scene hportrait hdecoration

theorem Alike.dismiss (h : s.Alike sim s') (id : String) (hportrait : id ≠ ElementId.demoSprite)
    (gone : Bool) :
    Alike sim (if gone then { s with scene := s.scene.remove id } else s)
      (if gone then { s' with scene := s'.scene.remove id } else s') := by
  cases gone with
  | false => exact h
  | true => exact h.withScene (hsim.remove id h.scene hportrait)

theorem Alike.paintChat (h : s.Alike sim s') (t : UInt32) (offsetY : UInt16) (text : DemoText) :
    ResultsAlike sim (s.paintChat t offsetY text) (s'.paintChat t offsetY text) := by
  have hplaced (x y : Int32) : (s.placeText ElementId.chat text.shown x y).Alike sim
      (s'.placeText ElementId.chat text.shown x y) :=
    h.placeText hsim (by decide) (by decide) _ x y
  cases h with
  | intro scene renders reported related fixed =>
    exact ⟨rfl, (hplaced _ _).dismiss hsim ElementId.chat (by decide) _⟩

theorem Alike.paintHint (h : s.Alike sim s') (t : UInt32) (text : DemoText) :
    ResultsAlike sim (s.paintHint t text) (s'.paintHint t text) := by
  have hplaced (x y : Int32) : (s.placeText ElementId.hint text.shown x y).Alike sim
      (s'.placeText ElementId.hint text.shown x y) :=
    h.placeText hsim (by decide) (by decide) _ x y
  cases h with
  | intro scene renders reported related fixed =>
    exact ⟨rfl, (hplaced _ _).dismiss hsim ElementId.hint (by decide) _⟩

theorem Alike.blink (h : s.Alike sim s') (id : String) (hportrait : id ≠ ElementId.demoSprite)
    (t : UInt32) (blinkCount : UInt8) :
    ResultsAlike sim (s.blink id t blinkCount) (s'.blink id t blinkCount) := by
  have hvisible := hsim.setVisible id ((t / blinkInterval) % 2 == 0) h.scene
  refine ⟨rfl, h.withScene ?_⟩
  split
  · exact hsim.remove id hvisible hportrait
  · exact hvisible

theorem Alike.setDemoSprite (h : s.Alike sim s') (heroSprite backgroundAnim : UInt16) :
    ResultsAlike sim (s.setDemoSprite heroSprite backgroundAnim)
      (s'.setDemoSprite heroSprite backgroundAnim) := by
  have hrebuilt (kind : ElementKind) := h.withScene (hsim.rebuilt kind h.scene)
  cases h with
  | intro scene renders reported related fixed =>
    unfold State.setDemoSprite
    dsimp only
    split
    · exact ⟨rfl, .intro scene renders reported related fixed⟩
    · exact ⟨rfl, .intro scene renders reported related fixed⟩
    · exact ⟨rfl, hrebuilt _⟩

theorem Alike.setPosAndShow (h : s.Alike sim s') (x y : UInt16) :
    ResultsAlike sim (s.setPosAndShow x y) (s'.setPosAndShow x y) := by
  have hmoved (x y : Int32) : Alike sim _ _ :=
    h.withScene (hsim.setVisible ElementId.demoSprite true
      (hsim.setPosition ElementId.demoSprite x y h.scene))
  cases h with
  | intro scene renders reported related fixed => exact ⟨rfl, hmoved _ _⟩

theorem Alike.hideDemoSprite (h : s.Alike sim s') :
    ResultsAlike sim s.hideDemoSprite s'.hideDemoSprite :=
  ⟨rfl, h.withScene (hsim.remove ElementId.decoration
    (hsim.setVisible ElementId.demoSprite false h.scene) (by decide))⟩

theorem Alike.showDecoSymbol (h : s.Alike sim s') (t : UInt32) (frameIndex : UInt16)
    (blinkCount : UInt8) :
    ResultsAlike sim (s.showDecoSymbol t frameIndex blinkCount)
      (s'.showDecoSymbol t frameIndex blinkCount) := by
  have hsymbol (raster : Raster) : ResultsAlike sim _ _ :=
    (h.withScene (hsim.symbol raster h.scene)).blink hsim ElementId.decoration (by decide) t
      blinkCount
  have hblink := h.blink hsim ElementId.decoration (by decide) t blinkCount
  have hcontains := hsim.contains ElementId.decoration h.scene (by decide)
  unfold State.showDecoSymbol
  rw [hcontains]
  split
  · exact hblink
  · cases h with
    | intro scene renders reported related fixed =>
      dsimp only
      split
      · exact ⟨rfl, .intro scene renders reported related fixed⟩
      · exact hsymbol _

theorem Alike.screenBlink (h : s.Alike sim s') (t : UInt32) (blinkCount : UInt8) (color : Rgb) :
    ResultsAlike sim (s.screenBlink t blinkCount color) (s'.screenBlink t blinkCount color) := by
  have hraised (overlay : Element) := h.withScene
    (hsim.upsert ElementId.blinkOverlay overlay h.scene (by decide) (by decide))
  have hcontains := hsim.contains ElementId.blinkOverlay h.scene (by decide)
  unfold State.screenBlink
  refine Alike.blink hsim ?_ ElementId.blinkOverlay (by decide) t blinkCount
  rw [hcontains]
  split
  · exact h
  · cases h with
    | intro scene renders reported related fixed => exact hraised _

theorem Alike.renderStage (h : s.Alike sim s') :
    s'.renderStage.1 = s.renderStage.1 ∧ s.renderStage.2.Alike sim s'.renderStage.2 := by
  have hshown (image : StageImage) := hsim.upsert ElementId.stage
    (.image [image.raster] 0 0 Depth.stage) h.scene (by decide) (by decide)
  cases h with
  | intro scene renders reported related fixed =>
    unfold State.renderStage Stage.render
    dsimp only
    rw [fixed (renders + 1) (s.stage.renders + 1)]
    split
    · next hrender =>
      obtain ⟨hnone, rfl⟩ := Prod.mk.inj hrender
      rw [hnone]
      exact ⟨rfl, .intro scene (renders + 1) reported related fixed⟩
    · next image stage hrender =>
      obtain ⟨hsome, rfl⟩ := Prod.mk.inj hrender
      rw [hsome]
      exact ⟨rfl, .intro _ (renders + 1) reported (hshown image) fixed⟩

theorem Alike.setBlock (h : s.Alike sim s') (x y : UInt16) (player : UInt8)
    (foreground : Option UInt8) :
    ResultsAlike sim (s.setBlock x y player foreground) (s'.setBlock x y player foreground) := by
  have hlayers : s'.stage.layers = s.stage.layers := by
    cases h
    rfl
  unfold State.setBlock Stage.setBlock
  rw [hlayers]
  cases s.stage.layers.setBlock x y player foreground with
  | none => exact ⟨rfl, h⟩
  | some layers =>
    obtain ⟨hfault, hrendered⟩ := (h.withLayers layers).renderStage hsim
    dsimp only [Option.map_some]
    generalize State.renderStage { s with stage := { s.stage with layers } } = result
      at hfault hrendered ⊢
    generalize State.renderStage { s' with stage := { s'.stage with layers } } = result'
      at hfault hrendered ⊢
    obtain ⟨fault, shown⟩ := result
    obtain ⟨fault', shown'⟩ := result'
    obtain rfl : fault' = fault := hfault
    cases fault' with
    | none => exact ⟨rfl, hrendered⟩
    | some error => exact ⟨rfl, hrendered⟩

theorem Alike.walkHero (h : s.Alike sim s') (direction : Direction) :
    (s.walkHero direction).Alike sim (s'.walkHero direction) := by
  have hmoved (x y : Int32) := h.withScene (hsim.setPosition ElementId.hero x y h.scene)
  have hhero := hsim.hero h.scene
  unfold State.walkHero
  rw [hhero]
  cases s.scene.get? ElementId.hero with
  | none => exact h
  | some hero =>
    cases h with
    | intro scene renders reported related fixed => exact hmoved _ _

theorem Alike.resetWorld (h : s.Alike sim s') :
    s'.resetWorld.1 = s.resetWorld.1 ∧ s.resetWorld.2.Alike sim s'.resetWorld.2 := by
  have hcontains := hsim.contains ElementId.hero h.scene (by decide)
  have hmoved (x y : Int32) := hsim.setPosition ElementId.hero x y h.scene
  have hraised (hero : Element) :=
    hsim.upsert ElementId.hero hero h.scene (by decide) (by decide)
  cases h with
  | intro scene renders reported related fixed =>
    refine Alike.renderStage hsim (.intro _ renders reported ?_ fixed)
    dsimp only at hcontains ⊢
    rw [hcontains]
    split
    · exact hmoved _ _
    · exact hraised _

end

end State

/-! ## Steps -/

namespace Reel

/-- The cursors are the same and the states alike. -/
structure Alike (sim : Scene → Scene → Prop) (r r' : Reel) : Prop where
  progress : r'.progress = r.progress
  state : r.state.Alike sim r'.state

theorem Alike.latchIfDone {r r' : Reel} (h : r.Alike sim r') (path : OpPath) (outcome : Outcome) :
    (r.latchIfDone path outcome).Alike sim (r'.latchIfDone path outcome) := by
  unfold Reel.latchIfDone
  split
  · exact ⟨congrArg (Progress.latch · path) h.progress, h.state⟩
  · exact h

theorem Alike.moveCamera {r r' : Reel} (h : r.Alike sim r') (path : OpPath)
    (blockX blockY frameCount : UInt16) :
    (r'.moveCamera path blockX blockY frameCount).1 =
        (r.moveCamera path blockX blockY frameCount).1 ∧
      (r.moveCamera path blockX blockY frameCount).2.Alike sim
        (r'.moveCamera path blockX blockY frameCount).2 := by
  have hmoved (camera : Camera) := h.state.withCamera camera
  unfold Reel.moveCamera
  rw [h.progress, h.state.camera]
  exact ⟨rfl, rfl, hmoved _⟩

theorem Alike.stepLeaf (hsim : Scene.Similarity sim) {r r' : Reel} (h : r.Alike sim r')
    (i : Instruction) (path : OpPath) :
    (Reel.stepLeaf i path r').1 = (Reel.stepLeaf i path r).1 ∧
      (Reel.stepLeaf i path r).2.Alike sim (Reel.stepLeaf i path r').2 := by
  obtain ⟨progress, state⟩ := r
  obtain ⟨progress', state'⟩ := r'
  obtain ⟨hprogress, hstate⟩ := h
  obtain rfl : progress' = progress := hprogress
  replace hstate : state.Alike sim state' := hstate
  have hreel : Alike sim ⟨progress', state⟩ ⟨progress', state'⟩ := ⟨rfl, hstate⟩
  have hresults {result result' : Outcome × State}
      (hresult : State.ResultsAlike sim result result') :
      result'.1 = result.1 ∧ Alike sim ⟨progress', result.2⟩ ⟨progress', result'.2⟩ :=
    ⟨hresult.1, rfl, hresult.2⟩
  cases i with
  | moveCamera blockX blockY frameCount => exact hreel.moveCamera path _ _ _
  | paintChat lineCount offsetY text => exact hresults (hstate.paintChat hsim _ _ _)
  | delay frameCount => exact ⟨rfl, hreel⟩
  | playerMove direction => exact ⟨rfl, rfl, hstate.walkHero hsim _⟩
  | setDemoSprite heroSprite backgroundAnim => exact hresults (hstate.setDemoSprite hsim _ _)
  | setPosAndShow x y => exact hresults (hstate.setPosAndShow hsim _ _)
  | hideDemoSprite => exact hresults (hstate.hideDemoSprite hsim)
  | showDecoSymbol frameIndex blinkCount => exact hresults (hstate.showDecoSymbol hsim _ _ _)
  | hideDecoSymbol unused needHide =>
    exact ⟨rfl, rfl, hstate.withScene (hsim.remove ElementId.decoration hstate.scene (by decide))⟩
  | screenBlink blinkCount color => exact hresults (hstate.screenBlink hsim _ _ _)
  | setBlockShort blockX blockY blockId specialData => exact hresults (hstate.setBlock hsim _ _ _ _)
  | setBlockLong blockX blockY blockId => exact hresults (hstate.setBlock hsim _ _ _ _)
  | paintHint text => exact hresults (hstate.paintHint hsim _ _)
  | unknown opcode => exact ⟨rfl, hreel⟩

mutual

theorem Alike.step (hsim : Scene.Similarity sim) : ∀ {r r' : Reel} (op : Operation) (path : OpPath),
    r.Alike sim r' → (Reel.step op path r').1 = (Reel.step op path r).1 ∧
      (Reel.step op path r).2.Alike sim (Reel.step op path r').2
  | r, r', .leaf i, path, h => by
    rw [Reel.step, Reel.step]
    exact h.stepLeaf hsim i path
  | r, r', .block childCount children, path, h => by
    obtain ⟨houtcome, hreel⟩ := Alike.stepChildren hsim children path 0 .done h
    rw [Reel.step, Reel.step]
    dsimp only
    rw [houtcome]
    split
    · exact ⟨rfl, congrArg (Progress.clearWithin · path) hreel.progress, hreel.state⟩
    · exact ⟨rfl, hreel⟩

theorem Alike.stepChildren (hsim : Scene.Similarity sim) : ∀ {r r' : Reel}
    (children : List Operation) (path : OpPath) (index : Nat) (outcome : Outcome), r.Alike sim r' →
      (Reel.stepChildren children path index outcome r').1 =
          (Reel.stepChildren children path index outcome r).1 ∧
        (Reel.stepChildren children path index outcome r).2.Alike sim
          (Reel.stepChildren children path index outcome r').2
  | r, r', [], path, index, outcome, h => ⟨rfl, h⟩
  | r, r', child :: rest, path, index, outcome, h => by
    obtain ⟨houtcome, hreel⟩ := Alike.step hsim child (path.child index) h
    rw [Reel.stepChildren, Reel.stepChildren, h.progress]
    dsimp only
    rw [houtcome]
    split
    · exact Alike.stepChildren hsim rest path (index + 1) outcome h
    · split
      · exact ⟨rfl, hreel⟩
      · exact Alike.stepChildren hsim rest path (index + 1) _ (hreel.latchIfDone _ _)

end

end Reel

/-! ## Links and ticks -/

namespace Player

/-- The same forest is played from the same cursor in alike states. -/
structure Alike (sim : Scene → Scene → Prop) (p p' : Player) : Prop where
  forest : p'.forest = p.forest
  halted : p'.halted = p.halted
  reel : p.reel.Alike sim p'.reel

/-- Two links do the same, and lead to alike players. -/
structure LinksAlike (sim : Scene → Scene → Prop) (link link' : Link) : Prop where
  player : link.player.Alike sim link'.player
  restarted : link'.restarted = link.restarted
  goesOn : link'.goesOn = link.goesOn

variable {p p' : Player}

theorem Alike.index (h : p.Alike sim p') : p'.index = p.index :=
  congrArg Progress.index h.reel.progress

theorem Alike.withReel (h : p.Alike sim p') {reel reel' : Reel} (hreel : reel.Alike sim reel') :
    Alike sim { p with reel } { p' with reel := reel' } :=
  ⟨h.forest, h.halted, hreel⟩

theorem Alike.advance (hsim : Scene.Similarity sim) (h : p.Alike sim p') :
    p'.advance.2 = p.advance.2 ∧ p.advance.1.Alike sim p'.advance.1 := by
  have hreset := h.reel.state.resetWorld hsim
  rw [advance_eq, advance_eq, h.forest, h.index]
  split
  · exact ⟨rfl, rfl, h.halted, congrArg Progress.advance h.reel.progress, h.reel.state⟩
  · exact ⟨congrArg Option.isNone hreset.1, h.forest, hreset.1, rfl, hreset.2⟩

theorem Alike.link (hsim : Scene.Similarity sim) (h : p.Alike sim p') :
    LinksAlike sim p.link p'.link := by
  cases hop : p.forest[p.index]? with
  | none =>
    have hop' : p'.forest[p'.index]? = none := by rw [h.forest, h.index, hop]
    rw [Player.link, hop, Player.link, hop']
    exact ⟨h, rfl, rfl⟩
  | some op =>
    have hop' : p'.forest[p'.index]? = some op := by rw [h.forest, h.index, hop]
    obtain ⟨houtcome, hreel⟩ := h.reel.step hsim op (.top p.index)
    rw [link_of_getElem? hop, link_of_getElem? hop', h.index, houtcome]
    cases hhalt : (Reel.step op (.top p.index) p.reel).1.halt with
    | some error =>
      rw [settle_of_halt hhalt, settle_of_halt hhalt]
      exact ⟨⟨h.forest, rfl, hreel⟩, rfl, rfl⟩
    | none =>
      cases hadvance : (Reel.step op (.top p.index) p.reel).1.advance with
      | false =>
        rw [settle_of_wait hhalt hadvance, settle_of_wait hhalt hadvance]
        exact ⟨h.withReel ⟨congrArg Progress.wait hreel.progress, hreel.state⟩, rfl, rfl⟩
      | true =>
        obtain ⟨hrestarted, hplayer⟩ := (h.withReel hreel).advance hsim
        rw [settle_of_advance hhalt hadvance, settle_of_advance hhalt hadvance]
        refine ⟨hplayer, hrestarted, ?_⟩
        dsimp only
        rw [hplayer.halted]

theorem Alike.stepChain (hsim : Scene.Similarity sim) (h : p.Alike sim p') (budget : Nat)
    (looped : Bool) :
    (Player.stepChain budget p' looped).2 = (Player.stepChain budget p looped).2 ∧
      (Player.stepChain budget p looped).1.Alike sim (Player.stepChain budget p' looped).1 := by
  induction budget generalizing p p' looped with
  | zero => exact ⟨rfl, h⟩
  | succ budget ih =>
    have hlink := h.link hsim
    rw [stepChain_succ, stepChain_succ, hlink.goesOn, hlink.restarted]
    split
    · exact ih hlink.player _
    · exact ⟨rfl, hlink.player⟩

/-- Nothing but the number of renders and of ticks differs. -/
structure Same (p p' : Player) : Prop where
  alike : p.Alike (· = ·) p'
  reportedCamera : p'.reel.state.reportedCamera = p.reel.state.reportedCamera

theorem Same.tick (h : p.Same p') : p'.tick.1 = p.tick.1 ∧ p.tick.2.Same p'.tick.2 := by
  cases hhalted : p.halted with
  | some error =>
    have hhalted' : p'.halted = some error := h.alike.halted.trans hhalted
    rw [tick_of_halted hhalted, tick_of_halted hhalted']
    exact ⟨rfl, h⟩
  | none =>
    have hhalted' : p'.halted = none := h.alike.halted.trans hhalted
    have hcounted : Alike (· = ·) { p with ticks := p.ticks + 1 }
        { p' with ticks := p'.ticks + 1 } :=
      ⟨h.alike.forest, h.alike.halted, h.alike.reel⟩
    obtain ⟨hlooped, hchain⟩ := hcounted.stepChain Scene.similarity_eq p.forest.size false
    rw [tick_of_running hhalted, tick_of_running hhalted']
    have hsize : p'.forest.size = p.forest.size := congrArg Array.size h.alike.forest
    have hchain : p.chain.1.Alike (· = ·) p'.chain.1 ∧ p'.chain.2 = p.chain.2 := by
      unfold chain
      rw [hsize]
      exact ⟨hchain, hlooped⟩
    obtain ⟨hchain, hlooped⟩ := hchain
    have hreported : p'.chain.1.reel.state.reportedCamera =
        p.chain.1.reel.state.reportedCamera := by
      rw [p'.redraws_chain.reportedCamera, h.reportedCamera, p.redraws_chain.reportedCamera]
    obtain ⟨hcommands, hstate, hcamera⟩ := hchain.reel.state.finishTick hreported
    refine ⟨?_, ⟨hchain.forest, hchain.halted, hchain.reel.progress, hstate⟩, hcamera⟩
    rw [hlooped, hcommands, status, hchain.halted, ← status]

end Player

end DemoReel.Playback
