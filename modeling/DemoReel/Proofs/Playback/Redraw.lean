import DemoReel.Playback.Player

/-!
# What stepping an operation can change

Playback reaches the scene through four calls only.  Whatever the operations of a forest do, a step
changes the camera, the stage layers, the beams and the scene, the last by such calls; timing,
assets and the place in the world stay what they were.
-/

namespace DemoReel.Playback

/-! ## Calls of the scene -/

/-- A call that may change an element of the scene. -/
inductive SceneCall where
  | upsert (id : String) (element : Element)
  | remove (id : String)
  | setVisible (id : String) (visible : Bool)
  | setPosition (id : String) (x y : Int32)
deriving DecidableEq, Repr

namespace Scene

def call (s : Scene) : SceneCall → Scene
  | .upsert id element => s.upsert id element
  | .remove id => s.remove id
  | .setVisible id visible => s.setVisible id visible
  | .setPosition id x y => s.setPosition id x y

/-- The scene becomes the other one by calls alone. -/
def Evolves (s s' : Scene) : Prop := ∃ calls : List SceneCall, calls.foldl call s = s'

namespace Evolves

theorem refl (s : Scene) : s.Evolves s := ⟨[], rfl⟩

theorem trans {s s' s'' : Scene} (h : s.Evolves s') (h' : s'.Evolves s'') : s.Evolves s'' := by
  obtain ⟨calls, rfl⟩ := h
  obtain ⟨more, rfl⟩ := h'
  exact ⟨calls ++ more, List.foldl_append⟩

theorem upsert (s : Scene) (id : String) (element : Element) : s.Evolves (s.upsert id element) :=
  ⟨[.upsert id element], rfl⟩

theorem remove (s : Scene) (id : String) : s.Evolves (s.remove id) := ⟨[.remove id], rfl⟩

theorem setVisible (s : Scene) (id : String) (visible : Bool) :
    s.Evolves (s.setVisible id visible) :=
  ⟨[.setVisible id visible], rfl⟩

theorem setPosition (s : Scene) (id : String) (x y : Int32) : s.Evolves (s.setPosition id x y) :=
  ⟨[.setPosition id x y], rfl⟩

end Evolves

end Scene

/-! ## Steps redraw -/

/-- Only camera, scene, layers, beams and the number of renders differ; the scene evolved. -/
structure State.Redraws (s s' : State) : Prop where
  scene : s.scene.Evolves s'.scene
  config : s'.config = s.config
  sprites : s'.sprites = s.sprites
  hero : s'.hero = s.hero
  reportedCamera : s'.reportedCamera = s.reportedCamera
  binding : s'.stage.binding = s.stage.binding
  snapshot : s'.stage.snapshot = s.stage.snapshot
  renderer : s'.stage.renderer = s.stage.renderer
  renders : s.stage.renders ≤ s'.stage.renders

namespace State

namespace Redraws

theorem refl (s : State) : s.Redraws s :=
  ⟨.refl _, rfl, rfl, rfl, rfl, rfl, rfl, rfl, Nat.le_refl _⟩

theorem trans {s s' s'' : State} (h : s.Redraws s') (h' : s'.Redraws s'') : s.Redraws s'' where
  scene := h.scene.trans h'.scene
  config := h'.config.trans h.config
  sprites := h'.sprites.trans h.sprites
  hero := h'.hero.trans h.hero
  reportedCamera := h'.reportedCamera.trans h.reportedCamera
  binding := h'.binding.trans h.binding
  snapshot := h'.snapshot.trans h.snapshot
  renderer := h'.renderer.trans h.renderer
  renders := Nat.le_trans h.renders h'.renders

theorem heroOrigin {s s' : State} (h : s.Redraws s') : s'.heroOrigin = s.heroOrigin := by
  rw [State.heroOrigin, State.heroOrigin, h.config, h.binding, h.hero]

theorem withScene (s : State) {scene : Scene} (h : s.scene.Evolves scene) :
    s.Redraws { s with scene } :=
  ⟨h, rfl, rfl, rfl, rfl, rfl, rfl, rfl, Nat.le_refl _⟩

theorem withCamera (s : State) (camera : Camera) : s.Redraws { s with camera } :=
  ⟨.refl _, rfl, rfl, rfl, rfl, rfl, rfl, rfl, Nat.le_refl _⟩

end Redraws

theorem redraws_placeText (s : State) (id text : String) (x y : Int32) :
    s.Redraws (s.placeText id text x y) := by
  refine .withScene s ?_
  split
  · exact .setPosition _ _ _ _
  · exact .upsert _ _ _

theorem redraws_blink (s : State) (id : String) (t : UInt32) (blinkCount : UInt8) :
    s.Redraws (s.blink id t blinkCount).2 := by
  have hvisible := Scene.Evolves.setVisible s.scene id ((t / blinkInterval) % 2 == 0)
  refine .withScene s (hvisible.trans ?_)
  split
  · exact .remove _ _
  · exact .refl _

/-- An element that has been on show long enough is taken away. -/
theorem redraws_dismiss (s : State) (id : String) (gone : Bool) :
    s.Redraws (if gone then { s with scene := s.scene.remove id } else s) := by
  split
  · exact .withScene s (.remove _ _)
  · exact .refl s

theorem redraws_paintChat (s : State) (t : UInt32) (offsetY : UInt16) (text : DemoText) :
    s.Redraws (s.paintChat t offsetY text).2 := by
  unfold paintChat
  exact .trans (redraws_placeText s _ _ _ _) (redraws_dismiss _ _ _)

theorem redraws_paintHint (s : State) (t : UInt32) (text : DemoText) :
    s.Redraws (s.paintHint t text).2 := by
  unfold paintHint
  exact .trans (redraws_placeText s _ _ _ _) (redraws_dismiss _ _ _)

theorem redraws_setDemoSprite (s : State) (heroSprite backgroundAnim : UInt16) :
    s.Redraws (s.setDemoSprite heroSprite backgroundAnim).2 := by
  unfold setDemoSprite
  dsimp only
  split
  · exact .refl s
  · exact .refl s
  · exact .withScene s (.upsert _ _ _)

theorem redraws_setPosAndShow (s : State) (x y : UInt16) :
    s.Redraws (s.setPosAndShow x y).2 :=
  .withScene s (.trans (.setPosition _ _ _ _) (.setVisible _ _ _))

theorem redraws_hideDemoSprite (s : State) : s.Redraws s.hideDemoSprite.2 :=
  .withScene s (.trans (.setVisible _ _ _) (.remove _ _))

theorem redraws_showDecoSymbol (s : State) (t : UInt32) (frameIndex : UInt16)
    (blinkCount : UInt8) : s.Redraws (s.showDecoSymbol t frameIndex blinkCount).2 := by
  unfold showDecoSymbol
  dsimp only
  split
  · exact redraws_blink s _ _ _
  · split
    · exact .refl s
    · exact .trans (.withScene s (.upsert _ _ _)) (redraws_blink _ _ _ _)

theorem redraws_screenBlink (s : State) (t : UInt32) (blinkCount : UInt8) (color : Rgb) :
    s.Redraws (s.screenBlink t blinkCount color).2 := by
  unfold screenBlink
  dsimp only
  refine .trans ?_ (redraws_blink _ _ _ _)
  split
  · exact .refl s
  · exact .withScene s (.upsert _ _ _)

theorem redraws_renderStage (s : State) : s.Redraws s.renderStage.2 := by
  unfold renderStage Stage.render
  split
  · next stage hrender =>
    obtain ⟨-, rfl⟩ := Prod.mk.inj hrender
    exact ⟨.refl _, rfl, rfl, rfl, rfl, rfl, rfl, rfl, Nat.le_succ _⟩
  · next image stage hrender =>
    obtain ⟨-, rfl⟩ := Prod.mk.inj hrender
    exact ⟨.upsert _ _ _, rfl, rfl, rfl, rfl, rfl, rfl, rfl, Nat.le_succ _⟩

/-- A render that succeeds puts the stage on show. -/
theorem stage_mem_of_renderStage {s s' : State} (h : s.renderStage = (none, s')) :
    ElementId.stage ∈ s'.scene.elements := by
  unfold renderStage at h
  split at h
  · cases h
  · cases h
    exact Std.ExtTreeMap.mem_insert_self

theorem redraws_setBlock (s : State) (x y : UInt16) (player : UInt8)
    (foreground : Option UInt8) : s.Redraws (s.setBlock x y player foreground).2 := by
  unfold setBlock
  cases hstage : s.stage.setBlock x y player foreground with
  | none => exact .refl s
  | some stage =>
    obtain ⟨layers, -, rfl⟩ := Option.map_eq_some_iff.1 hstage
    have hlayers : s.Redraws { s with stage := { s.stage with layers } } :=
      ⟨.refl _, rfl, rfl, rfl, rfl, rfl, rfl, rfl, Nat.le_refl _⟩
    refine .trans hlayers ?_
    have hrender := redraws_renderStage { s with stage := { s.stage with layers } }
    dsimp only
    split
    · next h => rwa [h] at hrender
    · next h => rwa [h] at hrender

theorem redraws_walkHero (s : State) (direction : Direction) :
    s.Redraws (s.walkHero direction) := by
  unfold walkHero
  dsimp only
  split
  · exact .refl s
  · exact .withScene s (.setPosition _ _ _ _)

/-- Going back to the origin is drawn like everything else. -/
theorem redraws_resetWorld (s : State) : s.Redraws s.resetWorld.2 := by
  refine .trans ?_ (redraws_renderStage _)
  refine ⟨?_, rfl, rfl, rfl, rfl, rfl, rfl, rfl, Nat.le_refl _⟩
  dsimp only
  split
  · exact .setPosition _ _ _ _
  · exact .upsert _ _ _

end State

namespace Reel

theorem redraws_stepLeaf (i : Instruction) (path : OpPath) (r : Reel) :
    r.state.Redraws (stepLeaf i path r).2.state := by
  cases i with
  | moveCamera blockX blockY frameCount => exact .withCamera _ _
  | paintChat lineCount offsetY text => exact r.state.redraws_paintChat _ _ _
  | delay frameCount => exact .refl _
  | playerMove direction => exact r.state.redraws_walkHero _
  | setDemoSprite heroSprite backgroundAnim => exact r.state.redraws_setDemoSprite _ _
  | setPosAndShow x y => exact r.state.redraws_setPosAndShow _ _
  | hideDemoSprite => exact r.state.redraws_hideDemoSprite
  | showDecoSymbol frameIndex blinkCount => exact r.state.redraws_showDecoSymbol _ _ _
  | hideDecoSymbol unused needHide => exact .withScene _ (.remove _ _)
  | screenBlink blinkCount color => exact r.state.redraws_screenBlink _ _ _
  | setBlockShort blockX blockY blockId specialData => exact r.state.redraws_setBlock _ _ _ _
  | setBlockLong blockX blockY blockId => exact r.state.redraws_setBlock _ _ _ _
  | paintHint text => exact r.state.redraws_paintHint _ _
  | unknown opcode => exact .refl _

theorem state_latchIfDone (r : Reel) (path : OpPath) (outcome : Outcome) :
    (r.latchIfDone path outcome).state = r.state := by
  unfold latchIfDone
  split <;> rfl

section

variable {child : Operation} {rest children : List Operation} {path : OpPath} {index : Nat}
  {childCount : UInt8} {outcome : Outcome} {r : Reel}

theorem outcome_step_block : (step (.block childCount children) path r).1 =
    (stepChildren children path 0 .done r).1 := by
  rw [step]
  dsimp only
  split <;> rfl

theorem state_step_block : (step (.block childCount children) path r).2.state =
    (stepChildren children path 0 .done r).2.state := by
  rw [step]
  dsimp only
  split <;> rfl

/-- A child that is done is passed over. -/
theorem stepChildren_of_latched (h : r.progress.isLatched (path.child index) = true) :
    stepChildren (child :: rest) path index outcome r =
      stepChildren rest path (index + 1) outcome r := by
  rw [stepChildren, if_pos h]

/-- A child that halts ends the round. -/
theorem stepChildren_of_halt {error : Error}
    (h : r.progress.isLatched (path.child index) = false)
    (hhalt : (step child (path.child index) r).1.halt = some error) :
    stepChildren (child :: rest) path index outcome r = step child (path.child index) r := by
  rw [stepChildren, if_neg (by simp [h])]
  dsimp only
  rw [if_pos (by simp [hhalt])]

theorem stepChildren_of_step (h : r.progress.isLatched (path.child index) = false)
    (hhalt : (step child (path.child index) r).1.halt = none) :
    stepChildren (child :: rest) path index outcome r =
      stepChildren rest path (index + 1) (outcome.both (step child (path.child index) r).1)
        ((step child (path.child index) r).2.latchIfDone (path.child index)
          (step child (path.child index) r).1) := by
  rw [stepChildren, if_neg (by simp [h])]
  dsimp only
  rw [if_neg (by simp [hhalt])]

end

mutual

theorem redraws_step : ∀ (op : Operation) (path : OpPath) (r : Reel),
    r.state.Redraws (step op path r).2.state
  | .leaf i, path, r => by
    rw [step]
    exact redraws_stepLeaf i path r
  | .block childCount children, path, r => by
    rw [state_step_block]
    exact redraws_stepChildren children path 0 .done r

theorem redraws_stepChildren : ∀ (children : List Operation) (path : OpPath) (index : Nat)
    (outcome : Outcome) (r : Reel),
    r.state.Redraws (stepChildren children path index outcome r).2.state
  | [], _, _, _, r => .refl r.state
  | child :: rest, path, index, outcome, r => by
    have hchild := redraws_step child (path.child index) r
    rw [stepChildren]
    dsimp only
    split
    · exact redraws_stepChildren rest path (index + 1) outcome r
    · split
      · exact hchild
      · have hrest := redraws_stepChildren rest path (index + 1)
          (outcome.both (step child (path.child index) r).1)
          ((step child (path.child index) r).2.latchIfDone (path.child index)
            (step child (path.child index) r).1)
        rw [state_latchIfDone] at hrest
        exact hchild.trans hrest

end

end Reel

end DemoReel.Playback
