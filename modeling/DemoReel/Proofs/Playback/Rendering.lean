import DemoReel.Proofs.Playback.Elements
import DemoReel.Proofs.Playback.Invariants
import DemoReel.Proofs.Playback.Halting
import DemoReel.Proofs.Playback.Mirror

/-!
# The stage on show

Blocks are written by two instructions, and the layers are restored when a demo starts over.  All of
them render the stage at once, so that after every tick the stage on show is an image of the layers
as they are, and its beams are the ones that the tick reports.
-/

namespace DemoReel.Playback

/-- The stage on show is the image of its layers, and so are the beams.  The renderer gives the same
image whenever it is asked. -/
structure State.ShowsStage (image : UInt8 → UInt8 → StageLayers → Option StageImage) (s : State) :
    Prop where
  renderer : ∀ call, s.stage.renderer call = image
  shown : ∃ picture,
    image s.stage.binding.world s.stage.binding.stage s.stage.layers = some picture ∧
      s.scene.get? ElementId.stage = some ⟨.image [picture.raster], 0, 0, Depth.stage, true⟩ ∧
      s.pixelRuns = picture.pixelRuns

variable {image : UInt8 → UInt8 → StageLayers → Option StageImage}

namespace State

/-- Rendering leaves the layers alone, whether it fails or not. -/
theorem layers_renderStage (s : State) : s.renderStage.2.stage.layers = s.stage.layers := by
  unfold renderStage Stage.render
  split
  · next hrender =>
    obtain ⟨-, rfl⟩ := Prod.mk.inj hrender
    rfl
  · next hrender =>
    obtain ⟨-, rfl⟩ := Prod.mk.inj hrender
    rfl

/-- A render that succeeds shows the layers as they are. -/
theorem showsStage_of_renderStage {s s' : State} (hfixed : ∀ call, s.stage.renderer call = image)
    (h : s.renderStage = (none, s')) : s'.ShowsStage image := by
  unfold renderStage Stage.render at h
  split at h
  · cases h
  · next picture stage hrender =>
    obtain ⟨hpicture, rfl⟩ := Prod.mk.inj hrender
    rw [hfixed] at hpicture
    cases h
    refine ⟨hfixed, picture, hpicture, ?_, rfl⟩
    rw [Scene.get?_upsert, if_pos rfl]
    rfl

theorem ShowsStage.setBlock {s : State} (h : s.ShowsStage image) {x y : UInt16} {player : UInt8}
    {foreground : Option UInt8} (hhalt : (s.setBlock x y player foreground).1.halt = none) :
    (s.setBlock x y player foreground).2.ShowsStage image := by
  revert hhalt
  unfold State.setBlock
  cases hstage : s.stage.setBlock x y player foreground with
  | none => exact fun _ ↦ h
  | some stage =>
    obtain ⟨layers, -, rfl⟩ := Option.map_eq_some_iff.1 hstage
    dsimp only
    split
    · exact nofun
    · next shown hrender =>
      intro _
      exact showsStage_of_renderStage (s := { s with stage := { s.stage with layers } })
        h.renderer hrender

theorem ShowsStage.resetWorld {s : State} (h : s.ShowsStage image)
    (hreset : s.resetWorld.1 = none) : s.resetWorld.2.ShowsStage image := by
  have hrender : s.resetWorld = (none, s.resetWorld.2) := Prod.ext hreset rfl
  unfold State.resetWorld at hrender
  refine showsStage_of_renderStage ?_ hrender
  exact h.renderer

end State

/-- An instruction that does not draw the stage leaves its layers and beams alone. -/
theorem Reel.stage_stepLeaf {i : Instruction} (h : ElementId.stage ∉ i.draws) (path : OpPath)
    (r : Reel) :
    (stepLeaf i path r).2.state.stage = r.state.stage ∧
      (stepLeaf i path r).2.state.pixelRuns = r.state.pixelRuns := by
  cases i with
  | paintChat lineCount offsetY text =>
    simp only [stepLeaf, State.paintChat]
    split <;> exact ⟨rfl, rfl⟩
  | paintHint text =>
    simp only [stepLeaf, State.paintHint]
    split <;> exact ⟨rfl, rfl⟩
  | playerMove direction =>
    simp only [stepLeaf, State.walkHero]
    split <;> exact ⟨rfl, rfl⟩
  | setDemoSprite heroSprite backgroundAnim =>
    simp only [stepLeaf, State.setDemoSprite]
    split <;> exact ⟨rfl, rfl⟩
  | showDecoSymbol frameIndex blinkCount =>
    simp only [stepLeaf, State.showDecoSymbol]
    repeat' split
    all_goals exact ⟨rfl, rfl⟩
  | screenBlink blinkCount color =>
    simp only [stepLeaf, State.screenBlink, State.blink]
    split <;> exact ⟨rfl, rfl⟩
  | setBlockShort blockX blockY blockId specialData => exact (h (List.mem_singleton_self _)).elim
  | setBlockLong blockX blockY blockId => exact (h (List.mem_singleton_self _)).elim
  | _ => exact ⟨rfl, rfl⟩

theorem Reel.showsStage_stepLeaf {i : Instruction} {path : OpPath} {r : Reel}
    (h : r.state.ShowsStage image) (hhalt : (stepLeaf i path r).1.halt = none) :
    (stepLeaf i path r).2.state.ShowsStage image := by
  by_cases hdraws : ElementId.stage ∈ i.draws
  · cases i with
    | setBlockShort blockX blockY blockId specialData => exact h.setBlock hhalt
    | setBlockLong blockX blockY blockId => exact h.setBlock hhalt
    | _ => exact absurd hdraws (by dsimp only [Instruction.draws, Instruction.puts]; decide)
  · obtain ⟨hstage, hruns⟩ := stage_stepLeaf hdraws path r
    have hscene := (evolvesIn_stepLeaf i path r).get?_eq
      (fun hputs ↦ hdraws (i.draws_of_puts hputs)) hdraws
    obtain ⟨picture, hpicture, hshown, hbeams⟩ := h.shown
    exact ⟨hstage ▸ h.renderer, picture, hstage ▸ hpicture, hscene.trans hshown,
      hruns.trans hbeams⟩

theorem State.invariant_showsStage : State.Invariant (State.ShowsStage image) where
  leaf _ _ _ h hhalt := Reel.showsStage_stepLeaf h hhalt
  reset _ h hreset := h.resetWorld hreset
  finish _ h := ⟨h.renderer, h.shown⟩

namespace Player

variable {forest : List Operation} {p : Player}

theorem showsStage_start {state : State} (hstart : start forest state = .ok p)
    (hfixed : ∀ call, state.stage.renderer call = image) : p.reel.state.ShowsStage image := by
  unfold start at hstart
  split at hstart
  · cases hstart
  · split at hstart
    · cases hstart
    · next shown hreset =>
      cases hstart
      unfold State.resetWorld at hreset
      refine State.showsStage_of_renderStage ?_ hreset
      exact hfixed

/-- With a renderer that gives the same image whenever it is asked, the stage on show after every
tick that does not halt, and before the first one, is the image of the layers as they are, at the
origin and visible.  The report of such a tick ends with the beams of just this image. -/
theorem stage_on_show_is_current {config : Config} {stage : Stage} {hero : Raster}
    {sprites : SpriteCache} (hstart : start forest (.initial config stage hero sprites) = .ok p)
    (hfixed : ∀ call, stage.renderer call = image) (n : Nat) :
    ((p.run n).2.halted = none → (p.run n).2.reel.state.ShowsStage image) ∧
      let tick := (p.run n).2.tick
      let shown := tick.2.reel.state.stage
      ((∀ error, tick.1.status ≠ .halted error) →
        ∃ picture, image shown.binding.world shown.binding.stage shown.layers = some picture ∧
          tick.1.Layered picture.pixelRuns) := by
  have hstarted := showsStage_start hstart hfixed
  have hshows {m : Nat} (hrun : (p.run m).2.halted = none) :
      (p.run m).2.reel.state.ShowsStage image :=
    State.invariant_showsStage.run hstarted hrun
  refine ⟨hshows, fun hstatus ↦ ?_⟩
  have hrun : (p.run n).2.tick.2.halted = none := by
    cases hhalted : (p.run n).2.tick.2.halted with
    | none => rfl
    | some error => exact (hstatus error (status_eq_halted_iff.2 hhalted)).elim
  have hnext : (p.run (n + 1)).2 = (p.run n).2.tick.2 := by rw [run_succ]
  obtain ⟨picture, hpicture, -, hbeams⟩ := (hshows (hnext ▸ hrun)).shown
  rw [hnext] at hpicture hbeams
  refine ⟨picture, hpicture, hbeams ▸ ?_⟩
  exact layered_tick (inStep_run (inStep_start hstart).2 n).2 (halted_eq_none_of_tick hrun)

/-- A stage whose image is its layer of players. -/
def plainStage : Stage :=
  .ofLayers ⟨1, 0, 0, 0, 0⟩ (.zeroed 4 3) fun _ _ _ layers ↦
    some ⟨⟨4, 3, 0, 0, layers.player.map UInt8.toUInt32⟩, []⟩

/-- Two blocks are written in one frame, the second outside the stage. -/
theorem stage_on_show_is_current_of_setBlock :
    ∃ p, start [.block 2 [.leaf (.setBlockLong 1 1 7), .leaf (.setBlockShort 9 9 7 1)],
        .leaf (.delay 2)] (.initial {} plainStage (.solid 24 30 0) ∅) = .ok p ∧
      (p.run 1).2.halted = none ∧ (p.run 1).2.reel.state.stage.layers.player[5]? = some 7 ∧
      (p.run 1).2.reel.state.ShowsStage fun _ _ layers ↦
        some ⟨⟨4, 3, 0, 0, layers.player.map UInt8.toUInt32⟩, []⟩ := by
  obtain ⟨p, hstart, hrun, hwritten⟩ : ∃ p,
      start [.block 2 [.leaf (.setBlockLong 1 1 7), .leaf (.setBlockShort 9 9 7 1)],
        .leaf (.delay 2)] (.initial {} plainStage (.solid 24 30 0) ∅) = .ok p ∧
      (p.run 1).2.halted = none ∧ (p.run 1).2.reel.state.stage.layers.player[5]? = some 7 :=
    ⟨_, rfl, by decide +kernel, by decide +kernel⟩
  exact ⟨p, hstart, hrun, hwritten, (stage_on_show_is_current hstart (fun _ ↦ rfl) 1).1 hrun⟩

end Player

end DemoReel.Playback
