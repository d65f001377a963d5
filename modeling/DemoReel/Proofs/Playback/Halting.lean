import DemoReel.Playback.Session
import DemoReel.Proofs.Playback.Chain
import DemoReel.Proofs.Program.Leaves

/-!
# Why playback stops

A step halts where a leaf does: at a frame that is not at hand, at a render that fails, or at an
unknown opcode, which no decoded program has.  Starting over halts at a render only.  Both leave a
trace in the state, so the state after a tick that halts shows what was missing.
-/

namespace DemoReel.Playback

/-- What was missing when playback stopped on the way from one state to the other: one of these
frames, or the render of the stage that was asked for last. -/
inductive State.Lacks (frames : List SpriteFrame) (s s' : State) : Error → Prop
  | frame {frame : SpriteFrame} (drawn : frame ∈ frames) (missing : s'.sprites[frame]? = none) :
      Lacks frames s s' (.missingSprite frame)
  | render (asked : s.stage.renders < s'.stage.renders)
      (failed : s'.stage.renderer s'.stage.renders s'.stage.binding.world s'.stage.binding.stage
        s'.stage.layers = none) :
      Lacks frames s s' (.missingStageRender s'.stage.binding.world s'.stage.binding.stage)

namespace State

variable {frames : List SpriteFrame} {s s' : State} {error : Error}

theorem Lacks.mono {frames' : List SpriteFrame} (h : Lacks frames s s' error)
    (hle : ∀ frame ∈ frames, frame ∈ frames') : Lacks frames' s s' error := by
  cases h with
  | frame drawn missing => exact .frame (hle _ drawn) missing
  | render asked failed => exact .render asked failed

/-- What was done before does not matter. -/
theorem Lacks.of_le {s₀ : State} (hle : s₀.stage.renders ≤ s.stage.renders)
    (h : Lacks frames s s' error) : Lacks frames s₀ s' error := by
  cases h with
  | frame drawn missing => exact .frame drawn missing
  | render asked failed => exact .render (Nat.lt_of_le_of_lt hle asked) failed

theorem lacks_renderStage (h : s.renderStage = (some error, s')) : Lacks frames s s' error := by
  unfold renderStage Stage.render at h
  split at h
  · next stage hrender =>
    obtain ⟨hfailed, rfl⟩ := Prod.mk.inj hrender
    cases h
    exact .render (Nat.lt_succ_self _) hfailed
  · cases h

theorem lacks_resetWorld (h : s.resetWorld.1 = some error) :
    Lacks frames s s.resetWorld.2 error := by
  unfold resetWorld at h ⊢
  have hrender : Lacks frames _ _ error := lacks_renderStage (Prod.ext h rfl)
  refine hrender.of_le ?_
  exact Nat.le_refl _

theorem lacks_setDemoSprite {heroSprite backgroundAnim : UInt16}
    (h : (s.setDemoSprite heroSprite backgroundAnim).1.halt = some error) :
    Lacks (framesOf (.setDemoSprite heroSprite backgroundAnim)) s
      (s.setDemoSprite heroSprite backgroundAnim).2 error := by
  revert h
  unfold setDemoSprite
  dsimp only
  split
  · next hbackground =>
    rintro ⟨⟩
    exact .frame (by simp [framesOf]) hbackground
  · next hportrait =>
    rintro ⟨⟩
    exact .frame (by simp [framesOf]) hportrait
  · exact nofun

theorem lacks_showDecoSymbol {t : UInt32} {frameIndex : UInt16} {blinkCount : UInt8}
    (h : (s.showDecoSymbol t frameIndex blinkCount).1.halt = some error) :
    Lacks (framesOf (.showDecoSymbol frameIndex blinkCount)) s
      (s.showDecoSymbol t frameIndex blinkCount).2 error := by
  revert h
  unfold showDecoSymbol
  dsimp only
  split
  · exact nofun
  · split
    · next hframe =>
      rintro ⟨⟩
      exact .frame (by simp [framesOf]) hframe
    · exact nofun

theorem lacks_setBlock {x y : UInt16} {player : UInt8} {foreground : Option UInt8}
    (h : (s.setBlock x y player foreground).1.halt = some error) :
    Lacks frames s (s.setBlock x y player foreground).2 error := by
  revert h
  unfold setBlock
  cases hstage : s.stage.setBlock x y player foreground with
  | none => exact nofun
  | some stage =>
    obtain ⟨layers, -, rfl⟩ := Option.map_eq_some_iff.1 hstage
    dsimp only
    split
    · next fault s' hrender =>
      intro h
      obtain rfl := Option.some.inj h
      refine (lacks_renderStage hrender).of_le ?_
      exact Nat.le_refl _
    · exact nofun

end State

namespace Reel

theorem lacks_stepLeaf {i : Instruction} {path : OpPath} {r : Reel} {error : Error}
    (hknown : ∃ opcode, i.opcode? = some opcode) (h : (stepLeaf i path r).1.halt = some error) :
    r.state.Lacks (framesOf i) (stepLeaf i path r).2.state error := by
  cases i with
  | setDemoSprite heroSprite backgroundAnim => exact State.lacks_setDemoSprite h
  | showDecoSymbol frameIndex blinkCount => exact State.lacks_showDecoSymbol h
  | setBlockShort blockX blockY blockId specialData => exact State.lacks_setBlock h
  | setBlockLong blockX blockY blockId => exact State.lacks_setBlock h
  | unknown opcode =>
    obtain ⟨_, hopcode⟩ := hknown
    cases hopcode
  | _ => cases h

/-- One of these leaves halts, after whatever was drawn before it, and the state stays as it leaves
it. -/
def HaltsAtLeaf (leaves : List Instruction) (s s' : State) (error : Error) : Prop :=
  ∃ i ∈ leaves, ∃ path r, s.Redraws r.state ∧ (stepLeaf i path r).1.halt = some error ∧
    (stepLeaf i path r).2.state = s'

theorem HaltsAtLeaf.of_redraws {leaves more : List Instruction} {s₀ s s' : State} {error : Error}
    (h : HaltsAtLeaf leaves s s' error) (hs : s₀.Redraws s) (hle : leaves ⊆ more) :
    HaltsAtLeaf more s₀ s' error := by
  obtain ⟨i, hi, path, r, hdrawn, hhalt, hstate⟩ := h
  exact ⟨i, hle hi, path, r, hs.trans hdrawn, hhalt, hstate⟩

mutual

theorem haltsAtLeaf_step {error : Error} : ∀ {op : Operation} {path : OpPath} {r : Reel},
    (step op path r).1.halt = some error →
      HaltsAtLeaf op.leaves r.state (step op path r).2.state error
  | .leaf i, path, r, h => by
    rw [step] at h ⊢
    exact ⟨i, List.mem_singleton_self i, path, r, .refl r.state, h, rfl⟩
  | .block childCount children, path, r, h => by
    rw [outcome_step_block] at h
    rw [state_step_block]
    exact haltsAtLeaf_stepChildren rfl h

theorem haltsAtLeaf_stepChildren {error : Error} : ∀ {children : List Operation} {path : OpPath}
    {index : Nat} {outcome : Outcome} {r : Reel}, outcome.halt = none →
      (stepChildren children path index outcome r).1.halt = some error →
        HaltsAtLeaf (Operation.leavesAll children) r.state
          (stepChildren children path index outcome r).2.state error
  | [], _, _, _, _, hnone, h => by
    rw [stepChildren, hnone] at h
    cases h
  | child :: rest, path, index, outcome, r, hnone, h => by
    rw [Operation.leavesAll]
    cases hlatched : r.progress.isLatched (path.child index) with
    | true =>
      rw [stepChildren_of_latched hlatched] at h ⊢
      exact (haltsAtLeaf_stepChildren hnone h).of_redraws (.refl _) (List.subset_append_right _ _)
    | false =>
      cases hhalt : (step child (path.child index) r).1.halt with
      | some fault =>
        rw [stepChildren_of_halt hlatched hhalt] at h ⊢
        exact (haltsAtLeaf_step h).of_redraws (.refl _) (List.subset_append_left _ _)
      | none =>
        rw [stepChildren_of_step hlatched hhalt] at h ⊢
        refine (haltsAtLeaf_stepChildren rfl h).of_redraws ?_ (List.subset_append_right _ _)
        rw [state_latchIfDone]
        exact redraws_step child (path.child index) r

end

end Reel

/-! ## The frames of a forest -/

mutual

theorem mem_framesOfOperation {frame : SpriteFrame} : ∀ op : Operation,
    frame ∈ framesOfOperation op ↔ ∃ i ∈ op.leaves, frame ∈ framesOf i
  | .leaf i => by
    rw [framesOfOperation, Operation.leaves]
    simp
  | .block _ children => by
    rw [framesOfOperation, Operation.leaves]
    exact mem_framesOfForest children

theorem mem_framesOfForest {frame : SpriteFrame} : ∀ forest : List Operation,
    frame ∈ framesOfForest forest ↔ ∃ i ∈ Operation.leavesAll forest, frame ∈ framesOf i
  | [] => by
    rw [framesOfForest, Operation.leavesAll]
    simp
  | op :: ops => by
    rw [framesOfForest, List.mem_append, mem_framesOfOperation op, mem_framesOfForest ops,
      Operation.leavesAll]
    simp only [List.mem_append, or_and_right, exists_or]

end

theorem mem_requiredFrames {frame : SpriteFrame} {forest : List Operation} :
    frame ∈ requiredFrames forest ↔ frame ∈ framesOfForest forest := by
  rw [requiredFrames, Std.ExtTreeSet.mem_ofList, List.contains_iff_mem]

/-! ## Ticks that halt -/

namespace Player

variable {p : Player} {error : Error}

theorem lacks_link (hknown : Operation.AllKnown p.forest.toList) (hrun : p.halted = none)
    (h : p.link.player.halted = some error) :
    p.reel.state.Lacks (framesOfForest p.forest.toList) p.link.player.reel.state error := by
  cases p.linkCase with
  | idle active same | wait active running advance same | next active running advance lt same =>
    rw [same] at h
    cases hrun.symm.trans h
  | halt active halt same =>
    rw [same] at h ⊢
    obtain rfl := Option.some.inj h
    obtain ⟨i, hi, path, r, hdrawn, hleaf, hstate⟩ := Reel.haltsAtLeaf_step halt
    have hmem : i ∈ Operation.leavesAll p.forest.toList :=
      Operation.leaves_subset_leavesAll (Array.mem_toList_iff.2 (Array.mem_of_getElem? active)) hi
    have hlacks := (Reel.lacks_stepLeaf (hknown i hmem) hleaf).of_le hdrawn.renders
    rw [hstate] at hlacks
    exact hlacks.mono fun frame hframe ↦ (mem_framesOfForest _).2 ⟨i, hmem, hframe⟩
  | restart active running advance last same =>
    rw [same] at h ⊢
    exact (State.lacks_resetWorld h).of_le (Reel.redraws_step _ _ _).renders

theorem lacks_stepChain {budget : Nat} {looped : Bool}
    (hknown : Operation.AllKnown p.forest.toList) (hrun : p.halted = none)
    (h : (stepChain budget p looped).1.halted = some error) :
    p.reel.state.Lacks (framesOfForest p.forest.toList)
      (stepChain budget p looped).1.reel.state error := by
  induction budget generalizing p looped with
  | zero => cases hrun.symm.trans h
  | succ budget ih =>
    rw [stepChain_succ] at h ⊢
    cases hgoesOn : p.link.goesOn with
    | false =>
      rw [hgoesOn] at h
      exact lacks_link hknown hrun h
    | true =>
      rw [hgoesOn] at h
      have hforest := p.forest_link
      have hlacks := ih (hforest ▸ hknown) (running_of_goesOn hgoesOn) h
      rw [hforest] at hlacks
      exact hlacks.of_le p.redraws_link.renders

/-- Between two ticks nothing is asked for, and handing over commands takes nothing away. -/
theorem lacks_tick (hknown : Operation.AllKnown p.forest.toList) (hrun : p.halted = none)
    (h : p.tick.2.halted = some error) :
    p.reel.state.Lacks (framesOfForest p.forest.toList) p.tick.2.reel.state error := by
  rw [tick_of_running hrun] at h ⊢
  have hchain : p.reel.state.Lacks (framesOfForest p.forest.toList) p.chain.1.reel.state error :=
    lacks_stepChain (p := { p with ticks := p.ticks + 1 }) hknown hrun h
  cases hchain with
  | frame drawn missing => exact .frame drawn missing
  | render asked failed => exact .render asked failed

/-- Forest, sprites, renderer and place in the world are the same. -/
structure SameAssets (p p' : Player) : Prop where
  forest : p'.forest = p.forest
  sprites : p'.reel.state.sprites = p.reel.state.sprites
  binding : p'.reel.state.stage.binding = p.reel.state.stage.binding
  renderer : p'.reel.state.stage.renderer = p.reel.state.stage.renderer

theorem SameAssets.trans {p p' p'' : Player} (h : p.SameAssets p') (h' : p'.SameAssets p'') :
    p.SameAssets p'' where
  forest := h'.forest.trans h.forest
  sprites := h'.sprites.trans h.sprites
  binding := h'.binding.trans h.binding
  renderer := h'.renderer.trans h.renderer

theorem sameAssets_tick (p : Player) : p.SameAssets p.tick.2 := by
  cases hrun : p.halted with
  | some error =>
    rw [tick_of_halted hrun]
    exact ⟨rfl, rfl, rfl, rfl⟩
  | none =>
    rw [tick_of_running hrun]
    have hdrawn := p.redraws_chain
    exact ⟨p.forest_chain, hdrawn.sprites, hdrawn.binding, hdrawn.renderer⟩

/-- A tick reports a halt exactly if it ends in one. -/
theorem status_eq_halted_iff :
    p.tick.1.status = .halted error ↔ p.tick.2.halted = some error := by
  cases hrun : p.halted with
  | some fault =>
    rw [tick_of_halted hrun]
    simp [hrun]
  | none =>
    rw [tick_of_running hrun]
    dsimp only [status, handOver]
    cases p.chain.1.halted with
    | some fault => simp
    | none =>
      dsimp only
      split <;> simp

end Player

end DemoReel.Playback
