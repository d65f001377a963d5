import DemoReel.Proofs.Playback.Overlays
import DemoReel.Proofs.Playback.Portrait
import DemoReel.Proofs.Playback.Rendering

/-!
# Pass after pass

Handing over commands does not change what is played, so that a run follows the links of the player
it began with, one after another.  Each pass takes the same number of links, and where one ends the
next begins at the origin, with the stage restored and nothing on show but stage, hero and portrait.
-/

namespace DemoReel.Playback

variable {image : UInt8 → UInt8 → StageLayers → Option StageImage}

namespace State

variable {sim sim' sim'' : Scene → Scene → Prop} {s s' s'' : State}

theorem Alike.refl (hscene : sim s.scene s.scene)
    (hfixed : ∀ call call', s.stage.renderer call = s.stage.renderer call') : s.Alike sim s :=
  .intro s.scene s.stage.renders s.reportedCamera hscene hfixed

theorem Alike.imp (h : s.Alike sim s') (hscene : sim' s.scene s'.scene) : s.Alike sim' s' := by
  cases h with
  | intro scene renders reported _ fixed => exact .intro scene renders reported hscene fixed

theorem Alike.symm (h : s.Alike sim s') (hscene : sim' s'.scene s.scene) : s'.Alike sim' s := by
  cases h with
  | intro _ _ _ _ fixed =>
    exact .intro s.scene s.stage.renders s.reportedCamera hscene fixed

theorem Alike.trans (h : s.Alike sim s') (h' : s'.Alike sim' s'')
    (hscene : sim'' s.scene s''.scene) : s.Alike sim'' s'' := by
  cases h with
  | intro _ _ _ _ fixed =>
    cases h' with
    | intro scene renders reported _ _ => exact .intro scene renders reported hscene fixed

theorem Alike.of_redraws (h : s.Redraws s') (hcamera : s'.camera = s.camera)
    (hlayers : s'.stage.layers = s.stage.layers) (hruns : s'.pixelRuns = s.pixelRuns)
    (hfixed : ∀ call call', s.stage.renderer call = s.stage.renderer call')
    (hscene : sim s.scene s'.scene) : s.Alike sim s' := by
  obtain ⟨config, camera, scene, ⟨binding, layers, snapshot, renderer, renders⟩, sprites, hero,
    runs, reported⟩ := s
  obtain ⟨config', camera', scene', ⟨binding', layers', snapshot', renderer', renders'⟩, sprites',
    hero', runs', reported'⟩ := s'
  obtain ⟨-, rfl, rfl, rfl, -, rfl, rfl, rfl, -⟩ := h
  obtain rfl : camera' = camera := hcamera
  obtain rfl : layers' = layers := hlayers
  obtain rfl : runs' = runs := hruns
  exact .intro scene' renders' reported' hscene hfixed

/-! ## What is always on show -/

/-- The stage is shown as it is, the hero is somewhere, and nothing but the elements of playback is
on show. -/
structure InOrder (image : UInt8 → UInt8 → StageLayers → Option StageImage) (s : State) : Prop where
  stage : s.ShowsStage image
  hero : ∃ x y, s.scene.get? ElementId.hero = some (.image [s.hero] x y Depth.hero)
  others : ∀ id, id ∉ ElementId.all → s.scene.get? id = none

/-- The hero who stands anywhere, or is not there yet, is put at the origin. -/
theorem hero_resetWorld (hhero : s.scene.get? ElementId.hero = none ∨
    ∃ x y, s.scene.get? ElementId.hero = some (.image [s.hero] x y Depth.hero)) :
    s.resetWorld.2.scene.get? ElementId.hero =
      some (.image [s.hero] s.heroOrigin.x s.heroOrigin.y Depth.hero) := by
  rw [get?_hero_resetWorld]
  obtain hnone | ⟨x, y, hsome⟩ := hhero
  · rw [hnone]
    rfl
  · rw [hsome]
    rfl

theorem camera_resetWorld (s : State) : s.resetWorld.2.camera = s.originCamera := by
  unfold resetWorld renderStage
  dsimp only
  split <;> rfl

theorem layers_resetWorld (s : State) : s.resetWorld.2.stage.layers = s.stage.snapshot :=
  layers_renderStage _

/-- Walking moves the hero and leaves the rest of him alone. -/
theorem hero_walkHero (direction : Direction)
    (h : ∃ x y, s.scene.get? ElementId.hero = some (.image [s.hero] x y Depth.hero)) :
    ∃ x y, (s.walkHero direction).scene.get? ElementId.hero =
      some (.image [s.hero] x y Depth.hero) := by
  obtain ⟨x, y, hhero⟩ := h
  unfold walkHero
  rw [hhero]
  dsimp only
  rw [Scene.get?_setPosition, if_pos rfl, hhero]
  exact ⟨_, _, rfl⟩

theorem InOrder.stepLeaf {i : Instruction} {path : OpPath} {r : Reel} (h : r.state.InOrder image)
    (hhalt : (Reel.stepLeaf i path r).1.halt = none) :
    (Reel.stepLeaf i path r).2.state.InOrder image := by
  have hevolves := Reel.evolvesIn_stepLeaf i path r
  refine ⟨Reel.showsStage_stepLeaf h.stage hhalt, ?_, fun id hid ↦ ?_⟩
  · rw [(Reel.redraws_stepLeaf i path r).hero]
    by_cases hdraws : ElementId.hero ∈ i.draws
    · cases i with
      | playerMove direction => exact hero_walkHero direction h.hero
      | _ => exact absurd hdraws (by dsimp only [Instruction.draws, Instruction.puts]; decide)
    · rw [hevolves.get?_eq (fun hputs ↦ hdraws (i.draws_of_puts hputs)) hdraws]
      exact h.hero
  · exact hevolves.get?_eq_none (fun hputs ↦ hid (i.puts_subset_all hputs)) (h.others id hid)

theorem invariant_inOrder : State.Invariant (InOrder image) where
  leaf _ _ _ h hhalt := h.stepLeaf hhalt
  reset s h hreset := by
    refine ⟨h.stage.resetWorld hreset, ?_, fun id hid ↦ ?_⟩
    · rw [s.redraws_resetWorld.hero]
      exact ⟨_, _, hero_resetWorld (.inr h.hero)⟩
    · have hmem : ∀ id ∈ [ElementId.stage, ElementId.hero], id ∈ ElementId.all := by decide
      exact s.evolvesIn_resetWorld.get?_eq_none (fun hputs ↦ hid (hmem id hputs)) (h.others id hid)
  finish _ h := ⟨⟨h.stage.renderer, h.stage.shown⟩, h.hero, h.others⟩

theorem ShowsStage.fixed (h : s.ShowsStage image) (call call' : Nat) :
    s.stage.renderer call = s.stage.renderer call' :=
  (h.renderer call).trans (h.renderer call').symm

/-- Handing over commands leaves what is on show alone. -/
theorem InOrder.alike_finishTick (h : s.InOrder image) :
    s.Alike Scene.SameElements s.finishTick.2 :=
  .intro _ s.stage.renders _ (fun _ ↦ rfl) h.stage.fixed

/-! ## At the origin -/

/-- Camera, hero and layers are as a demo starts with them, and only the portrait may be on show
with hero and stage. -/
structure AtOrigin (image : UInt8 → UInt8 → StageLayers → Option StageImage) (s : State) :
    Prop where
  camera : s.camera = s.originCamera
  layers : s.stage.layers = s.stage.snapshot
  stage : s.ShowsStage image
  hero : s.scene.get? ElementId.hero =
    some (.image [s.hero] s.heroOrigin.x s.heroOrigin.y Depth.hero)
  others : ∀ id, id ≠ ElementId.stage → id ≠ ElementId.hero → id ≠ ElementId.demoSprite →
    s.scene.get? id = none

/-- Resetting the world leads back to the origin. -/
theorem atOrigin_resetWorld (hstage : s.resetWorld.2.ShowsStage image)
    (hhero : s.scene.get? ElementId.hero = none ∨
      ∃ x y, s.scene.get? ElementId.hero = some (.image [s.hero] x y Depth.hero))
    (hothers : ∀ id, id ≠ ElementId.stage → id ≠ ElementId.hero → id ≠ ElementId.demoSprite →
      s.resetWorld.2.scene.get? id = none) : s.resetWorld.2.AtOrigin image := by
  have hdraws := s.redraws_resetWorld
  refine ⟨?_, ?_, hstage, ?_, hothers⟩
  · rw [camera_resetWorld, originCamera, originCamera, hdraws.binding]
  · rw [layers_resetWorld, hdraws.snapshot]
  · rw [hero_resetWorld hhero, hdraws.heroOrigin, hdraws.hero]

theorem AtOrigin.congr (h : s.AtOrigin image) (hsame : s'.Alike Scene.SameElements s) :
    s'.AtOrigin image := by
  cases hsame with
  | intro scene renders reported related fixed =>
    obtain ⟨picture, hpicture, hshown, hruns⟩ := h.stage.shown
    refine ⟨h.camera, h.layers, ⟨h.stage.renderer, picture, hpicture, ?_, hruns⟩, ?_,
      fun id hstage hhero hportrait ↦ ?_⟩
    · exact (related _).symm.trans hshown
    · exact (related _).symm.trans h.hero
    · exact (related _).symm.trans (h.others id hstage hhero hportrait)

/-- At the origin two states of one demo differ in the portrait alone. -/
theorem AtOrigin.alike {kept : Option Element → Option Element → Prop} (h : s.AtOrigin image)
    (h' : s'.AtOrigin image) (hassets : s.Redraws s')
    (hkept : kept (s.scene.get? ElementId.demoSprite) (s'.scene.get? ElementId.demoSprite)) :
    s.Alike (Scene.Besides kept) s' := by
  have hlayers : s'.stage.layers = s.stage.layers := by rw [h'.layers, h.layers, hassets.snapshot]
  have hcamera : s'.camera = s.camera := by
    rw [h'.camera, h.camera, originCamera, hassets.binding, originCamera]
  obtain ⟨picture, hpicture, hshown, hruns⟩ := h.stage.shown
  obtain ⟨picture', hpicture', hshown', hruns'⟩ := h'.stage.shown
  obtain rfl : picture' = picture := by
    rw [hassets.binding, hlayers, hpicture] at hpicture'
    exact (Option.some.inj hpicture').symm
  have hhero : s'.scene.get? ElementId.hero = s.scene.get? ElementId.hero := by
    rw [h'.hero, h.hero, hassets.heroOrigin, hassets.hero]
  refine .of_redraws hassets hcamera hlayers (hruns'.trans hruns.symm)
    h.stage.fixed ?_
  refine ⟨fun id hportrait _ ↦ ?_, ?_, hkept⟩
  · by_cases hid : id = ElementId.stage
    · rw [hid, hshown, hshown']
    · by_cases hid' : id = ElementId.hero
      · rw [hid', hhero]
      · rw [h.others id hid hid' hportrait, h'.others id hid hid' hportrait]
  · rw [h.others _ (by decide) (by decide) (by decide),
      h'.others _ (by decide) (by decide) (by decide)]

end State

/-! ## Links in a row -/

namespace Player

variable {sim sim' sim'' : Scene → Scene → Prop} {p p' p'' first : Player} {width : Nat}
  {op : Operation}

theorem Alike.imp (h : p.Alike sim p') (hscene : sim' p.reel.state.scene p'.reel.state.scene) :
    p.Alike sim' p' :=
  ⟨h.forest, h.halted, h.reel.progress, h.reel.state.imp hscene⟩

theorem Alike.symm (h : p.Alike sim p') (hscene : sim' p'.reel.state.scene p.reel.state.scene) :
    p'.Alike sim' p :=
  ⟨h.forest.symm, h.halted.symm, h.reel.progress.symm, h.reel.state.symm hscene⟩

theorem Alike.trans (h : p.Alike sim p') (h' : p'.Alike sim' p'')
    (hscene : sim'' p.reel.state.scene p''.reel.state.scene) : p.Alike sim'' p'' :=
  ⟨h'.forest.trans h.forest, h'.halted.trans h.halted,
    h'.reel.progress.trans h.reel.progress, h.reel.state.trans h'.reel.state hscene⟩

/-- The player after so many links, with nothing handed over in between. -/
def links : (count : Nat) → Player → Player
  | 0, p => p
  | count + 1, p => (links count p).link.player

theorem links_add (count more : Nat) (p : Player) :
    links (count + more) p = links more (links count p) := by
  induction more with
  | zero => rfl
  | succ more ih => rw [← Nat.add_assoc, links, ih, links]

theorem Alike.links (hsim : Scene.Similarity sim) (h : p.Alike sim p') (count : Nat) :
    (Player.links count p).Alike sim (Player.links count p') := by
  induction count with
  | zero => exact h
  | succ count ih => exact (ih.link hsim).player

/-- What every link keeps is kept by a row of them. -/
theorem links_preserves {motive : Player → Prop} (hlink : ∀ q, motive q → motive q.link.player)
    (h : motive p) (count : Nat) : motive (links count p) := by
  induction count with
  | zero => exact h
  | succ count ih => exact hlink _ ih

theorem redraws_links (count : Nat) (p : Player) :
    p.reel.state.Redraws (links count p).reel.state :=
  links_preserves (motive := fun q ↦ p.reel.state.Redraws q.reel.state)
    (fun q hq ↦ hq.trans q.redraws_link) (.refl _) count

theorem forest_links (count : Nat) (p : Player) : (links count p).forest = p.forest :=
  links_preserves (motive := fun q ↦ q.forest = p.forest)
    (fun q hq ↦ q.forest_link.trans hq) rfl count

/-- How many links the top-level operations take. -/
def linkCounts (width : Nat) (p : Player) : List Nat :=
  p.forest.toList.map fun op ↦ op.lastTick width + 1

/-- The links of this pass so far. -/
def linksDone (width : Nat) (p : Player) : Nat :=
  framesBefore (p.linkCounts width) p.index + p.reel.progress.tick.toNat

theorem linksDone_link (hwidth : width ≤ 2 ^ 30) (h : p.Underway width op)
    (hrun : p.link.player.halted = none) :
    p.link.restarted.toNat * (p.linkCounts width).sum + p.link.player.linksDone width =
      p.linksDone width + 1 := by
  have hcounts : p.link.player.linkCounts width = p.linkCounts width := by
    rw [linkCounts, p.forest_link, linkCounts]
  have hlength : (p.linkCounts width).length = p.forest.size := by simp [linkCounts]
  have hnext : framesBefore (p.linkCounts width) (p.index + 1) =
      framesBefore (p.linkCounts width) p.index + (op.lastTick width + 1) := by
    have hactive := h.active
    rw [← Array.getElem?_toList] at hactive
    rw [framesBefore_succ]
    simp [linkCounts, List.getD_eq_getElem?_getD, hactive]
  rw [linksDone, linksDone, hcounts]
  obtain hlt | hlast := Nat.lt_or_eq_of_le h.tick_le
  · obtain ⟨-, hrestarted, -, hindex, htick, -⟩ := link_of_lt hwidth h hlt hrun
    rw [hrestarted, hindex, htick, Bool.toNat_false]
    omega
  · obtain ⟨-, hrestarted, -, hindex, htick, -⟩ := link_of_last hwidth h hlast hrun
    have hzero : (0 : UInt32).toNat = 0 := rfl
    have hinside := h.index_lt
    rw [hrestarted, hindex, htick, hzero]
    split
    · rw [decide_eq_false (by omega), Bool.toNat_false]
      omega
    · have hsize : p.index + 1 = p.forest.size := by omega
      have htotal : framesBefore (p.linkCounts width) (p.index + 1) = (p.linkCounts width).sum := by
        rw [hsize, ← hlength, framesBefore_length]
      have hbegin : framesBefore (p.linkCounts width) 0 = 0 := rfl
      rw [decide_eq_true hsize, Bool.toNat_true, hbegin]
      omega

/-! ## Where passes begin -/

/-- A pass begins here. -/
structure AtStart (image : UInt8 → UInt8 → StageLayers → Option StageImage) (p : Player) :
    Prop where
  running : p.halted = none
  progress : p.reel.progress = .start
  state : p.reel.state.AtOrigin image

/-- Two passes of one demo begin alike but for the portrait. -/
theorem AtStart.alike {kept : Option Element → Option Element → Prop} {count : Nat}
    (h : p.AtStart image) (h' : (links count p).AtStart image)
    (hkept : kept (p.reel.state.scene.get? ElementId.demoSprite)
      ((links count p).reel.state.scene.get? ElementId.demoSprite)) :
    p.Alike (Scene.Besides kept) (links count p) :=
  ⟨forest_links count p, h'.running.trans h.running.symm, h'.progress.trans h.progress.symm,
    h.state.alike h'.state (redraws_links count p) hkept⟩

/-- Starting over goes back to the first operation and resets the world. -/
theorem link_of_restarted (h : p.link.restarted = true) :
    ∃ op, p.forest[p.index]? = some op ∧ (Reel.step op (.top p.index) p.reel).1.halt = none ∧
      (Reel.step op (.top p.index) p.reel).2.state.resetWorld.1 = none ∧
      p.link.player.halted = none ∧
      p.link.player.reel =
        ⟨.start, (Reel.step op (.top p.index) p.reel).2.state.resetWorld.2⟩ := by
  cases p.linkCase with
  | idle active same | halt active halt same | wait active running advance same
  | next active running advance lt same =>
    rw [same] at h
    cases h
  | restart active running advance last same =>
    rw [same] at h ⊢
    have hreset := Option.isNone_iff_eq_none.1 h
    exact ⟨_, active, running, hreset, hreset, rfl⟩

/-- A demo that starts over is at the start of a pass. -/
theorem atStart_link (hwidth : width ≤ 2 ^ 30) (h : p.Underway width op)
    (hdue : p.OverlaysDue width op) (hstate : p.reel.state.InOrder image)
    (hrestarted : p.link.restarted = true) : p.link.player.AtStart image := by
  obtain ⟨op', hop, hhalt, hreset, hrun, hreel⟩ := link_of_restarted hrestarted
  have hstep := State.invariant_inOrder.step hstate hhalt
  have hafter := State.invariant_inOrder.link hstate hrun
  obtain ⟨op'', -, hdue'⟩ := h.overlaysDue_link hwidth hdue hrun
  rw [OverlaysDue, hreel] at hdue'
  rw [hreel] at hafter
  refine ⟨hrun, by rw [hreel], ?_⟩
  rw [hreel]
  refine State.atOrigin_resetWorld hafter.stage (.inr hstep.hero)
    fun id hstage hhero hportrait ↦ ?_
  by_cases hoverlay : id ∈ ElementId.overlays
  · refine Classical.byContradiction fun hshown ↦ ?_
    exact Nat.lt_irrefl 0 (hdue' id hoverlay hshown).1
  · exact hafter.others id (by simp [ElementId.all, hstage, hhero, hportrait, hoverlay])

/-! ## A run follows the links -/

/-- The player is where the links from the first one on lead, and at the start of each pass so far
these links are at the start of a pass. -/
structure OnTrack (image : UInt8 → UInt8 → StageLayers → Option StageImage) (width : Nat)
    (first : Player) (restarts : Nat) (p : Player) : Prop where
  due : ∃ op, p.Underway width op ∧ p.OverlaysDue width op
  state : p.reel.state.InOrder image
  passes : ∀ k ≤ restarts, (links (k * (first.linkCounts width).sum) first).AtStart image
  alike : (links (restarts * (first.linkCounts width).sum + p.linksDone width) first).Alike
    Scene.SameElements p

theorem OnTrack.link (hwidth : width ≤ 2 ^ 30) {restarts : Nat}
    (h : OnTrack image width first restarts p) (hrun : p.link.player.halted = none) :
    OnTrack image width first (restarts + p.link.restarted.toNat) p.link.player := by
  obtain ⟨op, hunderway, hdue⟩ := h.due
  have hdone := linksDone_link hwidth hunderway hrun
  have hcounts : first.linkCounts width = p.linkCounts width := by
    rw [linkCounts, linkCounts, h.alike.forest, forest_links]
  have halike : (links ((restarts + p.link.restarted.toNat) * (first.linkCounts width).sum +
      p.link.player.linksDone width) first).Alike Scene.SameElements p.link.player := by
    rw [Nat.add_mul, Nat.add_assoc, hcounts, hdone, ← Nat.add_assoc, ← hcounts]
    exact (h.alike.link Scene.similarity_sameElements).player
  refine ⟨hunderway.overlaysDue_link hwidth hdue hrun, State.invariant_inOrder.link h.state hrun,
    fun k hk ↦ ?_, halike⟩
  cases hrestarted : p.link.restarted with
  | false =>
    rw [hrestarted] at hk
    exact h.passes k hk
  | true =>
    rw [hrestarted, Bool.toNat_true] at hk halike
    obtain rfl | hle := Nat.eq_or_lt_of_le hk
    · have hstart := atStart_link hwidth hunderway hdue h.state hrestarted
      have hzero : p.link.player.linksDone width = 0 := by
        rw [linksDone, index, hstart.progress]
        rfl
      rw [hzero, Nat.add_zero] at halike
      exact ⟨halike.halted.symm.trans hstart.running,
        halike.reel.progress.symm.trans hstart.progress, hstart.state.congr halike.reel.state⟩
    · exact h.passes k (Nat.le_of_lt_succ hle)

theorem invariant_onTrack (hwidth : width ≤ 2 ^ 30) (first : Player) :
    Invariant (OnTrack image width first) where
  link h hrun := h.link hwidth hrun
  count ticks h := by
    obtain ⟨op, hunderway, hdue⟩ := h.due
    exact ⟨⟨op, hunderway.count ticks, hdue⟩, h.state, h.passes,
      h.alike.forest, h.alike.halted, h.alike.reel⟩
  handOver h := by
    obtain ⟨op, hunderway, hdue⟩ := h.due
    have hstate := h.alike.reel.state
    exact ⟨⟨op, hunderway.handOver, hdue⟩, State.invariant_inOrder.finish _ h.state, h.passes,
      h.alike.forest, h.alike.halted, h.alike.reel.progress,
      hstate.trans h.state.alike_finishTick hstate.scene⟩

end Player

end DemoReel.Playback
