import DemoReel.Proofs.Playback.Portrait
import DemoReel.Proofs.Playback.Record

/-!
# Where the portrait stands

Three instructions act on the portrait, each on another part of it and two of them only if it is
there.  Nothing else does, at no depth and not between passes.  So at any time the portrait is what
the leaves stepped so far have made of it, one after another.
-/

namespace DemoReel

open Playback

/-- What an instruction makes of the portrait, with these frames at hand and the viewport at this
corner. -/
def Instruction.place (sprites : SpriteCache) (corner : Point) (portrait : Option Element) :
    Instruction → Option Element
  | .setDemoSprite heroSprite backgroundAnim =>
    match sprites[(⟨.portraitBackground, backgroundAnim &&& 1⟩ : SpriteFrame)]?,
      sprites[(⟨.portrait, heroSprite⟩ : SpriteFrame)]? with
    | some background, some face => some (.redrawn portrait (.image [background, face]))
    | _, _ => portrait
  | .setPosAndShow x y => portrait.map fun element ↦
    { element with
      x := corner.x + x.toUInt32.toInt32
      y := corner.y + y.toUInt32.toInt32
      visible := true }
  | .hideDemoSprite => portrait.map fun element ↦ { element with visible := false }
  | _ => portrait

theorem Instruction.place_setDemoSprite {sprites : SpriteCache} {heroSprite backgroundAnim : UInt16}
    {background face : Raster} (corner : Point) (portrait : Option Element)
    (hbackground :
      sprites[(⟨.portraitBackground, backgroundAnim &&& 1⟩ : SpriteFrame)]? = some background)
    (hface : sprites[(⟨.portrait, heroSprite⟩ : SpriteFrame)]? = some face) :
    place sprites corner portrait (.setDemoSprite heroSprite backgroundAnim) =
      some (.redrawn portrait (.image [background, face])) := by
  unfold place
  dsimp only
  rw [hbackground, hface]

namespace Playback

/-- What a leaf makes of the portrait, with the frames and the camera that it finds. -/
def Visit.place (portrait : Option Element) (v : Visit) : Option Element :=
  v.instruction.place v.reel.state.sprites v.reel.state.cameraPixel portrait

namespace State

/-- The portrait, if there is one. -/
def portrait (s : State) : Option Element := s.scene.get? ElementId.demoSprite

/-- A portrait is made of two frames; the first that is missing is the one that is reported. -/
theorem setDemoSprite_of_missing_background {s : State} {backgroundAnim : UInt16}
    (heroSprite : UInt16)
    (h : s.sprites[(⟨.portraitBackground, backgroundAnim &&& 1⟩ : SpriteFrame)]? = none) :
    s.setDemoSprite heroSprite backgroundAnim =
      (.halted (.missingSprite ⟨.portraitBackground, backgroundAnim &&& 1⟩), s) := by
  simp only [setDemoSprite, h]

theorem setDemoSprite_of_missing_face {s : State} {heroSprite backgroundAnim : UInt16}
    (hbackground :
      (s.sprites[(⟨.portraitBackground, backgroundAnim &&& 1⟩ : SpriteFrame)]?).isSome)
    (h : s.sprites[(⟨.portrait, heroSprite⟩ : SpriteFrame)]? = none) :
    s.setDemoSprite heroSprite backgroundAnim =
      (.halted (.missingSprite ⟨.portrait, heroSprite⟩), s) := by
  obtain ⟨background, hbackground⟩ := Option.isSome_iff_exists.1 hbackground
  simp only [setDemoSprite, hbackground, h]

theorem portrait_setDemoSprite (s : State) (heroSprite backgroundAnim : UInt16) :
    (s.setDemoSprite heroSprite backgroundAnim).2.portrait =
      Instruction.place s.sprites s.cameraPixel s.portrait
        (.setDemoSprite heroSprite backgroundAnim) := by
  unfold setDemoSprite Instruction.place
  dsimp only
  cases s.sprites[(⟨.portraitBackground, backgroundAnim &&& 1⟩ : SpriteFrame)]? with
  | none => rfl
  | some background =>
    cases s.sprites[(⟨.portrait, heroSprite⟩ : SpriteFrame)]? with
    | none => rfl
    | some face => exact (Scene.get?_upsert _ _ _ _).trans (if_pos rfl)

theorem portrait_setPosAndShow (s : State) (x y : UInt16) :
    (s.setPosAndShow x y).2.portrait =
      Instruction.place s.sprites s.cameraPixel s.portrait (.setPosAndShow x y) := by
  rw [portrait, setPosAndShow, Scene.get?_setVisible, if_pos rfl, Scene.get?_setPosition,
    if_pos rfl, Option.map_map]
  rfl

theorem portrait_hideDemoSprite (s : State) :
    s.hideDemoSprite.2.portrait =
      Instruction.place s.sprites s.cameraPixel s.portrait .hideDemoSprite := by
  have hother : ElementId.decoration ≠ ElementId.demoSprite := by decide
  rw [portrait, hideDemoSprite, Scene.get?_remove, if_neg hother, Scene.get?_setVisible,
    if_pos rfl]
  rfl

theorem portrait_resetWorld (s : State) : s.resetWorld.2.portrait = s.portrait :=
  s.evolvesIn_resetWorld.get?_eq (by decide) (by decide)

end State

theorem Reel.portrait_stepLeaf (i : Instruction) (path : OpPath) (r : Reel) :
    (r.stepLeaf i path).2.state.portrait =
      i.place r.state.sprites r.state.cameraPixel r.state.portrait := by
  by_cases hdraws : ElementId.demoSprite ∈ i.draws
  · cases i with
    | setDemoSprite heroSprite backgroundAnim => exact r.state.portrait_setDemoSprite _ _
    | setPosAndShow x y => exact r.state.portrait_setPosAndShow _ _
    | hideDemoSprite => exact r.state.portrait_hideDemoSprite
    | _ => exact absurd hdraws (by dsimp only [Instruction.draws, Instruction.puts]; decide)
  · have hputs : ElementId.demoSprite ∉ i.puts := fun h ↦ hdraws (i.draws_of_puts h)
    have hsame := (Reel.evolvesIn_stepLeaf i path r).get?_eq hputs hdraws
    cases i with
    | setDemoSprite heroSprite backgroundAnim => exact (hputs (List.mem_singleton_self _)).elim
    | setPosAndShow x y => exact (hdraws (List.mem_singleton_self _)).elim
    | hideDemoSprite => exact (hdraws List.mem_cons_self).elim
    | _ => exact hsame

/-! ## What leaves alone change -/

theorem Visit.Chained.of_append {s s' : State} {before after : List Visit} {v : Visit}
    (h : Visit.Chained s (before ++ v :: after) s') : Visit.Chained s before v.reel.state := by
  induction before generalizing s with
  | nil => exact h.1.symm
  | cons u before ih => exact ⟨h.1, ih h.2⟩

/-- A part of the state that is changed by leaves and by nothing else. -/
structure State.LeafDriven {α : Type} (view : State → α) (change : α → Visit → α) : Prop where
  leaf : ∀ v : Visit, view v.result.2.state = change (view v.reel.state) v
  reset : ∀ s : State, view s.resetWorld.2 = view s
  finish : ∀ s : State, view s.finishTick.2 = view s

theorem State.leafDriven_portrait : LeafDriven portrait Visit.place where
  leaf v := v.reel.portrait_stepLeaf v.instruction v.path
  reset := portrait_resetWorld
  finish _ := rfl

/-- The leaves stepped in the first `n` ticks, in their order. -/
def Player.trail (p : Player) (n : Nat) : List Visit := (moments n p).flatMap visits

namespace State.LeafDriven

variable {α : Type} {view : State → α} {change : α → Visit → α} {p q q' : Player}

theorem chained (h : LeafDriven view change) {s s' : State} {visits : List Visit}
    (hchained : Visit.Chained s visits s') : view s' = visits.foldl change (view s) := by
  induction visits generalizing s with
  | nil => exact congrArg view (Eq.symm hchained)
  | cons v visits ih =>
    obtain ⟨rfl, hrest⟩ := hchained
    rw [ih hrest, h.leaf, List.foldl_cons]

theorem link (h : LeafDriven view change) (p : Player) :
    view p.link.player.reel.state = p.visits.foldl change (view p.reel.state) := by
  obtain ⟨s, hchained, hstate⟩ := p.exists_chained_link
  rw [hstate, ← h.chained hchained]
  split
  · exact h.reset s
  · rfl

theorem stepChain (h : LeafDriven view change) (budget : Nat) (p : Player) (looped : Bool) :
    view (Player.stepChain budget p looped).1.reel.state =
      ((Player.chainMoments budget p).flatMap Player.visits).foldl change (view p.reel.state) := by
  induction budget generalizing p looped with
  | zero => rfl
  | succ budget ih =>
    rw [Player.stepChain_succ, Player.chainMoments, List.flatMap_cons, List.foldl_append,
      ← h.link p]
    split
    · exact ih _ _
    · rfl

theorem tick (h : LeafDriven view change) (p : Player) :
    view p.tick.2.reel.state =
      (p.tickMoments.flatMap Player.visits).foldl change (view p.reel.state) := by
  cases hrun : p.halted with
  | some error =>
    rw [Player.tick_of_halted hrun, Player.tickMoments_of_halted hrun]
    rfl
  | none =>
    rw [Player.tick_of_running hrun, Player.tickMoments_of_running hrun]
    exact (h.finish _).trans (h.stepChain _ { p with ticks := p.ticks + 1 } _)

theorem run (h : LeafDriven view change) (p : Player) (n : Nat) :
    view (p.run n).2.reel.state = (p.trail n).foldl change (view p.reel.state) := by
  induction n generalizing p with
  | zero => rfl
  | succ n ih =>
    rw [Player.trail, Player.moments, List.flatMap_append, List.foldl_append, ← h.tick p]
    exact ih p.tick.2

theorem follows (h : LeafDriven view change) (hnext : q.Follows q') :
    view q'.reel.state = q.visits.foldl change (view q.reel.state) := by
  cases hnext with
  | link goesOn same => rw [same, h.link]
  | tick resumed => rw [resumed, ← h.link, Player.resume, Player.handOver, h.finish]

/-- Each moment is found as the leaves stepped before it leave it. -/
theorem of_isChain (h : LeafDriven view change) {before after : List Player}
    (hchain : (before ++ q :: after).IsChain Player.Follows)
    (hhead : ∀ q' ∈ (before ++ q :: after).head?, view q'.reel.state = view p.reel.state) :
    view q.reel.state = (before.flatMap Player.visits).foldl change (view p.reel.state) := by
  induction before generalizing p with
  | nil => exact hhead q rfl
  | cons first before ih =>
    rw [List.cons_append, List.isChain_cons] at hchain
    rw [List.flatMap_cons, List.foldl_append, ← hhead first rfl, ← h.link]
    refine ih hchain.2 fun q' hq' ↦ ?_
    rw [h.link]
    exact h.follows (hchain.1 q' hq')

/-- And each leaf as those before it do. -/
theorem moments (h : LeafDriven view change) (hforest : 0 < p.forest.size) {n : Nat}
    {before after : List Player} (hsplit : Player.moments n p = before ++ q :: after) :
    view q.reel.state = (before.flatMap Player.visits).foldl change (view p.reel.state) ∧
      ∀ first v rest, q.visits = first ++ v :: rest → view v.reel.state =
        (before.flatMap Player.visits ++ first).foldl change (view p.reel.state) := by
  have hmoment : view q.reel.state =
      (before.flatMap Player.visits).foldl change (view p.reel.state) := by
    refine h.of_isChain (hsplit ▸ Player.isChain_moments hforest n) fun q' hq' ↦ ?_
    obtain rfl := Player.head?_moments hforest (hsplit ▸ hq')
    rfl
  refine ⟨hmoment, fun first v rest hvisits ↦ ?_⟩
  obtain ⟨s, hchained, -⟩ := q.exists_chained_link
  rw [hvisits] at hchained
  rw [List.foldl_append, ← hmoment]
  exact h.chained hchained.of_append

end State.LeafDriven

/-! ## Along the trail -/

namespace Player

variable {forest : List Operation} {p q : Player} {v : Visit} {error : Error} {n : Nat}

theorem halts_link (hv : v ∈ p.visits) (hhalt : v.result.1.halt = some error) :
    p.link.player.halted = some error ∧ p.visits.getLast? = some v := by
  obtain ⟨op, hop, hv⟩ := exists_active_of_mem_visits hv
  obtain ⟨hstep, hlast⟩ := Reel.halts_of_mem_visits hhalt hv
  rw [link_of_getElem? hop, settle_of_halt hstep, visits_of_getElem? hop]
  exact ⟨rfl, hlast⟩

/-- A leaf that halts is the last one of the run. -/
theorem halts_of_mem_trail (hv : v ∈ p.trail n) (hhalt : v.result.1.halt = some error) :
    (p.run n).2.halted = some error ∧ (p.trail n).getLast? = some v := by
  obtain ⟨q, hq, hv⟩ := List.mem_flatMap.1 hv
  obtain ⟨hlink, hlast⟩ := halts_link hv hhalt
  obtain ⟨hrun, hmoments⟩ := halts_run hq hlink
  obtain ⟨before, hbefore⟩ := List.getLast?_eq_some_iff.1 hmoments
  refine ⟨hrun, ?_⟩
  rw [trail, hbefore, List.flatMap_append, List.flatMap_singleton, List.getLast?_append, hlast,
    Option.some_or]

/-- The frames at hand are the same for all leaves. -/
theorem sprites_of_mem_trail (hforest : 0 < p.forest.size) (hv : v ∈ p.trail n) :
    v.reel.state.sprites = p.reel.state.sprites := by
  have hkept : State.LeafDriven State.sprites fun sprites _ ↦ sprites :=
    ⟨fun v ↦ (Reel.redraws_stepLeaf v.instruction v.path v.reel).sprites,
      fun s ↦ s.redraws_resetWorld.sprites, fun _ ↦ rfl⟩
  obtain ⟨q, hq, hv⟩ := List.mem_flatMap.1 hv
  obtain ⟨before, after, hsplit⟩ := List.append_of_mem hq
  obtain ⟨first, rest, hvisits⟩ := List.append_of_mem hv
  rw [(hkept.moments hforest hsplit).2 first v rest hvisits, List.foldl_fixed]

/-- At any time of a run, also in the middle of a tick, the portrait is what the leaves stepped
before, in this pass and all earlier ones, have made of it one after another.  A portrait whose
frames are not both at hand is not made: playback stops at that leaf, with nothing changed, and
reports the background if that is missing and the face otherwise. -/
theorem portrait_is_fold_of_steps {state : State} (hstart : start forest state = .ok p) (n : Nat) :
    let placed (visits : List Visit) := visits.foldl Visit.place state.portrait
    (p.run n).2.reel.state.portrait = placed (p.trail n) ∧
      (∀ before q after, moments n p = before ++ q :: after →
        q.reel.state.portrait = placed (before.flatMap visits) ∧
        ∀ first v rest, q.visits = first ++ v :: rest →
          v.reel.state.portrait = placed (before.flatMap visits ++ first)) ∧
      ∀ v ∈ p.trail n, v.reel.state.sprites = state.sprites ∧
        ∀ heroSprite backgroundAnim, v.instruction = .setDemoSprite heroSprite backgroundAnim →
          let background : SpriteFrame := ⟨.portraitBackground, backgroundAnim &&& 1⟩
          let face : SpriteFrame := ⟨.portrait, heroSprite⟩
          let stopsFor (frame : SpriteFrame) := v.result.2 = v.reel ∧
            (p.run n).2.halted = some (.missingSprite frame) ∧ (p.trail n).getLast? = some v
          (state.sprites[background]? = none → stopsFor background) ∧
          ((state.sprites[background]?).isSome → state.sprites[face]? = none → stopsFor face) ∧
          ((state.sprites[background]?).isSome → (state.sprites[face]?).isSome →
            v.result.1 = .instant) := by
  obtain ⟨-, -, hp⟩ := start_eq_ok hstart
  have hsize := forest_pos_of_start hstart
  have hbegun : p.reel.state.portrait = state.portrait := by
    rw [hp]
    exact state.portrait_resetWorld
  have hfold := State.leafDriven_portrait
  rw [← hbegun]
  refine ⟨hfold.run p n, fun before q after hsplit ↦ hfold.moments hsize hsplit, fun v hv ↦ ?_⟩
  have hsprites : v.reel.state.sprites = state.sprites := by
    rw [sprites_of_mem_trail hsize hv, hp]
    exact state.redraws_resetWorld.sprites
  refine ⟨hsprites, fun heroSprite backgroundAnim hset ↦ ?_⟩
  have hresult : v.result = ((v.reel.state.setDemoSprite heroSprite backgroundAnim).1,
      { v.reel with state := (v.reel.state.setDemoSprite heroSprite backgroundAnim).2 }) := by
    rw [Visit.result, hset]
    rfl
  have hstops {frame : SpriteFrame}
      (h : v.reel.state.setDemoSprite heroSprite backgroundAnim =
        (.halted (.missingSprite frame), v.reel.state)) :
      v.result.2 = v.reel ∧ (p.run n).2.halted = some (.missingSprite frame) ∧
        (p.trail n).getLast? = some v := by
    rw [h] at hresult
    have hhalt : v.result.1.halt = some (.missingSprite frame) := by rw [hresult]; rfl
    exact ⟨by rw [hresult], halts_of_mem_trail hv hhalt⟩
  rw [← hsprites]
  refine ⟨fun hmissing ↦ hstops (State.setDemoSprite_of_missing_background heroSprite hmissing),
    fun hbackground hmissing ↦ hstops (State.setDemoSprite_of_missing_face hbackground hmissing),
    fun hbackground hface ↦ ?_⟩
  obtain ⟨background, hbackground⟩ := Option.isSome_iff_exists.1 hbackground
  obtain ⟨face, hface⟩ := Option.isSome_iff_exists.1 hface
  rw [hresult]
  simp only [State.setDemoSprite, hbackground, hface]

/-- In the first pass there is no portrait yet that could be placed; in the second one there is, and
it is shown where it is placed then. -/
theorem portrait_is_fold_of_steps_of_two_passes :
    let face : Raster := .solid 2 2 7
    let sprites : SpriteCache :=
      (∅ : SpriteCache).insert ⟨.portraitBackground, 1⟩ face |>.insert ⟨.portrait, 3⟩ face
    ∃ p, start [.leaf (.setPosAndShow 10 20), .block 1 [.leaf (.setDemoSprite 3 5)],
        .leaf (.delay 1)] (.initial {} blankStage (.solid 24 30 0) sprites) = .ok p ∧
      ∃ corner : Point, (p.run 3).2.reel.state.portrait =
        some ⟨.image [face, face], corner.x + 10, corner.y + 20, Depth.overlayText, true⟩ := by
  intro face sprites
  obtain ⟨p, hstart, hleaves⟩ : ∃ p,
      start [.leaf (.setPosAndShow 10 20), .block 1 [.leaf (.setDemoSprite 3 5)],
        .leaf (.delay 1)] (.initial {} blankStage (.solid 24 30 0) sprites) = .ok p ∧
      (p.trail 3).map Visit.instruction = [.setPosAndShow 10 20, .setDemoSprite 3 5, .delay 1,
        .setPosAndShow 10 20] :=
    ⟨_, rfl, by decide +kernel⟩
  obtain ⟨hfold, -, htrail⟩ := portrait_is_fold_of_steps hstart 3
  simp only [List.map_eq_cons_iff, List.map_eq_nil_iff] at hleaves
  obtain ⟨v₁, _, hvisits, h₁, v₂, _, rfl, h₂, v₃, _, rfl, h₃, v₄, _, rfl, h₄, rfl⟩ := hleaves
  have hsprites : v₂.reel.state.sprites = sprites := (htrail v₂ (by simp [hvisits])).1
  have hbackground : sprites[(⟨.portraitBackground, 5 &&& 1⟩ : SpriteFrame)]? = some face := by
    decide +kernel
  have hface : sprites[(⟨.portrait, 3⟩ : SpriteFrame)]? = some face := by decide +kernel
  have hmade : Visit.place none v₂ = some ⟨.image [face, face], 0, 0, Depth.overlayText, false⟩ := by
    rw [Visit.place, h₂, hsprites]
    exact Instruction.place_setDemoSprite _ none hbackground hface
  refine ⟨p, hstart, v₄.reel.state.cameraPixel, ?_⟩
  calc
    _ = [v₁, v₂, v₃, v₄].foldl Visit.place none := by rw [hfold, hvisits]; rfl
    _ = Visit.place (Visit.place (Visit.place none v₂) v₃) v₄ := by
      rw [List.foldl_cons, Visit.place, h₁]
      rfl
    _ = Visit.place (Visit.place none v₂) v₄ := by rw [Visit.place.eq_1 _ v₃, h₃]; rfl
    _ = _ := by rw [hmade, Visit.place, h₄]; rfl

end Player

end Playback

end DemoReel
