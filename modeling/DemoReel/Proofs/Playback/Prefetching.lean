import DemoReel.Proofs.Playback.Supply

/-!
# The frames fetched in advance are enough

Only two instructions look into the sprite cache, for the frames that they name.  So a step does the
same with any other cache that agrees on the frames its operation draws, and a whole run does with
any cache that agrees on the required frames, in particular with one that holds all the source has.
-/

namespace DemoReel

def SpriteFrame.all : List SpriteFrame :=
  [SpriteSheet.hero, .portrait, .portraitBackground, .portraitDecoration].flatMap fun sheet ↦
    (List.range UInt16.size).map fun frame ↦ ⟨sheet, .ofNat frame⟩

theorem SpriteFrame.mem_all (frame : SpriteFrame) : frame ∈ all := by
  obtain ⟨sheet, frame⟩ := frame
  have hsheet : sheet ∈ [SpriteSheet.hero, .portrait, .portraitBackground, .portraitDecoration] := by
    cases sheet <;> decide
  refine List.mem_flatMap.2 ⟨sheet, hsheet, List.mem_map.2 ⟨frame.toNat, ?_, ?_⟩⟩
  · exact List.mem_range.2 frame.toNat_lt
  · rw [UInt16.ofNat_toNat]

namespace SpriteCache

/-- The caches hold the same of these frames. -/
def AgreeOn (frames : List SpriteFrame) (cache cache' : SpriteCache) : Prop :=
  ∀ frame ∈ frames, cache[frame]? = cache'[frame]?

theorem AgreeOn.mono {frames more : List SpriteFrame} {cache cache' : SpriteCache}
    (h : AgreeOn more cache cache') (hle : frames ⊆ more) : AgreeOn frames cache cache' :=
  fun frame hframe ↦ h frame (hle hframe)

/-- What was not asked for is not at hand. -/
theorem getElem?_gather_eq_ite (source : SpriteSource) (frames : List SpriteFrame)
    (frame : SpriteFrame) :
    (gather source frames)[frame]? = if frame ∈ frames then source frame else none := by
  refine (getElem?_foldl_gather frames ∅).trans ?_
  simp

theorem gather_congr {source source' : SpriteSource} {frames : List SpriteFrame}
    (h : ∀ frame ∈ frames, source frame = source' frame) :
    gather source frames = gather source' frames := by
  apply Std.ExtTreeMap.ext_getElem?
  intro frame
  rw [getElem?_gather_eq_ite, getElem?_gather_eq_ite]
  split
  · next hframe => exact h frame hframe
  · rfl

/-- Everything that the source has. -/
def complete (source : SpriteSource) : SpriteCache := gather source SpriteFrame.all

theorem getElem?_complete (source : SpriteSource) (frame : SpriteFrame) :
    (complete source)[frame]? = source frame :=
  getElem?_gather frame.mem_all

end SpriteCache

namespace Playback

/-! ## Another cache -/

namespace State

def withSprites (cache : SpriteCache) (s : State) : State := { s with sprites := cache }

variable (cache : SpriteCache) (s : State)

theorem dismiss_withSprites (id : String) (gone : Bool) :
    (if gone then { s.withSprites cache with scene := s.scene.remove id }
      else s.withSprites cache) =
        withSprites cache (if gone then { s with scene := s.scene.remove id } else s) := by
  cases gone <;> rfl

theorem paintChat_withSprites (t : UInt32) (offsetY : UInt16) (text : DemoText) :
    (s.withSprites cache).paintChat t offsetY text =
      (s.paintChat t offsetY text).map id (withSprites cache) :=
  congrArg (Prod.mk _)
    (dismiss_withSprites cache (s.placeText ElementId.chat text.shown _ _) ElementId.chat _)

theorem paintHint_withSprites (t : UInt32) (text : DemoText) :
    (s.withSprites cache).paintHint t text = (s.paintHint t text).map id (withSprites cache) :=
  congrArg (Prod.mk _)
    (dismiss_withSprites cache (s.placeText ElementId.hint text.shown _ _) ElementId.hint _)

theorem screenBlink_withSprites (t : UInt32) (blinkCount : UInt8) (color : Rgb) :
    (s.withSprites cache).screenBlink t blinkCount color =
      (s.screenBlink t blinkCount color).map id (withSprites cache) :=
  congrArg (State.blink · ElementId.blinkOverlay t blinkCount)
    (apply_ite (withSprites cache) _ s { s with scene := _ }).symm

theorem renderStage_withSprites :
    (s.withSprites cache).renderStage = s.renderStage.map id (withSprites cache) := by
  simp only [renderStage, withSprites]
  split <;> rfl

theorem setBlock_withSprites (x y : UInt16) (player : UInt8) (foreground : Option UInt8) :
    (s.withSprites cache).setBlock x y player foreground =
      (s.setBlock x y player foreground).map id (withSprites cache) := by
  simp only [setBlock, withSprites]
  cases s.stage.setBlock x y player foreground with
  | none => rfl
  | some stage =>
    have hrender := renderStage_withSprites cache { s with stage }
    simp only [withSprites] at hrender
    simp only [hrender]
    generalize State.renderStage { s with stage } = rendered
    obtain ⟨fault, shown⟩ := rendered
    cases fault <;> rfl

theorem walkHero_withSprites (direction : Direction) :
    (s.withSprites cache).walkHero direction = (s.walkHero direction).withSprites cache := by
  simp only [walkHero, withSprites]
  cases s.scene.get? ElementId.hero <;> rfl

theorem resetWorld_withSprites :
    (s.withSprites cache).resetWorld = s.resetWorld.map id (withSprites cache) :=
  renderStage_withSprites cache { s with camera := _, stage := _, scene := _ }

variable {cache s}

theorem setDemoSprite_withSprites {heroSprite backgroundAnim : UInt16}
    (h : SpriteCache.AgreeOn (framesOf (.setDemoSprite heroSprite backgroundAnim)) cache s.sprites) :
    (s.withSprites cache).setDemoSprite heroSprite backgroundAnim =
      (s.setDemoSprite heroSprite backgroundAnim).map id (withSprites cache) := by
  have hportrait := h ⟨.portrait, heroSprite⟩ (by simp [framesOf])
  have hbackground := h ⟨.portraitBackground, backgroundAnim &&& 1⟩ (by simp [framesOf])
  simp only [setDemoSprite, withSprites, hportrait, hbackground]
  split <;> rfl

theorem showDecoSymbol_withSprites {t : UInt32} {frameIndex : UInt16} {blinkCount : UInt8}
    (h : SpriteCache.AgreeOn (framesOf (.showDecoSymbol frameIndex blinkCount)) cache s.sprites) :
    (s.withSprites cache).showDecoSymbol t frameIndex blinkCount =
      (s.showDecoSymbol t frameIndex blinkCount).map id (withSprites cache) := by
  have hsymbol := h ⟨.portraitDecoration, frameIndex⟩ (by simp [framesOf])
  simp only [showDecoSymbol, withSprites, hsymbol]
  split
  · rfl
  · split <;> rfl

end State

/-! ## Steps -/

namespace Reel

def withSprites (cache : SpriteCache) (r : Reel) : Reel :=
  { r with state := r.state.withSprites cache }

variable {cache : SpriteCache}

theorem stepLeaf_withSprites {i : Instruction} {r : Reel} (path : OpPath)
    (h : SpriteCache.AgreeOn (framesOf i) cache r.state.sprites) :
    stepLeaf i path (r.withSprites cache) = (stepLeaf i path r).map id (withSprites cache) := by
  have hstate {result result' : Outcome × State}
      (hresult : result' = result.map id (State.withSprites cache)) :
      (result'.1, Reel.mk r.progress result'.2) =
        (result.1, Reel.mk r.progress (result.2.withSprites cache)) := by
    rw [hresult]
    rfl
  cases i with
  | moveCamera blockX blockY frameCount => rfl
  | paintChat lineCount offsetY text => exact hstate (r.state.paintChat_withSprites cache _ _ _)
  | delay frameCount => rfl
  | playerMove direction =>
    exact congrArg (fun state ↦ (_, Reel.mk r.progress state)) (r.state.walkHero_withSprites cache _)
  | setDemoSprite heroSprite backgroundAnim => exact hstate (State.setDemoSprite_withSprites h)
  | setPosAndShow x y => rfl
  | hideDemoSprite => rfl
  | showDecoSymbol frameIndex blinkCount => exact hstate (State.showDecoSymbol_withSprites h)
  | hideDecoSymbol unused needHide => rfl
  | screenBlink blinkCount color => exact hstate (r.state.screenBlink_withSprites cache _ _ _)
  | setBlockShort blockX blockY blockId specialData =>
    exact hstate (r.state.setBlock_withSprites cache _ _ _ _)
  | setBlockLong blockX blockY blockId => exact hstate (r.state.setBlock_withSprites cache _ _ _ _)
  | paintHint text => exact hstate (r.state.paintHint_withSprites cache _ _)
  | unknown opcode => rfl

theorem latchIfDone_withSprites (cache : SpriteCache) (r : Reel) (path : OpPath)
    (outcome : Outcome) :
    (r.withSprites cache).latchIfDone path outcome =
      (r.latchIfDone path outcome).withSprites cache := by
  unfold latchIfDone
  split <;> rfl

mutual

/-- A step looks for no frames but those that its operation draws. -/
theorem step_withSprites : ∀ (op : Operation) (path : OpPath) {r : Reel},
    SpriteCache.AgreeOn (framesOfOperation op) cache r.state.sprites →
      step op path (r.withSprites cache) = (step op path r).map id (withSprites cache)
  | .leaf i, path, r, h => by
    rw [step, step]
    rw [framesOfOperation] at h
    exact stepLeaf_withSprites path h
  | .block childCount children, path, r, h => by
    rw [framesOfOperation] at h
    rw [step, step, stepChildren_withSprites children path 0 .done h]
    dsimp only [Prod.map, id]
    split <;> rfl

theorem stepChildren_withSprites : ∀ (children : List Operation) (path : OpPath) (index : Nat)
    (outcome : Outcome) {r : Reel},
    SpriteCache.AgreeOn (framesOfForest children) cache r.state.sprites →
      stepChildren children path index outcome (r.withSprites cache) =
        (stepChildren children path index outcome r).map id (withSprites cache)
  | [], _, _, _, _, _ => rfl
  | child :: rest, path, index, outcome, r, h => by
    rw [framesOfForest] at h
    have hrest : SpriteCache.AgreeOn (framesOfForest rest) cache r.state.sprites :=
      h.mono (List.subset_append_right _ _)
    have hchild := step_withSprites child (path.child index) (h.mono (List.subset_append_left _ _))
    cases hlatched : r.progress.isLatched (path.child index) with
    | true =>
      rw [stepChildren_of_latched hlatched,
        stepChildren_of_latched (r := r.withSprites cache) hlatched]
      exact stepChildren_withSprites rest path (index + 1) outcome hrest
    | false =>
      cases hhalt : (step child (path.child index) r).1.halt with
      | some error =>
        rw [stepChildren_of_halt hlatched hhalt,
          stepChildren_of_halt (r := r.withSprites cache) hlatched (by rw [hchild]; exact hhalt),
          hchild]
      | none =>
        rw [stepChildren_of_step hlatched hhalt,
          stepChildren_of_step (r := r.withSprites cache) hlatched (by rw [hchild]; exact hhalt),
          hchild]
        dsimp only [Prod.map, id]
        rw [latchIfDone_withSprites]
        -- no child exchanges the cache, so the two agree on the frames of the rest as before
        refine stepChildren_withSprites rest path (index + 1) _ ?_
        rw [state_latchIfDone, (redraws_step child (path.child index) r).sprites]
        exact hrest

end

end Reel

/-! ## Runs -/

def Player.withSprites (cache : SpriteCache) (p : Player) : Player :=
  { p with reel := p.reel.withSprites cache }

def Link.withSprites (cache : SpriteCache) (l : Link) : Link :=
  { l with player := l.player.withSprites cache }

theorem framesOfOperation_subset {op : Operation} {forest : List Operation} (h : op ∈ forest) :
    framesOfOperation op ⊆ framesOfForest forest := by
  intro frame hframe
  obtain ⟨i, hi, hdrawn⟩ := (mem_framesOfOperation op).1 hframe
  exact (mem_framesOfForest forest).2 ⟨i, Operation.leaves_subset_leavesAll h hi, hdrawn⟩

namespace Player

/-- The cache holds the same as that of the player of all the frames that the forest draws. -/
def SuppliedBy (p : Player) (cache : SpriteCache) : Prop :=
  SpriteCache.AgreeOn (framesOfForest p.forest.toList) cache p.reel.state.sprites

variable {cache : SpriteCache}

theorem SameAssets.suppliedBy {p p' : Player} (h : p.SameAssets p') (hp : p.SuppliedBy cache) :
    p'.SuppliedBy cache := by
  rw [SuppliedBy, h.forest, h.sprites]
  exact hp

theorem restart_withSprites (cache : SpriteCache) (p : Player) :
    (p.withSprites cache).restart = p.restart.withSprites cache := by
  have hreset := p.reel.state.resetWorld_withSprites cache
  simp only [restart, withSprites, Reel.withSprites, hreset]
  rfl

theorem advance_withSprites (cache : SpriteCache) (p : Player) :
    (p.withSprites cache).advance = p.advance.map (withSprites cache) id := by
  rw [advance_eq, advance_eq]
  by_cases hinside : p.index + 1 < p.forest.size
  · rw [if_pos hinside]
    exact if_pos hinside
  · rw [if_neg hinside]
    refine (if_neg hinside).trans ?_
    rw [restart_withSprites]
    rfl

theorem settle_withSprites (cache : SpriteCache) (p : Player) (outcome : Outcome) (reel : Reel) :
    (p.withSprites cache).settle outcome (reel.withSprites cache) =
      (p.settle outcome reel).withSprites cache := by
  have hadvanced : advance { p.withSprites cache with reel := reel.withSprites cache } =
      (advance { p with reel }).map (withSprites cache) id :=
    advance_withSprites cache { p with reel }
  cases hhalt : outcome.halt with
  | some error => rw [settle_of_halt hhalt, settle_of_halt hhalt]; rfl
  | none =>
    cases hadvance : outcome.advance with
    | false => rw [settle_of_wait hhalt hadvance, settle_of_wait hhalt hadvance]; rfl
    | true =>
      rw [settle_of_advance hhalt hadvance, settle_of_advance hhalt hadvance, hadvanced]
      rfl

theorem link_withSprites {p : Player} (h : p.SuppliedBy cache) :
    (p.withSprites cache).link = p.link.withSprites cache := by
  cases hop : p.forest[p.index]? with
  | none =>
    -- the position is past the end of the forest in both players
    have hop' : (p.withSprites cache).forest[(p.withSprites cache).index]? = none := hop
    rw [link, hop', link, hop]
    rfl
  | some op =>
    have hframes : framesOfOperation op ⊆ framesOfForest p.forest.toList :=
      framesOfOperation_subset (Array.mem_toList_iff.2 (Array.mem_of_getElem? hop))
    rw [link_of_getElem? hop, link_of_getElem? (p := p.withSprites cache) hop]
    change settle _ (Reel.step op (.top p.index) (p.reel.withSprites cache)).1
      (Reel.step op (.top p.index) (p.reel.withSprites cache)).2 = _
    rw [Reel.step_withSprites op _ (h.mono hframes)]
    exact settle_withSprites cache p _ _

theorem stepChain_withSprites (budget : Nat) {p : Player} (h : p.SuppliedBy cache)
    (looped : Bool) :
    stepChain budget (p.withSprites cache) looped =
      (stepChain budget p looped).map (withSprites cache) id := by
  induction budget generalizing p looped with
  | zero => rfl
  | succ budget ih =>
    have hnext : p.link.player.SuppliedBy cache := by
      rw [SuppliedBy, p.forest_link, p.redraws_link.sprites]
      exact h
    rw [stepChain_succ, stepChain_succ, link_withSprites h]
    by_cases hgoesOn : p.link.goesOn = true
    · rw [if_pos hgoesOn]
      exact (if_pos hgoesOn).trans (ih hnext _)
    · rw [if_neg hgoesOn]
      exact if_neg hgoesOn

/-- Handing over commands has nothing to do with sprites, so a whole tick is the same. -/
theorem tick_withSprites {p : Player} (h : p.SuppliedBy cache) :
    (p.withSprites cache).tick = p.tick.map id (withSprites cache) := by
  cases hhalted : p.halted with
  | some error =>
    rw [tick_of_halted hhalted, tick_of_halted (p := p.withSprites cache) hhalted]
    rfl
  | none =>
    have hchain : (p.withSprites cache).chain = p.chain.map (withSprites cache) id :=
      stepChain_withSprites p.forest.size (p := { p with ticks := p.ticks + 1 }) h false
    rw [tick_of_running hhalted, tick_of_running (p := p.withSprites cache) hhalted, hchain]
    rfl

/-- Nothing is drawn before the first tick. -/
theorem start_withSprites (cache : SpriteCache) (forest : List Operation) (state : State) :
    start forest (state.withSprites cache) = (start forest state).map (withSprites cache) := by
  unfold start
  rw [State.resetWorld_withSprites]
  split
  · rfl
  · obtain ⟨fault, shown⟩ := state.resetWorld
    cases fault <;> rfl

end Player

/-! ## Sessions -/

/-- The instruction names this frame. -/
inductive Names : Instruction → SpriteFrame → Prop
  | portrait (heroSprite backgroundAnim : UInt16) :
      Names (.setDemoSprite heroSprite backgroundAnim) ⟨.portrait, heroSprite⟩
  | background (heroSprite backgroundAnim : UInt16) :
      Names (.setDemoSprite heroSprite backgroundAnim) ⟨.portraitBackground, backgroundAnim &&& 1⟩
  | symbol (frameIndex : UInt16) (blinkCount : UInt8) :
      Names (.showDecoSymbol frameIndex blinkCount) ⟨.portraitDecoration, frameIndex⟩

theorem mem_framesOf_iff {i : Instruction} {frame : SpriteFrame} :
    frame ∈ framesOf i ↔ Names i frame := by
  constructor
  · intro h
    cases i with
    | setDemoSprite heroSprite backgroundAnim =>
      simp only [framesOf, List.mem_cons, List.not_mem_nil, or_false] at h
      obtain rfl | rfl := h
      · exact .portrait heroSprite backgroundAnim
      · exact .background heroSprite backgroundAnim
    | showDecoSymbol frameIndex blinkCount =>
      obtain rfl := List.mem_singleton.1 h
      exact .symbol frameIndex blinkCount
    | _ => cases h
  · rintro (_ | _ | _) <;> simp [framesOf]

namespace Session

variable {program : DemoProgram} {settings : Settings} {sprites : SpriteSource}
  {world : WorldSource} {renderer : StageRenderer} {session : Session}

theorem run_withSprites {cache : SpriteCache} (h : session.player.SuppliedBy cache) (n : Nat) :
    ((session.player.withSprites cache).run n).2 = (session.after n).player.withSprites cache := by
  induction n with
  | zero => rfl
  | succ n ih =>
    have hnow := (session.sameAssets_after n).suppliedBy h
    rw [Player.run_succ, ih, Player.tick_withSprites hnow]
    rfl

/-- The other cache shows neither in the reports nor on the scene. -/
theorem plays_withSprites {cache : SpriteCache} (h : session.player.SuppliedBy cache) (n : Nat) :
    let other := ((session.player.withSprites cache).run n).2
    other.reel.state.scene = (session.after n).player.reel.state.scene ∧
      other.tick.1 = (session.after n).tick.1 := by
  have hnow := (session.sameAssets_after n).suppliedBy h
  dsimp only
  rw [run_withSprites h, Player.tick_withSprites hnow]
  exact ⟨rfl, rfl⟩

/-- Preparation asks the source for the hero and for the required frames only. -/
theorem prepare_congr {sprites' : SpriteSource} (hhero : sprites' heroFrame = sprites heroFrame)
    (hframes : ∀ frame ∈ requiredFrames program.operations, sprites' frame = sprites frame) :
    prepare program settings sprites' world renderer =
      prepare program settings sprites world renderer := by
  have hcache : SpriteCache.gather sprites' (requiredFrames program.operations).toList =
      .gather sprites (requiredFrames program.operations).toList :=
    SpriteCache.gather_congr fun frame hframe ↦
      hframes frame (Std.ExtTreeSet.mem_toList.1 hframe)
  simp only [prepare, hhero, hcache]

theorem Prepared.suppliedBy_complete {binding : WorldBinding}
    (h : session.Prepared program sprites binding renderer) :
    session.player.SuppliedBy (.complete sprites) := by
  rw [Player.SuppliedBy, h.forest, h.sprites]
  intro frame hframe
  have hrequired := Std.ExtTreeSet.mem_toList.2 (mem_requiredFrames.2 hframe)
  rw [SpriteCache.getElem?_complete, SpriteCache.getElem?_gather hrequired]

/-- The session holds what the source has of the required frames, and plays as with everything that
the source has: from the same stage and with the same hero, every tick gives the same report and
leaves the same scene. -/
def PlaysAsIfComplete (session : Session) (program : DemoProgram) (settings : Settings)
    (sprites : SpriteSource) (world : WorldSource) (renderer : StageRenderer) : Prop :=
  ∃ binding layers hero player, settings.worldBindings.get? program.demoId = some binding ∧
    world binding.world binding.stage = some layers ∧ sprites heroFrame = some hero ∧
    (∀ frame, session.player.reel.state.sprites[frame]? =
      if frame ∈ requiredFrames program.operations then sprites frame else none) ∧
    (∀ frame, (SpriteCache.complete sprites)[frame]? = sprites frame) ∧
    Player.start program.operations (.initial settings.playback
      (.ofLayers binding layers renderer) hero (.complete sprites)) = .ok player ∧
    ∀ n, (player.run n).2.reel.state.scene = (session.after n).player.reel.state.scene ∧
      (player.run n).2.tick.1 = (session.after n).tick.1

theorem playsAsIfComplete_of_prepare
    (h : (prepare program settings sprites world renderer).result = .ok session) :
    session.PlaysAsIfComplete program settings sprites world renderer := by
  obtain ⟨_, -, hprepared⟩ := prepared_of_prepare h
  obtain ⟨binding, layers, hero, hbinding, hlayers, hhero, hstart⟩ := prepare_eq_ok h
  refine ⟨binding, layers, hero, session.player.withSprites (.complete sprites), hbinding, hlayers,
    hhero, fun frame ↦ ?_, SpriteCache.getElem?_complete sprites, ?_,
    plays_withSprites hprepared.suppliedBy_complete⟩
  · rw [hprepared.sprites, SpriteCache.getElem?_gather_eq_ite]
    simp only [Std.ExtTreeSet.mem_toList]
  · have hcomplete := Player.start_withSprites (.complete sprites) program.operations
      (.initial settings.playback (.ofLayers binding layers renderer) hero
        (.gather sprites (requiredFrames program.operations).toList))
    rwa [hstart] at hcomplete

/-- A session that was prepared plays as if it had all frames of its source, so sources that have
the same hero and the same required frames cannot be told apart; and the required frames are those
that some instruction of the program names, at any depth. -/
theorem prefetching_suffices (program : DemoProgram) (settings : Settings) (sprites : SpriteSource)
    (world : WorldSource) (renderer : StageRenderer) :
    (∀ session, (prepare program settings sprites world renderer).result = .ok session →
      session.PlaysAsIfComplete program settings sprites world renderer) ∧
    (∀ sprites' : SpriteSource, sprites' heroFrame = sprites heroFrame →
      (∀ frame ∈ requiredFrames program.operations, sprites' frame = sprites frame) →
        prepare program settings sprites' world renderer =
          prepare program settings sprites world renderer) ∧
    ∀ frame, frame ∈ requiredFrames program.operations ↔
      ∃ i ∈ Operation.leavesAll program.operations, Names i frame := by
  refine ⟨fun session h ↦ playsAsIfComplete_of_prepare h,
    fun sprites' hhero hframes ↦ prepare_congr hhero hframes, fun frame ↦ ?_⟩
  rw [mem_requiredFrames, mem_framesOfForest]
  simp only [mem_framesOf_iff]

/-- A program whose only operation shows a portrait and a symbol side by side. -/
def symbolProgram : DemoProgram where
  demoId := 10
  declaredCount := 1
  spriteIds := []
  payload := [0, 0, 0, 2, 11, 3, 0, 5, 0, 16, 2, 0, 1]
  operationsStart := 2
  operations := [.block 2 [.leaf (.setDemoSprite 3 5), .leaf (.showDecoSymbol 2 1)]]
  stoppedAt := none

/-- The symbol is not to be had, and the source has a portrait that is not asked for. -/
theorem prefetching_suffices_of_symbol :
    let source (frame : SpriteFrame) : Option Raster :=
      if frame.sheet = .portraitDecoration then none else some (.solid 1 1 0)
    let other (frame : SpriteFrame) : Option Raster :=
      if frame = ⟨.portrait, 4⟩ then none else source frame
    let settings : Settings := { worldBindings := .ofList [⟨10, 0, 0, 2, 1⟩] }
    let world : WorldSource := fun _ _ ↦ some (.zeroed 4 3)
    let renderer : StageRenderer := fun _ _ _ _ ↦ some ⟨.solid 4 3 0, []⟩
    ∃ session, (prepare symbolProgram settings source world renderer).result = .ok session ∧
      session.PlaysAsIfComplete symbolProgram settings source world renderer ∧
      other heroFrame = source heroFrame ∧
      (∀ frame ∈ requiredFrames symbolProgram.operations, other frame = source frame) ∧
      prepare symbolProgram settings other world renderer =
        prepare symbolProgram settings source world renderer := by
  intro source other settings world renderer
  obtain ⟨session, hprepare⟩ : ∃ session,
      (prepare symbolProgram settings source world renderer).result = .ok session :=
    ⟨_, rfl⟩
  have hhero : other heroFrame = source heroFrame := rfl
  have hframes : ∀ frame ∈ requiredFrames symbolProgram.operations,
      other frame = source frame := by
    intro frame hframe
    rw [mem_requiredFrames] at hframe
    have hne : frame ≠ ⟨.portrait, 4⟩ := by
      rintro rfl
      revert hframe
      decide
    exact if_neg hne
  obtain ⟨hplays, hsame, -⟩ :=
    prefetching_suffices symbolProgram settings source world renderer
  exact ⟨session, hprepare, hplays session hprepare, hhero, hframes, hsame other hhero hframes⟩

end Session

end Playback

end DemoReel
