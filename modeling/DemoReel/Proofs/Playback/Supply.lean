import DemoReel.Proofs.Playback.Halting
import Mathlib

/-!
# Sessions stop only for want of assets

A session asks for every frame that its program may draw before it starts, and a frame that it does
not get is one that the source does not have.  With all of them at hand, and a renderer that never
fails, it goes on for ever.
-/

namespace DemoReel

namespace SpriteCache

theorem getElem?_foldl_gather {source : SpriteSource} {frame : SpriteFrame}
    (frames : List SpriteFrame) (cache : SpriteCache) :
    (frames.foldl (fun cache frame ↦
      match source frame with
      | some raster => cache.insert frame raster
      | none => cache) cache)[frame]? =
      if frame ∈ frames then (source frame).or cache[frame]? else cache[frame]? := by
  induction frames generalizing cache with
  | nil => simp
  | cons first frames ih =>
    rw [List.foldl_cons, ih]
    by_cases hfirst : frame = first
    · subst hfirst
      cases hsource : source frame <;> simp
    · have hother : compare first frame ≠ .eq := by
        rw [ne_eq, Std.LawfulEqOrd.compare_eq_iff_eq]
        exact fun heq ↦ hfirst heq.symm
      cases source first <;> simp [Std.ExtTreeMap.getElem?_insert, hother, hfirst]

/-- A frame that was asked for is at hand if the source has it. -/
theorem getElem?_gather {source : SpriteSource} {frames : List SpriteFrame} {frame : SpriteFrame}
    (h : frame ∈ frames) : (gather source frames)[frame]? = source frame := by
  calc
    (gather source frames)[frame]? = (source frame).or (∅ : SpriteCache)[frame]? :=
      (getElem?_foldl_gather frames ∅).trans (if_pos h)
    _ = source frame := by simp

end SpriteCache

namespace Playback

namespace Session

variable {program : DemoProgram} {settings : Settings} {sprites : SpriteSource}
  {world : WorldSource} {renderer : StageRenderer} {session : Session}

theorem prepare_eq_ok
    (h : (prepare program settings sprites world renderer).result = .ok session) :
    ∃ binding layers hero, settings.worldBindings.get? program.demoId = some binding ∧
      world binding.world binding.stage = some layers ∧ sprites heroFrame = some hero ∧
      Player.start program.operations
          (.initial settings.playback (.ofLayers binding layers renderer) hero
            (.gather sprites (requiredFrames program.operations).toList)) =
        .ok session.player := by
  unfold prepare at h
  dsimp only at h
  split at h
  · cases h
  · split at h
    · cases h
    · next binding hbinding =>
      split at h
      · cases h
      · next layers hlayers =>
        split at h
        · cases h
        · next hero hhero =>
          refine ⟨binding, layers, hero, hbinding, hlayers, hhero, ?_⟩
          dsimp only at h
          cases hstart : Player.start program.operations
            (.initial settings.playback (.ofLayers binding layers renderer) hero
              (.gather sprites (requiredFrames program.operations).toList)) with
          | error e =>
            rw [hstart] at h
            cases h
          | ok player =>
            rw [hstart] at h
            cases h
            rfl

/-- A session that starts with the operations of the program and with what was gathered for them. -/
structure Prepared (session : Session) (program : DemoProgram) (sprites : SpriteSource)
    (binding : WorldBinding) (renderer : StageRenderer) : Prop where
  running : session.player.halted = none
  forest : session.player.forest.toList = program.operations
  sprites : session.player.reel.state.sprites =
    .gather sprites (requiredFrames program.operations).toList
  binding : session.player.reel.state.stage.binding = binding
  renderer : session.player.reel.state.stage.renderer = renderer

theorem prepared_of_prepare
    (h : (prepare program settings sprites world renderer).result = .ok session) :
    ∃ binding, settings.worldBindings.get? program.demoId = some binding ∧
      session.Prepared program sprites binding renderer := by
  obtain ⟨binding, layers, hero, hbinding, -, -, hstart⟩ := prepare_eq_ok h
  obtain ⟨-, -, hplayer⟩ := Player.start_eq_ok hstart
  have hdrawn := (State.initial settings.playback (.ofLayers binding layers renderer) hero
    (.gather sprites (requiredFrames program.operations).toList)).redraws_resetWorld
  refine ⟨binding, hbinding, ?_⟩
  constructor <;> rw [hplayer]
  case sprites => exact hdrawn.sprites
  case binding => exact hdrawn.binding
  case renderer => exact hdrawn.renderer

/-- The session after so many ticks. -/
def after (s : Session) : (ticks : Nat) → Session
  | 0 => s
  | ticks + 1 => (s.after ticks).tick.2

/-- In the next tick the renderer is asked for the stage and, the last time, gives nothing. -/
def RenderFails (s : Session) (binding : WorldBinding) (renderer : StageRenderer) : Prop :=
  let before := s.player.reel.state.stage
  let stage := s.tick.2.player.reel.state.stage
  before.renders < stage.renders ∧
    renderer stage.renders binding.world binding.stage stage.layers = none

variable {error : Error}

theorem sameAssets_after (s : Session) (n : Nat) : s.player.SameAssets (s.after n).player := by
  induction n with
  | zero => exact ⟨rfl, rfl, rfl, rfl⟩
  | succ n ih => exact ih.trans (s.after n).player.sameAssets_tick

/-- A session that has stopped stays as it is, and says so in every tick. -/
theorem tick_after_of_halted {s : Session} {n : Nat} (h : (s.after n).player.halted = some error)
    {m : Nat} (hm : n ≤ m) :
    s.after m = s.after n ∧ (s.after m).tick = (⟨.halted error, []⟩, s.after m) := by
  have htick : (s.after n).tick = (⟨.halted error, []⟩, s.after n) := by
    rw [tick, Player.tick_of_halted h]
  induction hm with
  | refl => exact ⟨rfl, htick⟩
  | @step m _ ih =>
    have hstays : s.after (m + 1) = s.after n := by
      rw [after, ih.2]
      exact ih.1
    exact ⟨hstays, hstays ▸ htick⟩

/-- A halt goes back to the tick that first reported it, in which something was missing. -/
theorem exists_lacks_of_halted {s : Session} (hrun : s.player.halted = none)
    (hknown : Operation.AllKnown s.player.forest.toList) {n : Nat}
    (h : (s.after n).player.halted = some error) :
    ∃ k < n, (s.after k).player.halted = none ∧
      (s.after k).tick.1.status = .halted error ∧
      (s.after k).player.reel.state.Lacks (framesOfForest s.player.forest.toList)
        (s.after k).tick.2.player.reel.state error := by
  induction n with
  | zero => cases hrun.symm.trans h
  | succ n ih =>
    have hforest := (s.sameAssets_after n).forest
    cases hn : (s.after n).player.halted with
    | some fault =>
      have hsame : s.after (n + 1) = s.after n := (tick_after_of_halted hn (Nat.le_succ n)).1
      rw [hsame] at h
      obtain ⟨k, hk, hcause⟩ := ih h
      exact ⟨k, Nat.lt_succ_of_lt hk, hcause⟩
    | none =>
      have hlacks := Player.lacks_tick (hforest ▸ hknown) hn h
      rw [hforest] at hlacks
      exact ⟨n, Nat.lt_succ_self n, hn, Player.status_eq_halted_iff.2 h, hlacks⟩

/-- A halt is reported for a frame that the source does not have, or since the renderer gave nothing
in the tick that first reported it. -/
theorem Prepared.cause_of_halted {binding : WorldBinding}
    (hprepared : session.Prepared program sprites binding renderer)
    (hknown : Operation.AllKnown program.operations) {n : Nat}
    (h : (session.after n).tick.1.status = .halted error) :
    (∃ frame ∈ requiredFrames program.operations,
      error = .missingSprite frame ∧ sprites frame = none) ∨
    error = .missingStageRender binding.world binding.stage ∧
      ∃ k ≤ n, (session.after k).player.halted = none ∧
        (session.after k).tick.1.status = .halted error ∧
        (session.after k).RenderFails binding renderer := by
  have hforest := hprepared.forest
  have hhalted : (session.after (n + 1)).player.halted = some error :=
    Player.status_eq_halted_iff.1 h
  obtain ⟨k, hk, hbefore, hreport, hlacks⟩ :=
    exists_lacks_of_halted hprepared.running (hforest ▸ hknown) hhalted
  have hassets : session.player.SameAssets (session.after k).tick.2.player :=
    session.sameAssets_after (k + 1)
  have hbinding := hassets.binding.trans hprepared.binding
  rw [hforest] at hlacks
  cases hlacks with
  | frame drawn missing =>
    have hrequired := mem_requiredFrames.2 drawn
    rw [hassets.sprites, hprepared.sprites,
      SpriteCache.getElem?_gather (Std.ExtTreeSet.mem_toList.2 hrequired)] at missing
    exact .inl ⟨_, hrequired, rfl, missing⟩
  | render asked failed =>
    rw [hbinding, hassets.renderer, hprepared.renderer] at failed
    rw [hbinding] at hreport ⊢
    exact .inr ⟨rfl, k, Nat.le_of_lt_succ hk, hbefore, hreport, asked, failed⟩

/-- A session of a decoded program reports a halt only for a frame that the source does not have, or
for the stage that it plays on, and then the renderer gave nothing for it in the tick that first
reported the halt.  With all frames at hand and a renderer that never fails it does not halt at all,
and once halted nothing changes any more. -/
theorem halts_for_missing_assets {d : Decoder} (hdecoded : program.DecodedBy d)
    (hprepare : (prepare program settings sprites world renderer).result = .ok session) :
    ∃ binding, settings.worldBindings.get? program.demoId = some binding ∧
      (∀ n error, (session.after n).tick.1.status = .halted error →
        (∃ frame ∈ requiredFrames program.operations,
          error = .missingSprite frame ∧ sprites frame = none) ∨
        error = .missingStageRender binding.world binding.stage ∧
          ∃ k ≤ n, (session.after k).player.halted = none ∧
            (session.after k).tick.1.status = .halted error ∧
            (session.after k).RenderFails binding renderer) ∧
      ((∀ frame ∈ requiredFrames program.operations, (sprites frame).isSome) →
        (∀ call layers, (renderer call binding.world binding.stage layers).isSome) →
          ∀ n error, (session.after n).tick.1.status ≠ .halted error) ∧
      ∀ n error, (session.after n).tick.1.status = .halted error → ∀ m, n < m →
        (session.after m).tick = (⟨.halted error, []⟩, session.after m) ∧
          session.after m = session.after (n + 1) := by
  obtain ⟨binding, hbinding, hprepared⟩ := prepared_of_prepare hprepare
  have hcause {n : Nat} {error : Error} (h : (session.after n).tick.1.status = .halted error) :=
    hprepared.cause_of_halted hdecoded.allKnown h
  refine ⟨binding, hbinding, fun n error h ↦ hcause h, fun hframes hrenders n error h ↦ ?_,
    fun n error h m hm ↦ ?_⟩
  · cases hcause h with
    | inl hframe =>
      obtain ⟨frame, hmem, -, hnone⟩ := hframe
      have hsome := hframes frame hmem
      rw [hnone] at hsome
      cases hsome
    | inr hrender =>
      obtain ⟨-, k, -, -, -, -, hnone⟩ := hrender
      have hsome := hrenders (session.after k).tick.2.player.reel.state.stage.renders
        (session.after k).tick.2.player.reel.state.stage.layers
      rw [hnone] at hsome
      cases hsome
  · have hhalted : (session.after (n + 1)).player.halted = some error :=
      Player.status_eq_halted_iff.1 h
    exact (tick_after_of_halted hhalted hm).symm

/-- A program whose only operation shows a portrait. -/
def portraitProgram : DemoProgram where
  demoId := 10
  declaredCount := 1
  spriteIds := []
  payload := [0, 0, 11, 3, 0, 5, 0]
  operationsStart := 2
  operations := [.leaf (.setDemoSprite 3 5)]
  stoppedAt := none

/-- The portrait is shown over and over again when its frames are to be had. -/
theorem halts_for_missing_assets_of_portrait :
    ∃ session, portraitProgram.DecodedBy {} ∧
      (prepare portraitProgram { worldBindings := .ofList [⟨10, 0, 0, 2, 1⟩] }
        (fun _ ↦ some (.solid 1 1 0)) (fun _ _ ↦ some (.zeroed 4 3))
        fun _ _ _ _ ↦ some ⟨.solid 4 3 0, []⟩).result = .ok session ∧
      ∀ n error, (session.after n).tick.1.status ≠ .halted error := by
  have hdecodes : Decoder.decodeProgram {} [10, 0, 1, 0, 7, 0, 0, 0, 0, 0, 11, 3, 0, 5, 0] =
      .ok ⟨10, 1, [], [.leaf (.setDemoSprite 3 5)], [0, 0, 11, 3, 0, 5, 0], 2, none⟩ := by
    cbv
  have hdecoded : portraitProgram.DecodedBy {} := .single hdecodes (by cbv)
  obtain ⟨session, hprepare⟩ : ∃ session,
      (prepare portraitProgram { worldBindings := .ofList [⟨10, 0, 0, 2, 1⟩] }
        (fun _ ↦ some (.solid 1 1 0)) (fun _ _ ↦ some (.zeroed 4 3))
        fun _ _ _ _ ↦ some ⟨.solid 4 3 0, []⟩).result = .ok session :=
    ⟨_, rfl⟩
  obtain ⟨binding, -, -, hruns, -⟩ := halts_for_missing_assets hdecoded hprepare
  exact ⟨session, hdecoded, hprepare, hruns (fun _ _ ↦ rfl) fun _ _ ↦ rfl⟩

end Session

end Playback

end DemoReel
