import DemoReel.Proofs.Playback.Pacing

/-!
# Pans

A pan goes from where the camera stood when the pan was begun.  The table it keeps this in is
written by other pans, cleared in part by blocks that are done, and given up when the operation is;
still each step of a pan finds there what its own first step put there.
-/

namespace DemoReel.Playback

/-! ## How far a pan is -/

namespace Reel

/-- No part of the way for no frames, all of it for a single one, and else a part that grows evenly
from the first frame to the last. -/
theorem panProgress_cases (t : UInt32) (frameCount : UInt16) :
    (frameCount = 0 → panProgress t frameCount = 0) ∧
      (frameCount = 1 → panProgress t frameCount = 1) ∧
      (1 < frameCount →
        panProgress t frameCount = min (t.toFloat / (frameCount - 1).toFloat) 1) := by
  refine ⟨?_, ?_, fun hmany ↦ ?_⟩
  · rintro rfl
    rfl
  · rintro rfl
    rfl
  · have hnonzero : frameCount ≠ 0 := by
      rintro rfl
      exact UInt16.not_lt_zero hmany
    have hnotone : frameCount ≠ 1 := by
      rintro rfl
      exact UInt16.lt_irrefl 1 hmany
    rw [panProgress, if_neg hnonzero, if_neg hnotone]

end Reel

/-! ## Who moves the camera -/

namespace State

variable (s : State)

theorem camera_paintChat (t : UInt32) (offsetY : UInt16) (text : DemoText) :
    (s.paintChat t offsetY text).2.camera = s.camera := by
  unfold paintChat
  dsimp only
  split <;> rfl

theorem camera_paintHint (t : UInt32) (text : DemoText) :
    (s.paintHint t text).2.camera = s.camera := by
  unfold paintHint
  dsimp only
  split <;> rfl

theorem camera_setDemoSprite (heroSprite backgroundAnim : UInt16) :
    (s.setDemoSprite heroSprite backgroundAnim).2.camera = s.camera := by
  unfold setDemoSprite
  dsimp only
  split <;> rfl

theorem camera_showDecoSymbol (t : UInt32) (frameIndex : UInt16) (blinkCount : UInt8) :
    (s.showDecoSymbol t frameIndex blinkCount).2.camera = s.camera := by
  unfold showDecoSymbol
  dsimp only
  split
  · rfl
  · split <;> rfl

theorem camera_screenBlink (t : UInt32) (blinkCount : UInt8) (color : Rgb) :
    (s.screenBlink t blinkCount color).2.camera = s.camera := by
  unfold screenBlink blink
  dsimp only
  split <;> rfl

theorem camera_renderStage : s.renderStage.2.camera = s.camera := by
  unfold renderStage
  split <;> rfl

theorem camera_setBlock (x y : UInt16) (player : UInt8) (foreground : Option UInt8) :
    (s.setBlock x y player foreground).2.camera = s.camera := by
  unfold setBlock
  cases s.stage.setBlock x y player foreground with
  | none => rfl
  | some stage =>
    have hrender := camera_renderStage { s with stage }
    dsimp only
    split
    · next h => rwa [h] at hrender
    · next h => rwa [h] at hrender

theorem camera_walkHero (direction : Direction) : (s.walkHero direction).camera = s.camera := by
  unfold walkHero
  dsimp only
  split <;> rfl

end State

namespace Reel

/-- No leaf but a pan moves the camera. -/
theorem camera_stepLeaf {i : Instruction} (h : ∀ x y frameCount, i ≠ .moveCamera x y frameCount)
    (path : OpPath) (r : Reel) : (stepLeaf i path r).2.state.camera = r.state.camera := by
  cases i with
  | moveCamera blockX blockY frameCount => exact (h blockX blockY frameCount rfl).elim
  | paintChat lineCount offsetY text => exact r.state.camera_paintChat _ _ _
  | playerMove direction => exact r.state.camera_walkHero _
  | setDemoSprite heroSprite backgroundAnim => exact r.state.camera_setDemoSprite _ _
  | showDecoSymbol frameIndex blinkCount => exact r.state.camera_showDecoSymbol _ _ _
  | screenBlink blinkCount color => exact r.state.camera_screenBlink _ _ _
  | setBlockShort blockX blockY blockId specialData => exact r.state.camera_setBlock _ _ _ _
  | setBlockLong blockX blockY blockId => exact r.state.camera_setBlock _ _ _ _
  | paintHint text => exact r.state.camera_paintHint _ _
  | _ => rfl

theorem camera_step {op : Operation}
    (h : ∀ x y frameCount, Instruction.moveCamera x y frameCount ∉ op.leaves) (path : OpPath)
    (r : Reel) : (step op path r).2.state.camera = r.state.camera :=
  (chained_visits op path r).preserves (motive := fun s ↦ s.camera = r.state.camera)
    (fun v hv hs ↦ by
      have hleaf : v.instruction ∈ op.leaves := by
        rw [← op.map_snd_leavesAt path]
        exact List.mem_map_of_mem (mem_leavesAt_of_mem_visits hv)
      exact (camera_stepLeaf (fun x y frameCount hpan ↦ h x y frameCount (hpan ▸ hleaf))
        v.path v.reel).trans hs)
    rfl

end Reel

namespace Visit

/-- Where the camera stood when the pan was begun. -/
def panOrigin (v : Visit) : Camera :=
  (if v.reel.progress.tick = 0 then none else v.reel.progress.panOrigin? v.path).getD
    v.reel.state.camera

theorem panOrigin_of_first {v : Visit} (h : v.reel.progress.tick = 0) :
    v.panOrigin = v.reel.state.camera := by
  rw [panOrigin, if_pos h, Option.getD_none]

theorem panOrigin_of_kept {v : Visit} {origin : Camera} (h : v.reel.progress.tick ≠ 0)
    (hkept : v.reel.progress.panOrigin? v.path = some origin) : v.panOrigin = origin := by
  rw [panOrigin, if_neg h, hkept, Option.getD_some]

/-- A pan goes on from its origin, and keeps it for its next step. -/
theorem result_of_pan {v : Visit} {x y frameCount : UInt16}
    (h : v.instruction = .moveCamera x y frameCount) :
    v.result.2.state.camera = v.panOrigin.between (.atBlock x y)
        (Reel.panProgress v.reel.progress.tick frameCount) ∧
      v.result.2.progress.panOrigin? v.path = some v.panOrigin := by
  simp only [result, h, Reel.stepLeaf, Reel.moveCamera, panOrigin]
  refine ⟨trivial, ?_⟩
  cases hknown : (if v.reel.progress.tick = 0 then none else v.reel.progress.panOrigin? v.path) with
  | none => simp [Progress.setPanOrigin, Progress.panOrigin?]
  | some origin =>
    split at hknown
    · cases hknown
    · exact hknown

end Visit

namespace Player

variable {p q q' : Player} {n : Nat}

/-- What is stepped next has either just begun, or was left undone in the tick before. -/
inductive Succession (q q' : Player) : Prop
  | afresh {index : Nat} (fresh : q'.reel.progress = { Progress.start with index := index })
  | again {op : Operation} (active : q.forest[q.index]? = some op)
    (running : (Reel.step op (.top q.index) q.reel).1.halt = none)
    (advance : (Reel.step op (.top q.index) q.reel).1.advance = false)
    (same : q' = resume { q with reel := { (Reel.step op (.top q.index) q.reel).2 with
      progress := (Reel.step op (.top q.index) q.reel).2.progress.wait } })
  | idle (none : q'.forest[q'.index]? = none)

theorem Follows.progress (h : q.Follows q') :
    q'.reel.progress = q.link.player.reel.progress := by
  cases h with
  | link goesOn same => rw [same]
  | tick resumed =>
    rw [resumed]
    rfl

theorem Follows.resumed (h : q.Follows q') (hspent : q.link.goesOn = false) :
    q' = q.link.player.resume := by
  cases h with
  | link goesOn same => cases hspent.symm.trans goesOn
  | tick resumed => exact resumed

theorem Follows.succession (h : q.Follows q') (hq' : q'.halted = none) :
    q.Succession q' := by
  cases q.linkCase with
  | idle active same =>
    have hresumed := h.resumed (by rw [same])
    rw [same] at hresumed
    rw [hresumed]
    exact .idle active
  | halt active halt same =>
    have hresumed := h.resumed (by rw [same])
    rw [same] at hresumed
    rw [hresumed] at hq'
    cases hq'
  | wait active running advance same =>
    have hresumed := h.resumed (by rw [same])
    rw [same] at hresumed
    exact .again active running advance hresumed
  | next active running advance lt same => exact .afresh (h.progress.trans (by rw [same]))
  | restart active running advance last same =>
    have hfresh : q'.reel.progress = { Progress.start with index := 0 } := by
      rw [h.progress, same]
      rfl
    exact .afresh hfresh

/-- A leaf that is stepped after the first tick of its operation was stepped in the tick before, and
finds its pan origin as it left it. -/
theorem Succession.exists_visit (h : q.Succession q') (htick : q'.reel.progress.tick ≠ 0)
    {v : Visit} (hv : v ∈ q'.visits) :
    q'.index = q.index ∧ q'.ticks = q.ticks + 1 ∧
      q'.reel.progress.tick = q.reel.progress.tick + 1 ∧
        ∃ u ∈ q.visits, u.leaf = v.leaf ∧
          v.reel.progress.panOrigin? v.path = u.result.2.progress.panOrigin? u.path := by
  cases h with
  | idle none =>
    rw [visits, none] at hv
    cases hv
  | afresh fresh => exact (htick (congrArg Progress.tick fresh)).elim
  | @again op active running advance same =>
    have hkeeps := Reel.keeps_step op (.top q.index) q.reel
    have hprogress : q'.reel.progress = (Reel.step op (.top q.index) q.reel).2.progress.wait := by
      rw [same]
      rfl
    have hindex : q'.index = q.index := (congrArg Progress.index hprogress).trans hkeeps.index
    obtain ⟨op', hop', hv⟩ := exists_active_of_mem_visits hv
    obtain rfl : op = op' := by
      have hforest : q'.forest = q.forest := by
        rw [same]
        rfl
      rw [hforest, hindex, active] at hop'
      exact Option.some.inj hop'
    have hfound := Reel.foundBy_of_mem_visits hv
    rw [hindex] at hv hfound
    obtain ⟨hawaited, -, horigin⟩ := hfound
    rw [hprogress] at hawaited horigin
    obtain ⟨u, hu, hleaf, hleft⟩ := Reel.exists_visit_of_awaits running advance
      (Reel.mem_leavesAt_of_mem_visits hv) hawaited
    have hpath : u.path = v.path := congrArg Prod.fst hleaf
    refine ⟨hindex, by rw [same]; rfl, ?_, u, visits_of_getElem? active ▸ hu, hleaf, ?_⟩
    · rw [hprogress, Progress.wait, hkeeps.tick]
    · rw [horigin, ← hleft.origin, hpath]
      rfl

/-- A pan goes back to the moment at which its operation was begun. -/
theorem exists_begun_pan {forest : List Operation} {state : State}
    (hstart : start forest state = .ok p) {k : Nat} {moment : Player}
    (hmoment : (moments n p)[k]? = some moment) {v : Visit} (hv : v ∈ moment.visits)
    {x y frameCount : UInt16} (hpan : v.instruction = .moveCamera x y frameCount) :
    moment.reel.progress.tick.toNat ≤ k ∧
      ∃ begun, (moments n p)[k - moment.reel.progress.tick.toNat]? = some begun ∧
        begun.reel.progress = { Progress.start with index := moment.index } ∧
        begun.ticks + moment.reel.progress.tick.toNat = moment.ticks ∧
        ∃ u ∈ begun.visits, u.leaf = v.leaf ∧ u.reel.state.camera = v.panOrigin := by
  obtain ⟨-, -, hp⟩ := start_eq_ok hstart
  have hsize := forest_pos_of_start hstart
  have hmem := List.mem_of_getElem? hmoment
  induction ht : moment.reel.progress.tick.toNat generalizing k moment v with
  | zero =>
    have htick : moment.reel.progress.tick = 0 := UInt32.toNat_inj.1 ht
    have hfresh := (paced_of_mem_moments hstart hmem).fresh (halted_of_mem_moments hmem) htick
    exact ⟨Nat.zero_le k, moment, hmoment, hfresh, rfl, v, hv, rfl,
      (Visit.panOrigin_of_first ((tick_of_mem_visits hv).trans htick)).symm⟩
  | succ t ih =>
    have htick : moment.reel.progress.tick ≠ 0 := fun hzero ↦ by
      rw [hzero] at ht
      cases ht
    cases k with
    | zero =>
      -- the first moment of a run is in its first tick
      have hhead : moment ∈ (moments n p).head? := List.head?_eq_getElem?.trans hmoment
      rw [head?_moments hsize hhead, hp] at htick
      exact (htick rfl).elim
    | succ k =>
      have hk : k < (moments n p).length :=
        Nat.lt_of_succ_lt (List.getElem?_eq_some_iff.1 hmoment).1
      have hbefore : (moments n p)[k]? = some (moments n p)[k] := List.getElem?_eq_getElem hk
      have hmem' := List.mem_of_getElem? hbefore
      obtain ⟨hindex, hticks, hcount, u, hu, hleaf, hkept⟩ :=
        ((follows_of_getElem? hsize hbefore hmoment).succession
          (halted_of_mem_moments hmem)).exists_visit htick hv
      have hpan' : u.instruction = .moveCamera x y frameCount :=
        (congrArg Prod.snd hleaf).trans hpan
      have hlast : (moments n p)[k].reel.progress.tick.toNat = t := by
        rw [hcount, (paced_of_mem_moments hstart hmem').toNat_tick_add_one] at ht
        exact Nat.succ.inj ht
      obtain ⟨hle, begun, hbegun, hfresh, hsince, w, hw, hsame, horigin⟩ :=
        ih hbefore hu hpan' hmem' hlast
      have horigin' : v.panOrigin = u.panOrigin :=
        Visit.panOrigin_of_kept (fun hzero ↦ htick ((tick_of_mem_visits hv).symm.trans hzero))
          (hkept.trans (Visit.result_of_pan hpan').2)
      rw [Nat.add_sub_add_right]
      exact ⟨Nat.succ_le_succ hle, begun, hbegun, hindex ▸ hfresh, by omega, w, hw,
        hsame.trans hleaf, horigin.trans horigin'.symm⟩

/-- Each step of a pan, at whatever depth, takes the camera from where it stood when the same pan
was stepped in the first tick of its operation, `t` moments before, the part of the way that is due
in its tick `t`: none of it if the pan has no frames, all of it if it has one, and `t / (n - 1)` of
it, up to all of it, if it has `n`.  What other pans did since then, inside or outside of the same
block, does not count, and nothing but pans moves the camera.  The viewport may be of any size, and
playback may halt. -/
theorem pans_keep_their_origin {forest : List Operation} {state : State}
    (hstart : start forest state = .ok p) :
    (∀ {n k : Nat} {moment : Player}, (moments n p)[k]? = some moment → ∀ v ∈ moment.visits,
      ∀ {x y frameCount : UInt16}, v.instruction = .moveCamera x y frameCount →
        let t := moment.reel.progress.tick
        t.toNat ≤ k ∧ ∃ begun, (moments n p)[k - t.toNat]? = some begun ∧
          begun.reel.progress = { Progress.start with index := moment.index } ∧
          begun.ticks + t.toNat = moment.ticks ∧
          ∃ u ∈ begun.visits, u.leaf = v.leaf ∧ ∃ part : Float,
            v.result.2.state.camera = u.reel.state.camera.between (.atBlock x y) part ∧
            (frameCount = 0 → part = 0) ∧
            (frameCount = 1 → part = 1) ∧
            (1 < frameCount → part = min (t.toFloat / (frameCount - 1).toFloat) 1)) ∧
      ∀ (op : Operation) (path : OpPath) (r : Reel),
        (∀ x y frameCount, Instruction.moveCamera x y frameCount ∉ op.leaves) →
          (Reel.step op path r).2.state.camera = r.state.camera := by
  refine ⟨fun {n k moment} hmoment v hv {x y frameCount} hpan ↦ ?_,
    fun op path r h ↦ Reel.camera_step h path r⟩
  obtain ⟨hle, begun, hbegun, hfresh, hsince, u, hu, hsame, horigin⟩ :=
    exists_begun_pan hstart hmoment hv hpan
  refine ⟨hle, begun, hbegun, hfresh, hsince, u, hu, hsame, Reel.panProgress _ frameCount, ?_,
    Reel.panProgress_cases _ frameCount⟩
  rw [(Visit.result_of_pan hpan).1, ← horigin, tick_of_mem_visits hv]

/-- Pans of no frames, of one, of six and of three. -/
def fourPans : List Operation :=
  [.block 4 [.leaf (.moveCamera 4 5 0), .leaf (.moveCamera 9 2 1),
    .block 1 [.leaf (.moveCamera 7 8 6)], .leaf (.moveCamera 0 0 3)]]

/-- Four pans at once.  The one in a block of its own goes on when the others are done: in its tick 3
the camera stands where the last of them has taken it, and is taken three fifths of the way from
where the second one had left it. -/
theorem pans_keep_their_origin_of_siblings :
    ∃ p begun late,
      start fourPans (.initial {} blankStage (.solid 24 30 0) ∅) = .ok p ∧
      (moments 4 p)[0]? = some begun ∧ (moments 4 p)[3]? = some late ∧
      (∃ v ∈ begun.visits, v.leaf = ([0, 0], .moveCamera 4 5 0) ∧
        v.result.2.state.camera = (Camera.atBlock 0 0).between (.atBlock 4 5) 0) ∧
      (∃ v ∈ begun.visits, v.leaf = ([0, 1], .moveCamera 9 2 1) ∧
        v.result.2.state.camera = (Camera.atBlock 0 0).between (.atBlock 9 2) 1) ∧
      ∃ v ∈ late.visits, v.leaf = ([0, 2, 0], .moveCamera 7 8 6) ∧
        v.reel.state.camera = .atBlock 0 0 ∧
        v.result.2.state.camera = (Camera.atBlock 9 2).between (.atBlock 7 8) 0.6 ∧
        v.result.2.state.camera = ⟨.ofFloat 7.8, .ofFloat 5.6⟩ := by
  obtain ⟨p, hstart, hfirst, hfourth⟩ : ∃ p,
      start fourPans (.initial {} blankStage (.solid 24 30 0) ∅) = .ok p ∧
      ((moments 4 p)[0]?.map fun q ↦ (q.reel.progress.tick,
        q.visits.map fun v ↦ (v.leaf, v.reel.state.camera))) =
          some (0, [(([0, 0], .moveCamera 4 5 0), .atBlock 0 0),
            (([0, 1], .moveCamera 9 2 1), .atBlock 0 0),
            (([0, 2, 0], .moveCamera 7 8 6), .atBlock 9 2),
            (([0, 3], .moveCamera 0 0 3), .atBlock 9 2)]) ∧
      ((moments 4 p)[3]?.map fun q ↦ (q.reel.progress.tick,
        q.visits.map fun v ↦ (v.leaf, v.reel.state.camera))) =
          some (3, [(([0, 2, 0], .moveCamera 7 8 6), .atBlock 0 0)]) :=
    ⟨_, rfl, by decide +kernel, by decide +kernel⟩
  obtain ⟨begun, hbegun, hfirst⟩ := Option.map_eq_some_iff.1 hfirst
  obtain ⟨late, hlate, hfourth⟩ := Option.map_eq_some_iff.1 hfourth
  obtain ⟨hzero, hfirst⟩ := Prod.mk.inj hfirst
  obtain ⟨hthree, hfourth⟩ := Prod.mk.inj hfourth
  have hpan {k : Nat} {q : Player} (hq : (moments 4 p)[k]? = some q)
      (htick : q.reel.progress.tick.toNat = k) (path : OpPath) (x y n : UInt16) (found : Camera)
      (hfound : ((path, .moveCamera x y n), found) ∈
        q.visits.map fun v ↦ (v.leaf, v.reel.state.camera)) :
      ∃ v ∈ q.visits, v.leaf = (path, .moveCamera x y n) ∧ v.reel.state.camera = found ∧
        ∃ origin part, ((path, .moveCamera x y n), origin) ∈
            begun.visits.map (fun u ↦ (u.leaf, u.reel.state.camera)) ∧
          v.result.2.state.camera = origin.between (.atBlock x y) part ∧ (n = 0 → part = 0) ∧
          (n = 1 → part = 1) ∧
          (1 < n → part = min (q.reel.progress.tick.toFloat / (n - 1).toFloat) 1) := by
    obtain ⟨v, hv, hfound⟩ := List.mem_map.1 hfound
    obtain ⟨hleaf, hcamera⟩ := Prod.mk.inj hfound
    obtain ⟨-, first, hbegun', -, -, u, hu, hsame, part, hpart⟩ :=
      (pans_keep_their_origin hstart).1 hq v hv (congrArg Prod.snd hleaf)
    rw [htick, Nat.sub_self] at hbegun'
    obtain rfl : begun = first := Option.some.inj (hbegun.symm.trans hbegun')
    exact ⟨v, hv, hleaf, hcamera, _, part, List.mem_map.2 ⟨u, hu, by rw [hsame, hleaf]⟩, hpart⟩
  simp only [hfirst] at hpan
  refine ⟨p, begun, late, hstart, hbegun, hlate, ?_, ?_, ?_⟩
  · obtain ⟨v, hv, hleaf, -, origin, part, horigin, hcamera, hnone, -⟩ :=
      hpan hbegun (by rw [hzero]; rfl) [0, 0] 4 5 0 (.atBlock 0 0) (by rw [hfirst]; simp)
    obtain rfl : origin = .atBlock 0 0 := by simpa using horigin
    exact ⟨v, hv, hleaf, hnone rfl ▸ hcamera⟩
  · obtain ⟨v, hv, hleaf, -, origin, part, horigin, hcamera, -, hsingle, -⟩ :=
      hpan hbegun (by rw [hzero]; rfl) [0, 1] 9 2 1 (.atBlock 0 0) (by rw [hfirst]; simp)
    obtain rfl : origin = .atBlock 0 0 := by simpa using horigin
    exact ⟨v, hv, hleaf, hsingle rfl ▸ hcamera⟩
  · obtain ⟨v, hv, hleaf, hfound, origin, part, horigin, hcamera, -, -, hmany⟩ :=
      hpan hlate (by rw [hthree]; rfl) [0, 2, 0] 7 8 6 (.atBlock 0 0) (by rw [hfourth]; simp)
    obtain rfl : origin = .atBlock 9 2 := by simpa using horigin
    have hpart : part = 0.6 := by
      rw [hmany (by decide), hthree]
      decide +kernel
    rw [hpart] at hcamera
    exact ⟨v, hv, hleaf, hfound, hcamera, hcamera.trans (by decide +kernel)⟩

end Player

end DemoReel.Playback
