import DemoReel.Proofs.Playback.Chain
import DemoReel.Proofs.Playback.Pass
import DemoReel.Proofs.Playback.Rounds

/-!
# The schedule of a demo

Stepping the active operation uses up one of its frames, and an operation without frames is passed
over at no cost.  The bound on the length of a chain never cuts it short: as long as some operation
takes a frame, it comes up before every operation has been stepped.
-/

namespace DemoReel.Playback.Player

/-- The frames that the top-level operations take. -/
def frames (width : Nat) (p : Player) : List Nat := p.forest.toList.map (Operation.frames width)

/-- The operation is stepped next, in a tick up to its last one. -/
structure Underway (width : Nat) (p : Player) (op : Operation) : Prop where
  active : p.forest[p.index]? = some op
  running : p.halted = none
  config : p.reel.state.config.viewportWidth.toNat = width
  tick_le : p.reel.progress.tick.toNat ≤ op.lastTick width
  tracked : Tracked width p.reel.progress.tick.toNat p.reel.progress.isLatched op (.top p.index)

variable {width : Nat} {p p' : Player} {op : Operation}

@[simp] theorem length_frames (width : Nat) (p : Player) :
    (p.frames width).length = p.forest.size := by
  simp [frames]

theorem Underway.index_lt (h : p.Underway width op) : p.index < p.forest.size :=
  (Array.getElem?_eq_some_iff.1 h.active).1

theorem Underway.getD_frames (h : p.Underway width op) :
    (p.frames width).getD p.index 0 = op.frames width := by
  have hactive := h.active
  rw [← Array.getElem?_toList] at hactive
  simp [frames, List.getD_eq_getElem?_getD, hactive]

/-- An operation that starts afresh is under way. -/
theorem exists_underway (hindex : p.index < p.forest.size) (hrunning : p.halted = none)
    (hconfig : p.reel.state.config.viewportWidth.toNat = width)
    (htick : p.reel.progress.tick = 0) (hlatched : ∀ q, p.reel.progress.isLatched q = false) :
    ∃ op, p.Underway width op := by
  refine ⟨p.forest[p.index], Array.getElem?_eq_getElem hindex, hrunning, hconfig, ?_, ?_⟩
  · rw [htick]
    exact Nat.zero_le _
  · rw [htick]
    exact tracked_zero hlatched _ _

/-! ## One link -/

/-- The outcome of the operation under way is on time, unless it halts. -/
theorem Underway.onTime (hwidth : width ≤ 2 ^ 30) (h : p.Underway width op)
    (hrun : p.link.player.halted = none) :
    (Reel.step op (.top p.index) p.reel).1.halt = none ∧
      (Reel.step op (.top p.index) p.reel).1.OnTime p.reel.progress.tick.toNat
        (op.lastTick width) op.hasInstantLeaf ∧
      (p.reel.progress.tick.toNat < op.lastTick width →
        Tracked width (p.reel.progress.tick.toNat + 1)
          (Reel.step op (.top p.index) p.reel).2.progress.isLatched op (.top p.index)) := by
  have hhalt : (Reel.step op (.top p.index) p.reel).1.halt = none := by
    cases hhalt : (Reel.step op (.top p.index) p.reel).1.halt with
    | none => rfl
    | some error =>
      rw [link_of_getElem? h.active, settle_of_halt hhalt] at hrun
      cases hrun
  exact ⟨hhalt, Reel.onTime_step hwidth h.config rfl h.tick_le h.tracked hhalt⟩

theorem link_of_lt (hwidth : width ≤ 2 ^ 30) (h : p.Underway width op)
    (hlt : p.reel.progress.tick.toNat < op.lastTick width)
    (hrun : p.link.player.halted = none) :
    p.link.goesOn = false ∧ p.link.restarted = false ∧ p.link.player.forest = p.forest ∧
      p.link.player.index = p.index ∧
      p.link.player.reel.progress.tick.toNat = p.reel.progress.tick.toNat + 1 ∧
      p.link.player.Underway width op := by
  obtain ⟨hhalt, honTime, hnext⟩ := h.onTime hwidth hrun
  have hadvance : (Reel.step op (.top p.index) p.reel).1.advance = false := by
    rw [honTime.advance, decide_eq_false (Nat.ne_of_lt hlt)]
  have hkeeps := Reel.keeps_step op (.top p.index) p.reel
  have hconfig := (Reel.redraws_step op (.top p.index) p.reel).config
  have hlast := op.lastTick_lt hwidth
  have hlink : p.link = ⟨{ p with reel :=
      { (Reel.step op (.top p.index) p.reel).2 with
        progress := (Reel.step op (.top p.index) p.reel).2.progress.wait } }, false, false⟩ :=
    (link_of_getElem? h.active).trans (settle_of_wait hhalt hadvance)
  have hindex : p.link.player.index = p.index := by
    rw [hlink]
    exact hkeeps.index
  have htick : p.link.player.reel.progress.tick.toNat = p.reel.progress.tick.toNat + 1 := by
    have hone : (1 : UInt32).toNat = 1 := by decide
    rw [hlink]
    dsimp only [Progress.wait]
    rw [UInt32.toNat_add, hkeeps.tick, hone]
    omega
  refine ⟨by rw [hlink], by rw [hlink], by rw [hlink], hindex, htick, ?_, hrun, ?_, ?_, ?_⟩
  · rw [hindex, hlink]
    exact h.active
  · rw [hlink]
    exact hconfig ▸ h.config
  · rw [htick]
    exact hlt
  · rw [htick, hindex, hlink]
    exact hnext hlt

/-- The operation is done: the next one starts afresh, or else the first one with the demo. -/
theorem link_of_last (hwidth : width ≤ 2 ^ 30) (h : p.Underway width op)
    (hlast : p.reel.progress.tick.toNat = op.lastTick width)
    (hrun : p.link.player.halted = none) :
    p.link.goesOn = op.isInstant width ∧
      p.link.restarted = decide (p.index + 1 = p.forest.size) ∧
      p.link.player.forest = p.forest ∧
      p.link.player.index = (if p.index + 1 < p.forest.size then p.index + 1 else 0) ∧
      p.link.player.reel.progress.tick = 0 ∧ ∃ op', p.link.player.Underway width op' := by
  obtain ⟨-, honTime, -⟩ := h.onTime hwidth hrun
  have hadvance : (Reel.step op (.top p.index) p.reel).1.advance = true := by
    rw [honTime.advance, decide_eq_true hlast]
  have hinstant : (!(Reel.step op (.top p.index) p.reel).1.consumesTick) = op.isInstant width := by
    rw [honTime.consumesTick, Operation.isInstant, ← hlast]
    simp
  have hconfig : p.link.player.reel.state.config.viewportWidth.toNat = width :=
    (redraws_link p).config ▸ h.config
  have hunderway (hindex : p.link.player.index < p.link.player.forest.size) :=
    exists_underway hindex hrun hconfig
  cases p.linkCase with
  | idle none same => cases h.active.symm.trans none
  | halt active halt same =>
    rw [same] at hrun
    cases hrun
  | wait active running advance same =>
    obtain rfl := Option.some.inj (h.active.symm.trans active)
    cases hadvance.symm.trans advance
  | next active running advance lt same =>
    obtain rfl := Option.some.inj (h.active.symm.trans active)
    rw [same] at hrun hunderway ⊢
    dsimp only at hrun
    rw [if_pos lt, decide_eq_false (Nat.ne_of_lt lt)]
    refine ⟨?_, rfl, rfl, rfl, rfl, hunderway lt rfl Progress.isLatched_start⟩
    rw [hrun]
    exact hinstant
  | restart active running advance last same =>
    obtain rfl := Option.some.inj (h.active.symm.trans active)
    rw [same] at hrun hunderway ⊢
    dsimp only at hrun hunderway
    rw [hrun] at hunderway
    rw [if_neg (by omega), decide_eq_true last, hrun]
    exact ⟨hinstant, rfl, rfl, rfl, rfl,
      hunderway (Nat.zero_lt_of_lt h.index_lt) rfl Progress.isLatched_start⟩

/-! ## Frames along a chain -/

/-- The player has come to the other one with so many restarts, and frames were used on the way. -/
structure Reaches (width : Nat) (p p' : Player) (restarts used : Nat) : Prop where
  forest : p'.forest = p.forest
  underway : ∃ op, p'.Underway width op
  count : restarts * (p.frames width).sum + framesBefore (p.frames width) p'.index +
      p'.reel.progress.tick.toNat =
    framesBefore (p.frames width) p.index + p.reel.progress.tick.toNat + used

theorem Reaches.trans {p'' : Player} {restarts restarts' used used' : Nat}
    (h : Reaches width p p' restarts used) (h' : Reaches width p' p'' restarts' used') :
    Reaches width p p'' (restarts + restarts') (used + used') where
  forest := h'.forest.trans h.forest
  underway := h'.underway
  count := by
    have hframes : p'.frames width = p.frames width := by rw [frames, h.forest, frames]
    have hcount := h.count
    have hcount' := h'.count
    rw [hframes] at hcount'
    rw [Nat.add_mul]
    omega

/-- The last frame went to the operation under the cursor, or to the one stepped before it. -/
def LastFrame (width : Nat) (p : Player) : Prop :=
  0 < p.reel.progress.tick.toNat ∨
    0 < (p.frames width).getD (previous (p.frames width) p.index) 0

/-- A link uses a frame, unless it goes on; then the operation is one that takes no frame. -/
theorem reaches_link (hwidth : width ≤ 2 ^ 30) (h : p.Underway width op)
    (hrun : p.link.player.halted = none) :
    Reaches width p p.link.player p.link.restarted.toNat (if p.link.goesOn then 0 else 1) := by
  have hframes := framesBefore_succ (p.frames width) p.index
  rw [h.getD_frames, Operation.frames] at hframes
  obtain hlt | hlast := Nat.lt_or_eq_of_le h.tick_le
  · obtain ⟨hgoesOn, hrestarted, hforest, hindex, htick, hunderway⟩ :=
      link_of_lt hwidth h hlt hrun
    refine ⟨hforest, ⟨op, hunderway⟩, ?_⟩
    rw [hgoesOn, hrestarted, hindex, htick]
    simp [Nat.add_assoc]
  · obtain ⟨hgoesOn, hrestarted, hforest, hindex, htick, hunderway⟩ :=
      link_of_last hwidth h hlast hrun
    refine ⟨hforest, hunderway, ?_⟩
    have hused : framesBefore (p.frames width) p.index + p.reel.progress.tick.toNat +
        (if p.link.goesOn then 0 else 1) = framesBefore (p.frames width) (p.index + 1) := by
      rw [hframes, hgoesOn]
      cases hinstant : op.isInstant width with
      | true =>
        have hzero : op.lastTick width = 0 := Operation.lastTick_of_isInstant hinstant
        simp [hlast, hzero]
      | false => simp [hlast, Nat.add_assoc]
    have htick' : p.link.player.reel.progress.tick.toNat = 0 := by
      rw [htick]
      rfl
    have hzero : framesBefore (p.frames width) 0 = 0 := by simp [framesBefore]
    rw [hused, hindex, hrestarted, htick']
    split
    · next hlt =>
      rw [decide_eq_false (by omega)]
      simp
    · next hlt =>
      have hsize : p.index + 1 = (p.frames width).length := by
        have hinside := h.index_lt
        rw [length_frames]
        omega
      rw [← length_frames width p, decide_eq_true hsize, hsize, framesBefore_length, hzero]
      simp

theorem link_of_goesOn (hwidth : width ≤ 2 ^ 30) (h : p.Underway width op)
    (hgoesOn : p.link.goesOn = true) :
    (p.frames width).getD p.index 0 = 0 ∧
      p.link.player.index = following (p.frames width) p.index := by
  have hrun := running_of_goesOn hgoesOn
  obtain hlt | hlast := Nat.lt_or_eq_of_le h.tick_le
  · have hstays := (link_of_lt hwidth h hlt hrun).1
    rw [hgoesOn] at hstays
    cases hstays
  · obtain ⟨hinstant, -, -, hindex, -⟩ := link_of_last hwidth h hlast hrun
    rw [hgoesOn] at hinstant
    rw [h.getD_frames, Operation.frames, if_pos hinstant.symm, hindex, following, length_frames]
    exact ⟨rfl, rfl⟩

theorem lastFrame_link (hwidth : width ≤ 2 ^ 30) (h : p.Underway width op)
    (hstops : p.link.goesOn = false) (hrun : p.link.player.halted = none) :
    p.link.player.LastFrame width := by
  obtain hlt | hlast := Nat.lt_or_eq_of_le h.tick_le
  · obtain ⟨-, -, -, -, htick, -⟩ := link_of_lt hwidth h hlt hrun
    exact .inl (by omega)
  · obtain ⟨hinstant, -, hforest, hindex, -⟩ := link_of_last hwidth h hlast hrun
    rw [hstops] at hinstant
    apply Or.inr
    have hnext : p.link.player.index = following (p.frames width) p.index := by
      rw [hindex, following, length_frames]
    rw [frames, hforest, ← frames, hnext,
      previous_following (by simpa using h.index_lt), h.getD_frames, Operation.frames, ← hinstant]
    exact Nat.succ_pos _

/-- A chain that is long enough uses one frame. -/
theorem reaches_stepChain (hwidth : width ≤ 2 ^ 30) {budget : Nat} {looped : Bool}
    (h : p.Underway width op) (hwithin : FrameWithin (p.frames width) p.index budget)
    (hrun : (stepChain budget p looped).1.halted = none) :
    Reaches width p (stepChain budget p looped).1 (chainRestarts budget p) 1 ∧
      (stepChain budget p looped).1.LastFrame width := by
  induction budget generalizing p op looped with
  | zero => exact (not_frameWithin_zero (by simpa using h.index_lt) hwithin).elim
  | succ budget ih =>
    rw [stepChain_succ] at hrun ⊢
    rw [chainRestarts]
    cases hgoesOn : p.link.goesOn with
    | false =>
      rw [hgoesOn] at hrun
      have hreaches := reaches_link hwidth h hrun
      rw [hgoesOn] at hreaches
      exact ⟨hreaches, lastFrame_link hwidth h hgoesOn hrun⟩
    | true =>
      rw [hgoesOn] at hrun
      have hreaches := reaches_link hwidth h (running_of_goesOn hgoesOn)
      rw [hgoesOn] at hreaches
      obtain ⟨op', hunderway⟩ := hreaches.underway
      obtain ⟨hzero, hindex⟩ := link_of_goesOn hwidth h hgoesOn
      have hframes : p.link.player.frames width = p.frames width := by
        rw [frames, hreaches.forest, frames]
      have hnext := hwithin.following (by simpa using h.index_lt) hzero
      rw [← hindex, ← hframes] at hnext
      obtain ⟨hrest, hlastFrame⟩ := ih hunderway hnext hrun
      exact ⟨hreaches.trans hrest, hlastFrame⟩

/-- Where no operation takes a frame, a chain over all of them ends where it began. -/
theorem stepChain_of_sum_eq_zero (hwidth : width ≤ 2 ^ 30) {budget : Nat} {looped : Bool}
    (h : p.Underway width op) (hsum : (p.frames width).sum = 0)
    (hbudget : p.index + budget = p.forest.size)
    (hrun : (stepChain budget p looped).1.halted = none) :
    (stepChain budget p looped).1.forest = p.forest ∧
      (∃ op', (stepChain budget p looped).1.Underway width op') ∧
      (stepChain budget p looped).1.index = 0 ∧
      (stepChain budget p looped).1.reel.progress.tick = 0 ∧ chainRestarts budget p = 1 := by
  have hinside := h.index_lt
  induction budget generalizing p op looped with
  | zero => omega
  | succ budget ih =>
    have hinstant : op.isInstant width = true := by
      have hmem : op.frames width ∈ p.frames width :=
        List.mem_map_of_mem (Array.mem_toList_iff.2 (Array.mem_of_getElem? h.active))
      have hzero := List.sum_eq_zero_iff_forall_eq_nat.1 hsum _ hmem
      rw [Operation.frames] at hzero
      exact Decidable.byContradiction fun hne ↦ by simp [hne] at hzero
    have hlast : p.reel.progress.tick.toNat = op.lastTick width := by
      have hle := h.tick_le
      rw [Operation.lastTick_of_isInstant hinstant] at hle ⊢
      omega
    obtain ⟨hgoesOn, hrestarted, hforest, hindex, htick, op', hunderway⟩ :=
      link_of_last hwidth h hlast (running_link_of_stepChain hrun)
    rw [hinstant] at hgoesOn
    have hframes : p.link.player.frames width = p.frames width := by
      rw [frames, hforest, frames]
    rw [stepChain_succ, if_pos hgoesOn] at hrun ⊢
    rw [chainRestarts, if_pos hgoesOn]
    split at hindex
    · next hlt =>
      have hrest := ih hunderway (hframes ▸ hsum) (by rw [hindex, hforest]; omega) hrun
        hunderway.index_lt
      have hnone : p.link.restarted.toNat = 0 := by
        rw [hrestarted, decide_eq_false (by omega), Bool.toNat_false]
      rw [hnone, Nat.zero_add]
      exact ⟨hrest.1.trans hforest, hrest.2⟩
    · next hlt =>
      obtain rfl : budget = 0 := by omega
      rw [hrestarted, decide_eq_true (by omega)]
      exact ⟨hforest, ⟨op', hunderway⟩, hindex, htick, rfl⟩

/-! ## Ticks and runs -/

theorem Underway.tick_lt (h : p.Underway width op) :
    p.reel.progress.tick.toNat = 0 ∨
      p.reel.progress.tick.toNat < (p.frames width).getD p.index 0 := by
  have hle := h.tick_le
  rw [h.getD_frames, Operation.frames]
  cases hinstant : op.isInstant width with
  | true =>
    rw [Operation.lastTick_of_isInstant hinstant] at hle
    exact .inl (Nat.le_zero.1 hle)
  | false => exact .inr (Nat.lt_succ_of_le hle)

/-- From one place on the schedule to the next one. -/
theorem Reaches.placed {n restarts more : Nat} (h : Reaches width p p' more 1)
    (hlastFrame : p'.LastFrame width)
    (hplaced : Placed (p.frames width) n restarts p.index p.reel.progress.tick.toNat) :
    Placed (p.frames width) (n + 1) (restarts + more) p'.index p'.reel.progress.tick.toNat := by
  obtain ⟨op, hunderway⟩ := h.underway
  have hframes : p'.frames width = p.frames width := by rw [frames, h.forest, frames]
  have hinside := hunderway.index_lt
  have htick := hunderway.tick_lt
  have hcount := hplaced.count
  have hcount' := h.count
  rw [hframes] at htick
  rw [LastFrame, hframes] at hlastFrame
  refine ⟨?_, htick, ?_, .inr hlastFrame⟩
  · rwa [length_frames, ← h.forest]
  · rw [Nat.add_mul]
    omega

/-- Handing over commands does not touch the course of the demo. -/
theorem Underway.handOver (h : p.Underway width op) : p.handOver.Underway width op :=
  ⟨h.active, h.running, h.config, h.tick_le, h.tracked⟩

/-- Nor does counting the tick. -/
theorem Underway.count (h : p.Underway width op) (ticks : Nat) :
    Underway width { p with ticks } op :=
  ⟨h.active, h.running, h.config, h.tick_le, h.tracked⟩

/-- If frames are taken at all, a tick uses one. -/
theorem reaches_tick (hwidth : width ≤ 2 ^ 30) (h : p.Underway width op)
    (hsum : 0 < (p.frames width).sum) (hrun : p.tick.2.halted = none) :
    Reaches width p p.tick.2 p.tickRestarts 1 ∧ p.tick.2.LastFrame width := by
  have hwithin : FrameWithin (p.frames width) p.index p.forest.size := by
    rw [← length_frames width p]
    exact frameWithin_length hsum
  rw [tick_of_running h.running] at hrun ⊢
  rw [tickRestarts_of_running h.running]
  obtain ⟨hreaches, hlastFrame⟩ := reaches_stepChain hwidth (h.count (p.ticks + 1)) hwithin hrun
  exact ⟨⟨hreaches.forest, hreaches.underway.imp fun _ ↦ .handOver, hreaches.count⟩, hlastFrame⟩

/-- Where no operation takes a frame, a tick is a whole pass. -/
theorem tick_of_sum_eq_zero (hwidth : width ≤ 2 ^ 30) (h : p.Underway width op)
    (hsum : (p.frames width).sum = 0) (hindex : p.index = 0) (hrun : p.tick.2.halted = none) :
    p.tick.2.forest = p.forest ∧ (∃ op', p.tick.2.Underway width op') ∧ p.tick.2.index = 0 ∧
      p.tick.2.reel.progress.tick = 0 ∧ p.tickRestarts = 1 := by
  rw [tick_of_running h.running] at hrun ⊢
  rw [tickRestarts_of_running h.running]
  have hbudget : p.index + p.forest.size = p.forest.size := by omega
  obtain ⟨hforest, hunderway, hpass⟩ :=
    stepChain_of_sum_eq_zero hwidth (h.count (p.ticks + 1)) hsum hbudget hrun
  exact ⟨hforest, hunderway.imp fun _ ↦ .handOver, hpass⟩

/-- What holds of a player when its first tick is still to come. -/
structure Fresh (width : Nat) (p : Player) : Prop where
  underway : ∃ op, p.Underway width op
  index : p.index = 0
  tick : p.reel.progress.tick = 0

theorem fresh_start {forest : List Operation} {state : State}
    (h : start forest state = .ok p) :
    p.forest = forest.toArray ∧ p.Fresh state.config.viewportWidth.toNat := by
  obtain ⟨hforest, -, rfl⟩ := start_eq_ok h
  refine ⟨rfl, exists_underway ?_ rfl ?_ rfl Progress.isLatched_start, rfl, rfl⟩
  · exact List.length_pos_iff.2 hforest
  · exact congrArg (fun config ↦ config.viewportWidth.toNat) state.redraws_resetWorld.config

theorem placed_run (hwidth : width ≤ 2 ^ 30) (hfresh : p.Fresh width)
    (hsum : 0 < (p.frames width).sum) {n : Nat} (hrun : (p.run n).2.halted = none) :
    (p.run n).2.forest = p.forest ∧ (∃ op, (p.run n).2.Underway width op) ∧
      Placed (p.frames width) n (p.restarts n) (p.run n).2.index
        (p.run n).2.reel.progress.tick.toNat := by
  induction n with
  | zero =>
    obtain ⟨op, hunderway⟩ := hfresh.underway
    refine ⟨rfl, ⟨op, hunderway⟩, ?_⟩
    have hinside := hunderway.index_lt
    have hindex : (p.run 0).2.index = 0 := hfresh.index
    have htick : (p.run 0).2.reel.progress.tick = 0 := hfresh.tick
    rw [hindex, htick]
    exact .zero (by rw [length_frames]; omega)
  | succ n ih =>
    rw [run_succ] at hrun ⊢
    obtain ⟨hforest, ⟨op, hunderway⟩, hplaced⟩ := ih (halted_eq_none_of_tick hrun)
    have hframes : (p.run n).2.frames width = p.frames width := by rw [frames, hforest, frames]
    rw [← hframes] at hsum hplaced
    obtain ⟨hreaches, hlastFrame⟩ := reaches_tick hwidth hunderway hsum hrun
    have hnext := hreaches.placed hlastFrame hplaced
    rw [hframes] at hnext
    exact ⟨hreaches.forest.trans hforest, hreaches.underway, hnext⟩

theorem run_of_sum_eq_zero (hwidth : width ≤ 2 ^ 30) (hfresh : p.Fresh width)
    (hsum : (p.frames width).sum = 0) {n : Nat} (hrun : (p.run n).2.halted = none) :
    (p.run n).2.forest = p.forest ∧ (p.run n).2.Fresh width ∧ p.restarts n = n := by
  induction n with
  | zero => exact ⟨rfl, hfresh, rfl⟩
  | succ n ih =>
    rw [run_succ] at hrun ⊢
    obtain ⟨hforest, ⟨⟨op, hunderway⟩, hindex, htick⟩, hrestarts⟩ :=
      ih (halted_eq_none_of_tick hrun)
    have hframes : (p.run n).2.frames width = p.frames width := by rw [frames, hforest, frames]
    rw [← hframes] at hsum
    obtain ⟨hforest', hunderway', hindex', htick', hone⟩ :=
      tick_of_sum_eq_zero hwidth hunderway hsum hindex hrun
    refine ⟨hforest'.trans hforest, ⟨hunderway', hindex', htick'⟩, ?_⟩
    rw [restarts, hrestarts, hone]

/-! ## The schedule -/

/-- The tick in which the demo starts over for the `k`-th time: when the frames of `k` passes are
used, and one tick later if the last operation takes none. -/
def restartTick (width : Nat) (forest : List Operation) (k : Nat) : Nat :=
  k * (forest.map (Operation.frames width)).sum +
    if forest.getLast?.any (Operation.isInstant width) then 1 else 0

variable {forest : List Operation} {state : State} {n : Nat}

theorem last_frames_eq_zero_iff (hforest : forest ≠ []) :
    (forest.map (Operation.frames width)).getD ((forest.map (Operation.frames width)).length - 1) 0
        = 0 ↔
      forest.getLast?.any (Operation.isInstant width) = true := by
  obtain ⟨front, op, rfl⟩ : ∃ front op, forest = front ++ [op] :=
    ⟨forest.dropLast, forest.getLast hforest, (List.dropLast_concat_getLast hforest).symm⟩
  simp [List.getD_eq_getElem?_getD, Operation.frames]

theorem le_restarts_iff (hwidth : width ≤ 2 ^ 30) (hfresh : p.Fresh width)
    (hforest : p.forest = forest.toArray) (hsum : 0 < (forest.map (Operation.frames width)).sum)
    (hrun : (p.run n).2.halted = none) {k : Nat} (hk : 0 < k) :
    k ≤ p.restarts n ↔ restartTick width forest k ≤ n := by
  have hframes : p.frames width = forest.map (Operation.frames width) := by rw [frames, hforest]
  have hnonempty : forest ≠ [] := by
    rintro rfl
    exact Nat.lt_irrefl 0 hsum
  have hplaced := (placed_run hwidth hfresh (hframes ▸ hsum) hrun).2.2
  rw [hframes] at hplaced
  rw [hplaced.le_restarts_iff hsum hk, restartTick]
  simp only [last_frames_eq_zero_iff hnonempty]

/-- A tick starts the demo over exactly if it is the one of some restart. -/
theorem tickRestarts_pos_iff (hwidth : width ≤ 2 ^ 30) (hfresh : p.Fresh width)
    (hforest : p.forest = forest.toArray) (hsum : 0 < (forest.map (Operation.frames width)).sum)
    (hrun : (p.run (n + 1)).2.halted = none) :
    0 < (p.run n).2.tickRestarts ↔ ∃ k, 0 < k ∧ restartTick width forest k = n + 1 := by
  have hbefore {k : Nat} := le_restarts_iff (k := k) hwidth hfresh hforest hsum
    (running_of_le (Nat.le_succ n) hrun)
  have hafter {k : Nat} := le_restarts_iff (k := k) hwidth hfresh hforest hsum hrun
  rw [restarts] at hafter
  constructor
  · intro hpos
    have hk : 0 < p.restarts n + (p.run n).2.tickRestarts := by omega
    have hreached := (hafter hk).1 (Nat.le_refl _)
    have hnew := mt (hbefore hk).2 (by omega)
    exact ⟨_, hk, by omega⟩
  · rintro ⟨k, hk, htick⟩
    have hreached := (hafter hk).2 (Nat.le_of_eq htick)
    have hnew := mt (hbefore hk).1 (by omega)
    omega

/-- A demo that does not halt keeps to the schedule that its frames give: the cursor is where it
says, the demo starts over in the ticks it names, and the reports of just these ticks say so.  A
demo whose operations take no frames starts over in every tick. -/
theorem run_follows_schedule (hstart : start forest state = .ok p)
    (hwidth : state.config.viewportWidth.toNat ≤ 2 ^ 30) (hrun : (p.run n).2.halted = none) :
    let width := state.config.viewportWidth.toNat
    let frames := forest.map (Operation.frames width)
    ((p.run n).2.index, (p.run n).2.reel.progress.tick.toNat) = cursorAt frames n ∧
      (0 < frames.sum →
        (∀ k, 0 < k → (k ≤ p.restarts n ↔ restartTick width forest k ≤ n)) ∧
        ∀ (m : Nat) (report : TickReport), (p.run n).1[m]? = some report →
          (report.status = .looped ↔ ∃ k, 0 < k ∧ restartTick width forest k = m + 1) ∧
          (report.status = .running ↔ ¬∃ k, 0 < k ∧ restartTick width forest k = m + 1)) ∧
      (frames.sum = 0 → p.restarts n = n ∧
        ∀ (m : Nat) (report : TickReport), (p.run n).1[m]? = some report →
          report.status = .looped) := by
  intro width frames
  obtain ⟨hforest, hfresh⟩ := fresh_start hstart
  have hframes : p.frames width = frames := by rw [Player.frames, hforest]
  have hstatus {m : Nat} {report : TickReport} (hreport : (p.run n).1[m]? = some report) :
      (p.run (m + 1)).2.halted = none ∧
        report.status = if 0 < (p.run m).2.tickRestarts then .looped else .running := by
    have hm : m < n := by
      have hlength := (List.getElem?_eq_some_iff.1 hreport).1
      rwa [length_run] at hlength
    have hrunning := running_of_le (Nat.succ_le_of_lt hm) hrun
    obtain rfl : (p.run m).2.tick.1 = report := by
      rw [getElem?_run hm] at hreport
      exact Option.some.inj hreport
    refine ⟨hrunning, status_tick ?_⟩
    rwa [run_succ] at hrunning
  refine ⟨?_, fun hsum ↦ ⟨fun k hk ↦ ?_, fun m report hreport ↦ ?_⟩, fun hsum ↦ ⟨?_, ?_⟩⟩
  · by_cases hsum : frames.sum = 0
    · obtain ⟨-, hfreshEnd, -⟩ := run_of_sum_eq_zero hwidth hfresh (hframes ▸ hsum) hrun
      rw [cursorAt, if_pos (.inr hsum), hfreshEnd.index, hfreshEnd.tick]
      rfl
    · have hpos := Nat.pos_of_ne_zero hsum
      have hplaced := (placed_run hwidth hfresh (hframes ▸ hpos) hrun).2.2
      rw [hframes] at hplaced
      exact (hplaced.cursorAt_eq hpos).symm
  · exact le_restarts_iff hwidth hfresh hforest hsum hrun hk
  · obtain ⟨hrunning, hreport⟩ := hstatus hreport
    have hiff := tickRestarts_pos_iff hwidth hfresh hforest hsum hrunning
    by_cases hpos : 0 < (p.run m).2.tickRestarts
    · rw [hreport, if_pos hpos]
      exact ⟨iff_of_true rfl (hiff.1 hpos), iff_of_false (by simp) (not_not_intro (hiff.1 hpos))⟩
    · rw [hreport, if_neg hpos]
      exact ⟨iff_of_false (by simp) (mt hiff.2 hpos), iff_of_true rfl (mt hiff.2 hpos)⟩
  · exact (run_of_sum_eq_zero hwidth hfresh (hframes ▸ hsum) hrun).2.2
  · intro m report hreport
    obtain ⟨hrunning, hreport⟩ := hstatus hreport
    have hbefore := run_of_sum_eq_zero hwidth hfresh (hframes ▸ hsum)
      (running_of_le (Nat.le_succ m) hrunning)
    have hafter := run_of_sum_eq_zero hwidth hfresh (hframes ▸ hsum) hrunning
    have hcount := hafter.2.2
    rw [restarts, hbefore.2.2] at hcount
    rw [hreport, if_pos (by omega)]

/-- Five frames a pass, and a block at the end that takes none: the demo starts over in tick 6, and
after tick 9 the nested delay of the second pass has used two of its three frames. -/
theorem run_follows_schedule_of_nested_delay :
    ∃ p, start [.leaf (.delay 2), .leaf (.setBlockLong 1 1 7),
        .block 2 [.leaf (.delay 2), .block 1 [.leaf (.delay 3)]], .leaf (.setBlockShort 0 1 5 6)]
        (.initial {} blankStage (.solid 1 1 0) ∅) = .ok p ∧
      (p.run 9).2.halted = none ∧
      ((p.run 9).2.index, (p.run 9).2.reel.progress.tick.toNat) = (2, 2) ∧
      1 ≤ p.restarts 9 ∧ ¬2 ≤ p.restarts 9 ∧
      (∃ report, (p.run 9).1[4]? = some report ∧ report.status = .running) ∧
      ∃ report, (p.run 9).1[5]? = some report ∧ report.status = .looped := by
  let forest : List Operation := [.leaf (.delay 2), .leaf (.setBlockLong 1 1 7),
    .block 2 [.leaf (.delay 2), .block 1 [.leaf (.delay 3)]], .leaf (.setBlockShort 0 1 5 6)]
  obtain ⟨p, hstart, hrun⟩ : ∃ p,
      start forest (.initial {} blankStage (.solid 1 1 0) ∅) = .ok p ∧ (p.run 9).2.halted = none :=
    ⟨_, rfl, by decide +kernel⟩
  obtain ⟨hcursor, hschedule, -⟩ := run_follows_schedule hstart (by decide) hrun
  obtain ⟨hrestarts, hstatus⟩ := hschedule (by decide)
  have hlength : (p.run 9).1.length = 9 := p.length_run 9
  have htick (k : Nat) : restartTick 240 forest k = k * 5 + 1 := by
    have hframes : forest.map (Operation.frames 240) = [2, 0, 3, 0] := by decide
    have hlast : forest.getLast?.any (Operation.isInstant 240) = true := by decide
    rw [restartTick, hframes, hlast]
    rfl
  have hrunning : ¬∃ k, 0 < k ∧ restartTick 240 forest k = 4 + 1 := by
    rintro ⟨k, hk, hfifth⟩
    rw [htick] at hfifth
    omega
  refine ⟨p, hstart, hrun, hcursor.trans (by decide), (hrestarts 1 (by decide)).2 (by decide),
    mt (hrestarts 2 (by decide)).1 (by decide), ⟨_, List.getElem?_eq_getElem (by omega), ?_⟩,
    ⟨_, List.getElem?_eq_getElem (by omega), ?_⟩⟩
  · exact (hstatus 4 _ (List.getElem?_eq_getElem (by omega))).2.2 hrunning
  · exact (hstatus 5 _ (List.getElem?_eq_getElem (by omega))).1.2 ⟨1, by decide, htick 1⟩

end DemoReel.Playback.Player
