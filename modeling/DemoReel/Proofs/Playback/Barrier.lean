import DemoReel.Proofs.Playback.Moments
import DemoReel.Proofs.Playback.Visits
import Mathlib.Data.List.Nodup

/-!
# Blocks are barriers

A block holds the demo up until the last of its leaves is done, however deep the leaf lies.  Until
then it steps, tick after tick, just those leaves that are not done; in the end it leaves no trace
in the tables.
-/

namespace DemoReel.Playback

/-- What stepping a block does, as told by its leaves. -/
structure Barrier (width : Nat) (block : Operation) (path : OpPath) (r : Reel) : Prop where
  /-- The leaves that have ticks left are stepped, each of them once and depth first. -/
  visits : (Reel.visits block path r).map Visit.leaf = (block.leavesAt path).filter
    fun leaf ↦ decide (r.progress.tick.toNat ≤ leaf.2.lastTick width)
  chained : Visit.Chained r.state (Reel.visits block path r) (Reel.step block path r).2.state
  leafDone : ∀ v ∈ Reel.visits block path r,
    v.result.1.advance = decide (r.progress.tick.toNat = v.instruction.lastTick width)
  done : (Reel.step block path r).1.advance =
    decide (r.progress.tick.toNat = Operation.lastOf width (block.leavesAt path))
  /-- It is done without taking the frame. -/
  instant : (Reel.step block path r).1.advance = true ∧
      (Reel.step block path r).1.consumesTick = false ↔
    Operation.lastOf width (block.leavesAt path) = 0 ∧
      ∃ leaf ∈ block.leavesAt path, leaf.2.isInstant = true
  cleared : (Reel.step block path r).1.advance = true → ∀ q : OpPath, q.isWithin path = true →
    (Reel.step block path r).2.progress.isLatched q = false ∧
      (Reel.step block path r).2.progress.panOrigin? q = none

variable {width t : Nat}

/-- A block that is done forgets what lies below it. -/
theorem Reel.cleared_step {childCount : UInt8} {children : List Operation} {path q : OpPath}
    {r : Reel} (h : (step (.block childCount children) path r).1.advance = true)
    (hq : q.isWithin path = true) :
    (step (.block childCount children) path r).2.progress.isLatched q = false ∧
      (step (.block childCount children) path r).2.progress.panOrigin? q = none := by
  rw [outcome_step_block] at h
  rw [step]
  dsimp only
  rw [if_pos h]
  exact Progress.clearWithin_of_isWithin hq

theorem barrier_step (hwidth : width ≤ 2 ^ 30) {childCount : UInt8} {children : List Operation}
    {path : OpPath} {r : Reel} (hconfig : r.state.config.viewportWidth.toNat = width)
    (htick : r.progress.tick.toNat ≤ (Operation.block childCount children).lastTick width)
    (htracked : Tracked width r.progress.tick.toNat r.progress.isLatched
      (.block childCount children) path)
    (hhalt : (Reel.step (.block childCount children) path r).1.halt = none) :
    Barrier width (.block childCount children) path r := by
  have hdue := Reel.due_visits hwidth hconfig rfl htick htracked hhalt
  obtain ⟨honTime, -⟩ := Reel.onTime_step hwidth hconfig rfl htick htracked hhalt
  refine ⟨hdue.leaves, Reel.chained_visits _ path r, fun v hv ↦ (hdue.onTime v hv).advance, ?_, ?_,
    fun hdone q hq ↦ Reel.cleared_step hdone hq⟩
  · rw [Operation.lastOf_leavesAt]
    exact honTime.advance
  · rw [Operation.lastOf_leavesAt, ← Operation.hasInstantLeaf_iff, honTime.advance,
      honTime.consumesTick]
    simp only [decide_eq_true_eq, Bool.not_eq_false', Bool.and_eq_true]
    constructor
    · rintro ⟨hlast, hzero, hinstant⟩
      exact ⟨by omega, hinstant⟩
    · rintro ⟨hlast, hinstant⟩
      exact ⟨by omega, by omega, hinstant⟩

theorem Barrier.mem_leavesAt {block : Operation} {path : OpPath} {r : Reel} {v : Visit}
    (h : Barrier width block path r) (hv : v ∈ Reel.visits block path r) :
    v.leaf ∈ block.leavesAt path ∧ r.progress.tick.toNat ≤ v.instruction.lastTick width := by
  have hmem : v.leaf ∈ (Reel.visits block path r).map Visit.leaf := List.mem_map_of_mem hv
  rw [h.visits, List.mem_filter, decide_eq_true_eq] at hmem
  exact hmem

/-- A leaf that is done is not stepped in a later tick. -/
theorem Barrier.not_again {block : Operation} {path : OpPath} {r r' : Reel} {v : Visit}
    (h : Barrier width block path r) (h' : Barrier width block path r')
    (hlater : r.progress.tick.toNat < r'.progress.tick.toNat)
    (hv : v ∈ Reel.visits block path r) (hdone : v.result.1.advance = true) :
    v.path ∉ (Reel.visits block path r').map Visit.path := by
  intro hagain
  obtain ⟨v', hv', hpath⟩ := List.mem_map.1 hagain
  obtain ⟨hleaf, -⟩ := h.mem_leavesAt hv
  obtain ⟨hleaf', hdue⟩ := h'.mem_leavesAt hv'
  have hsame : v'.leaf = v.leaf :=
    List.inj_on_of_nodup_map (Operation.nodup_leavesAt block path) hleaf' hleaf hpath
  have hinstruction : v'.instruction = v.instruction := congrArg Prod.snd hsame
  have hlast := h.leafDone v hv
  rw [hdone, eq_comm, decide_eq_true_eq] at hlast
  rw [hinstruction] at hdue
  omega

namespace Player

variable {forest : List Operation} {state : State} {p : Player} {n : Nat}

/-- A block under way in a run that does not halt acts as a barrier. -/
theorem Smooth.barrier (hsmooth : p.Smooth width n) {k : Nat} {moment : Player}
    (hmoment : (moments n p)[k]? = some moment) {childCount : UInt8} {children : List Operation}
    (hunderway : moment.Underway width (.block childCount children)) :
    Barrier width (.block childCount children) (.top moment.index) moment.reel := by
  obtain ⟨hhalt, -⟩ := hunderway.onTime hsmooth.width_le (hsmooth.running_at hmoment)
  exact barrier_step hsmooth.width_le hunderway.config hunderway.tick_le hunderway.tracked hhalt

/-- Whenever a run that does not halt steps a block of the forest, the block acts as a barrier: it
is stepped in one tick after the other from the first to the last tick of its leaves, a leaf that is
done is not stepped again, and the block is done with the last of them. -/
theorem blocks_are_barriers (hstart : start forest state = .ok p)
    (hwidth : state.config.viewportWidth.toNat ≤ 2 ^ 30) (hrun : (p.run n).2.halted = none)
    {k : Nat} {moment : Player} (hmoment : (moments n p)[k]? = some moment)
    {childCount : UInt8} {children : List Operation}
    (hblock : forest[moment.index]? = some (.block childCount children)) :
    let width := state.config.viewportWidth.toNat
    let block := Operation.block childCount children
    let path := OpPath.top moment.index
    let leaves := block.leavesAt path
    let tick := moment.reel.progress.tick.toNat
    (leaves.map Prod.fst).Nodup ∧ Barrier width block path moment.reel ∧
      tick ≤ Operation.lastOf width leaves ∧ tick ≤ k ∧
      ∀ t ≤ Operation.lastOf width leaves, moment.ticks + t ≤ n + tick →
        ∃ other, (moments n p)[k - tick + t]? = some other ∧ other.index = moment.index ∧
          other.reel.progress.tick.toNat = t ∧ other.ticks + tick = moment.ticks + t ∧
          (tick < t → ∀ v ∈ Reel.visits block path moment.reel, v.result.1.advance = true →
            v.path ∉ (Reel.visits block path other.reel).map Visit.path) := by
  intro width block path leaves tick
  obtain ⟨hforest, hfresh⟩ := fresh_start hstart
  have hsmooth : p.Smooth width n := ⟨hwidth, hfresh, hrun⟩
  have hcount : p.ticks = 0 := by
    obtain ⟨-, -, hp⟩ := start_eq_ok hstart
    rw [hp]
  obtain ⟨op, hop⟩ := hsmooth.underway hmoment
  obtain rfl : op = block := by
    have hactive := hop.active
    rw [forest_of_mem_moments (List.mem_of_getElem? hmoment), hforest, List.getElem?_toArray]
      at hactive
    exact Option.some.inj (hactive.symm.trans hblock)
  have hhere : Barrier width block path moment.reel := hsmooth.barrier hmoment hop
  obtain ⟨hle, begun, hbegun, hunderway, hindex, hzero, hticks⟩ :=
    hsmooth.exists_begun hmoment hop
  refine ⟨Operation.nodup_leavesAt block path, hhere, ?_, hle, fun t ht hn ↦ ?_⟩
  · rw [Operation.lastOf_leavesAt]
    exact hop.tick_le
  · rw [Operation.lastOf_leavesAt] at ht
    obtain ⟨other, hother, hother', hindex', htick, hticks'⟩ :=
      hsmooth.exists_later hbegun hunderway (j := t) (by omega) (by omega)
    have hsame : other.index = moment.index := hindex'.trans hindex
    rw [hzero, Nat.zero_add] at htick
    refine ⟨other, hother, hsame, htick, by omega, fun hlater v hv hdone ↦ ?_⟩
    have hthere : Barrier width block (.top other.index) other.reel :=
      hsmooth.barrier hother hother'
    rw [hsame] at hthere
    exact hhere.not_again hthere (htick ▸ hlater) hv hdone

/-- While a delay runs on, a block next to it that is done is left alone. -/
theorem blocks_are_barriers_of_delay :
    ∃ p moment, start [.block 2 [.leaf (.delay 2), .block 1 [.leaf .hideDemoSprite]]]
        (.initial {} blankStage (.solid 1 1 0) ∅) = .ok p ∧ (p.run 2).2.halted = none ∧
      (moments 2 p)[1]? = some moment ∧
      (Reel.visits (.block 2 [.leaf (.delay 2), .block 1 [.leaf .hideDemoSprite]]) [0]
        moment.reel).map Visit.leaf = [([0, 0], .delay 2)] := by
  obtain ⟨p, hstart, hrun, hsecond⟩ : ∃ p,
      start [.block 2 [.leaf (.delay 2), .block 1 [.leaf .hideDemoSprite]]]
        (.initial {} blankStage (.solid 1 1 0) ∅) = .ok p ∧ (p.run 2).2.halted = none ∧
      (moments 2 p)[1]?.map (fun q ↦ (q.index, q.reel.progress.tick)) = some (0, 1) :=
    ⟨_, rfl, by decide +kernel, by decide +kernel⟩
  obtain ⟨moment, hmoment, hplace⟩ := Option.map_eq_some_iff.1 hsecond
  obtain ⟨hindex, htick⟩ := Prod.mk.inj hplace
  obtain ⟨-, hbarrier, -⟩ := blocks_are_barriers hstart (by decide) hrun hmoment
    (by rw [hindex]; rfl)
  have hvisits := hbarrier.visits
  rw [hindex, htick] at hvisits
  exact ⟨p, moment, hstart, hrun, hmoment, hvisits⟩

end Player

end DemoReel.Playback
