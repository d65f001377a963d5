import DemoReel.Proofs.Playback.Awaiting
import DemoReel.Proofs.Playback.Record

/-!
# Pacing

A leaf that is still awaited in tick `t` has gone on in every tick before.  No instruction goes on
for ever, and so the counter of a running demo never reaches its end, however wide the viewport
is.
-/

namespace DemoReel

namespace Instruction

open Playback

/-- The instruction can be stepped in its tick `t` without being done and without halting. -/
def GoesOn (i : Instruction) (config : Config) (t : Nat) : Prop :=
  ∃ (path : OpPath) (r : Reel), r.state.config = config ∧ r.progress.tick.toNat = t ∧
    (r.stepLeaf i path).1.halt = none ∧ (r.stepLeaf i path).1.advance = false

/-- A tick in which the instruction is done on every viewport. -/
def deadline : Instruction → Nat
  -- where `5 + 5 * t` wraps around to the greatest pixel coordinate
  | paintChat _ _ _ => 3006477106
  | _ => 2 ^ 32 - 2

theorem deadline_lt (i : Instruction) : i.deadline < 2 ^ 32 - 1 := by
  unfold deadline
  split <;> decide

theorem chat_past_at_deadline (corner : Int32) {t width : UInt32} (ht : t.toNat = 3006477106) :
    width.toInt32 ≤ corner + textMargin + t.toInt32 * chatSpeed - corner := by
  obtain rfl : t = 3006477106 := UInt32.toNat_inj.1 ht
  have hmoved : corner + textMargin + (3006477106 : UInt32).toInt32 * chatSpeed - corner =
      Int32.maxValue := by
    rw [Int32.add_assoc, Int32.add_comm, Int32.add_sub_cancel]
    decide
  rw [hmoved, Int32.le_iff_toInt_le]
  exact Int32.toInt_le _

/-- No instruction goes on for ever. -/
theorem not_goesOn_deadline (i : Instruction) (config : Config) : ¬i.GoesOn config i.deadline := by
  rintro ⟨path, r, -, ht, hhalt, hadvance⟩
  have hblinks (blinkCount : UInt8) : 10 * blinkCount.toNat ≤ 2 ^ 32 - 2 := by
    have hcount := blinkCount.toNat_lt
    omega
  have hone : (1 : UInt32).toNat = 1 := by decide
  cases i with
  | moveCamera blockX blockY frameCount =>
    have hcount := frameCount.toNat_lt
    have hwaits : ¬frameCount.toNat ≤ r.progress.tick.toNat + 1 := of_decide_eq_false hadvance
    change _ = 2 ^ 32 - 2 at ht
    omega
  | paintChat lineCount offsetY text =>
    exact of_decide_eq_false hadvance (chat_past_at_deadline r.state.cameraPixel.x ht)
  | delay frameCount =>
    have hcount := frameCount.toNat_lt
    have hwaits : ¬frameCount.toNat ≤ r.progress.tick.toNat + 1 := of_decide_eq_false hadvance
    change _ = 2 ^ 32 - 2 at ht
    omega
  | playerMove direction =>
    have hwaits : ¬walkTicks ≤ r.progress.tick + 1 := of_decide_eq_false hadvance
    have hwalk : walkTicks.toNat = 12 := by decide
    change _ = 2 ^ 32 - 2 at ht
    rw [UInt32.le_iff_toNat_le, UInt32.toNat_add, ht, hone, hwalk] at hwaits
    omega
  | setDemoSprite heroSprite backgroundAnim =>
    cases (congrArg Outcome.advance (State.setDemoSprite_eq_instant hhalt)).symm.trans hadvance
  | setPosAndShow x y => cases hadvance
  | hideDemoSprite => cases hadvance
  | showDecoSymbol frameIndex blinkCount =>
    have hwaits := (congrArg Outcome.advance (State.showDecoSymbol_eq_ticking hhalt)).symm.trans
      hadvance
    exact of_decide_eq_false hwaits (blinks_over_iff.2 (ht ▸ hblinks blinkCount))
  | hideDecoSymbol unused needHide => cases hadvance
  | screenBlink blinkCount color =>
    exact of_decide_eq_false hadvance (blinks_over_iff.2 (ht ▸ hblinks blinkCount))
  | setBlockShort blockX blockY blockId specialData =>
    cases (congrArg Outcome.advance (State.setBlock_eq_instant hhalt)).symm.trans hadvance
  | setBlockLong blockX blockY blockId =>
    cases (congrArg Outcome.advance (State.setBlock_eq_instant hhalt)).symm.trans hadvance
  | paintHint text =>
    have hwaits : ¬hintTicks ≤ r.progress.tick := of_decide_eq_false hadvance
    have hhint : hintTicks.toNat = 20 := by decide
    change _ = 2 ^ 32 - 2 at ht
    rw [UInt32.le_iff_toNat_le, ht, hhint] at hwaits
    omega
  | unknown opcode => cases hhalt

/-- On a viewport that is not too wide an instruction goes on up to its last tick only. -/
theorem le_lastTick_of_goesOn {i : Instruction} {config : Config} {n : Nat}
    (hwidth : config.viewportWidth.toNat ≤ 2 ^ 30) (h : ∀ t < n, i.GoesOn config t) :
    n ≤ i.lastTick config.viewportWidth.toNat := by
  refine Nat.le_of_not_lt fun hlt ↦ ?_
  obtain ⟨path, r, rfl, ht, hhalt, hadvance⟩ := h _ hlt
  have htime := Reel.onTime_stepLeaf hwidth (Nat.le_of_eq ht) hhalt
  rw [htime.advance, decide_eq_true ht] at hadvance
  cases hadvance

end Instruction

namespace Playback

namespace Reel

theorem config_of_mem_visits {op : Operation} {path : OpPath} {r : Reel} {v : Visit}
    (h : v ∈ visits op path r) : v.reel.state.config = r.state.config :=
  (chained_visits op path r).forall_visits (motive := fun s ↦ s.config = r.state.config)
    (fun v _ hv ↦ (redraws_stepLeaf v.instruction v.path v.reel).config.trans hv) rfl v h

/-- A leaf that is reached and left undone goes on in the tick of the step. -/
theorem goesOn_of_mem_visits {op : Operation} {path : OpPath} {r : Reel} {v : Visit}
    (h : v ∈ visits op path r) (hhalt : (step op path r).1.halt = none)
    (hadvance : v.result.1.advance = false) :
    v.instruction.GoesOn r.state.config r.progress.tick.toNat :=
  ⟨v.path, v.reel, config_of_mem_visits h, congrArg UInt32.toNat (foundBy_of_mem_visits h).tick,
    running_visits hhalt v h, hadvance⟩

end Reel

namespace Player

/-- The counter has room for one more tick, and while playback runs the operation that is active is
begun with empty tables, and each of its leaves that is awaited has gone on until now. -/
structure Paced (p : Player) : Prop where
  tick_lt : p.reel.progress.tick.toNat < 2 ^ 32 - 1
  fresh : p.halted = none → p.reel.progress.tick = 0 →
    p.reel.progress = { Progress.start with index := p.index }
  goesOn : p.halted = none → ∀ op, p.forest[p.index]? = some op →
    ∀ leaf ∈ op.leavesAt (.top p.index), p.reel.progress.Awaits (.top p.index) leaf.1 →
      ∀ t < p.reel.progress.tick.toNat, leaf.2.GoesOn p.reel.state.config t

variable {p : Player}

theorem tick_of_mem_visits {v : Visit} (h : v ∈ p.visits) :
    v.reel.progress.tick = p.reel.progress.tick := by
  obtain ⟨op, -, hv⟩ := exists_active_of_mem_visits h
  exact (Reel.foundBy_of_mem_visits hv).tick

theorem Paced.toNat_tick_add_one (h : p.Paced) :
    (p.reel.progress.tick + 1).toNat = p.reel.progress.tick.toNat + 1 := by
  have hone : (1 : UInt32).toNat = 1 := by decide
  have hroom := h.tick_lt
  rw [UInt32.toNat_add, hone]
  exact Nat.mod_eq_of_lt (by omega)

theorem Paced.of_fresh {index : Nat}
    (h : p.reel.progress = { Progress.start with index := index }) : p.Paced := by
  have htick : p.reel.progress.tick = 0 := congrArg Progress.tick h
  refine ⟨?_, fun _ _ ↦ by rw [Player.index, h], fun _ _ _ _ _ _ t ht ↦ ?_⟩
  · rw [htick]
    decide
  · rw [htick] at ht
    exact (Nat.not_lt_zero t ht).elim

/-- In the next tick the leaves that are still awaited have gone on in this one too. -/
theorem Paced.wait (h : p.Paced) (hrun : p.halted = none) {op : Operation}
    (hop : p.forest[p.index]? = some op)
    (hhalt : (Reel.step op (.top p.index) p.reel).1.halt = none)
    (hadvance : (Reel.step op (.top p.index) p.reel).1.advance = false) :
    Paced { p with reel := { (Reel.step op (.top p.index) p.reel).2 with
      progress := (Reel.step op (.top p.index) p.reel).2.progress.wait } } := by
  have hkeeps := Reel.keeps_step op (.top p.index) p.reel
  have hconfig := (Reel.redraws_step op (.top p.index) p.reel).config
  -- a leaf that this step leaves undone has gone on in each tick up to this one
  have hundone {v : Visit} (hv : v ∈ Reel.visits op (.top p.index) p.reel)
      (hwaits : v.result.1.advance = false) :
      ∀ t < p.reel.progress.tick.toNat + 1, v.instruction.GoesOn p.reel.state.config t := by
    intro t ht
    obtain hbefore | rfl := Nat.lt_or_eq_of_le (Nat.le_of_lt_succ ht)
    · exact h.goesOn hrun op hop _ (Reel.mem_leavesAt_of_mem_visits hv)
        (Reel.foundBy_of_mem_visits hv).awaited t hbefore
    · exact Reel.goesOn_of_mem_visits hv hhalt hwaits
  have hlt : p.reel.progress.tick.toNat + 1 < 2 ^ 32 - 1 := by
    obtain ⟨v, hv, hwaits⟩ := Reel.exists_waiting_visit hhalt hadvance
    have hdeadline := v.instruction.deadline_lt
    have hearly : ¬v.instruction.deadline < p.reel.progress.tick.toNat + 1 := fun hlate ↦
      v.instruction.not_goesOn_deadline _ (hundone hv hwaits _ hlate)
    omega
  have htick : (Reel.step op (.top p.index) p.reel).2.progress.wait.tick.toNat =
      p.reel.progress.tick.toNat + 1 := by
    rw [Progress.wait, hkeeps.tick]
    exact h.toNat_tick_add_one
  refine ⟨htick ▸ hlt, fun _ hzero ↦ ?_, fun _ op' hop' leaf hleaf hawaits t ht ↦ ?_⟩
  · rw [← UInt32.toNat_inj, htick] at hzero
    cases hzero
  · have hindex : index { p with reel := { (Reel.step op (.top p.index) p.reel).2 with
        progress := (Reel.step op (.top p.index) p.reel).2.progress.wait } } = p.index :=
      hkeeps.index
    rw [hindex] at hop' hleaf hawaits
    obtain rfl : op = op' := Option.some.inj (hop.symm.trans hop')
    obtain ⟨v, hv, rfl, hleft⟩ := Reel.exists_visit_of_awaits hhalt hadvance hleaf hawaits
    rw [hconfig]
    exact hundone hv hleft.advance t (htick ▸ ht)

theorem Paced.link (h : p.Paced) (hrun : p.halted = none) : p.link.player.Paced := by
  cases p.linkCase with
  | idle active same => rwa [same]
  | halt active halt same =>
    rw [same]
    refine ⟨?_, nofun, nofun⟩
    rw [(Reel.keeps_step _ _ _).tick]
    exact h.tick_lt
  | wait active running advance same =>
    rw [same]
    exact h.wait hrun active running advance
  | next active running advance lt same =>
    rw [same]
    exact .of_fresh rfl
  | restart active running advance last same =>
    rw [same]
    exact .of_fresh rfl

theorem Paced.count (h : p.Paced) (ticks : Nat) : Paced { p with ticks } :=
  ⟨h.tick_lt, h.fresh, h.goesOn⟩

theorem Paced.handOver (h : p.Paced) : p.handOver.Paced := ⟨h.tick_lt, h.fresh, h.goesOn⟩

theorem passInvariant_paced : PassInvariant fun _ p ↦ p.Paced where
  link hrun h := h.link hrun
  count ticks h := h.count ticks
  handOver h := h.handOver

theorem paced_start {forest : List Operation} {state : State}
    (hstart : start forest state = .ok p) : p.Paced := by
  obtain ⟨-, -, rfl⟩ := start_eq_ok hstart
  exact .of_fresh rfl

theorem paced_of_mem_moments {forest : List Operation} {state : State} {q : Player} {n : Nat}
    (hstart : start forest state = .ok p) (hq : q ∈ moments n p) : q.Paced := by
  obtain ⟨-, hpaced⟩ := @PassInvariant.of_mem_moments p (fun _ p ↦ p.Paced) [] n
    passInvariant_paced (paced_start hstart) q hq
  exact hpaced

end Player

end Playback

end DemoReel
