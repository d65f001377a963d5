import DemoReel.Proofs.Playback.Chain
import DemoReel.Proofs.Playback.Visits

/-!
# Invariants

What every link keeps is kept by a run.  A property of the state alone needs less: what is kept by
every leaf, by starting over and by handing over commands is kept by every link.  Both are about
runs that do not halt, so that a step that halts need not keep anything.
-/

namespace DemoReel.Playback

namespace Player

/-- A property of a player that has started over so many times, kept until it halts. -/
structure Invariant (motive : Nat → Player → Prop) : Prop where
  link : ∀ {restarts : Nat} {p : Player}, motive restarts p → p.link.player.halted = none →
    motive (restarts + p.link.restarted.toNat) p.link.player
  count : ∀ {restarts : Nat} {p : Player} (ticks : Nat), motive restarts p →
    motive restarts { p with ticks }
  handOver : ∀ {restarts : Nat} {p : Player}, motive restarts p → motive restarts p.handOver

namespace Invariant

variable {motive : Nat → Player → Prop} {p : Player} {restarts : Nat}

theorem stepChain (h : Invariant motive) (hp : motive restarts p) {budget : Nat} {looped : Bool}
    (hrun : (stepChain budget p looped).1.halted = none) :
    motive (restarts + chainRestarts budget p) (Player.stepChain budget p looped).1 := by
  induction budget generalizing p restarts looped with
  | zero => exact hp
  | succ budget ih =>
    have hlink := h.link hp (running_link_of_stepChain hrun)
    rw [stepChain_succ] at hrun ⊢
    rw [chainRestarts]
    cases hgoesOn : p.link.goesOn with
    | false => exact hlink
    | true =>
      rw [hgoesOn] at hrun
      rw [if_pos rfl, if_pos rfl, ← Nat.add_assoc]
      exact ih hlink hrun

theorem tick (h : Invariant motive) (hp : motive restarts p) (hrun : p.tick.2.halted = none) :
    motive (restarts + p.tickRestarts) p.tick.2 := by
  have hrunning := halted_eq_none_of_tick hrun
  rw [tick_of_running hrunning] at hrun ⊢
  rw [tickRestarts_of_running hrunning]
  exact h.handOver (h.stepChain (h.count (p.ticks + 1) hp) hrun)

theorem run (h : Invariant motive) (hp : motive 0 p) {n : Nat} (hrun : (p.run n).2.halted = none) :
    motive (p.restarts n) (p.run n).2 := by
  induction n with
  | zero => exact hp
  | succ n ih =>
    rw [run_succ] at hrun ⊢
    exact h.tick (ih (halted_eq_none_of_tick hrun)) hrun

end Invariant

/-- Settling an outcome leaves the state alone, or starts over with it. -/
theorem state_settle (p : Player) (outcome : Outcome) (reel : Reel) :
    (p.settle outcome reel).player.reel.state = reel.state ∨
      (p.settle outcome reel).player.reel.state = reel.state.resetWorld.2 ∧
        (p.settle outcome reel).player.halted = reel.state.resetWorld.1 := by
  cases hhalt : outcome.halt with
  | some error =>
    rw [settle_of_halt hhalt]
    exact .inl rfl
  | none =>
    cases hadvance : outcome.advance with
    | false =>
      rw [settle_of_wait hhalt hadvance]
      exact .inl rfl
    | true =>
      rw [settle_of_advance hhalt hadvance]
      unfold advance
      dsimp only
      split
      · exact .inl rfl
      · exact .inr ⟨rfl, rfl⟩

end Player

/-- A property of the state that is kept until playback halts. -/
structure State.Invariant (motive : State → Prop) : Prop where
  leaf : ∀ (i : Instruction) (path : OpPath) (r : Reel), motive r.state →
    (Reel.stepLeaf i path r).1.halt = none → motive (Reel.stepLeaf i path r).2.state
  reset : ∀ s : State, motive s → s.resetWorld.1 = none → motive s.resetWorld.2
  finish : ∀ s : State, motive s → motive s.finishTick.2

namespace State.Invariant

variable {motive : State → Prop} {p : Player}

theorem step (h : Invariant motive) {op : Operation} {path : OpPath} {r : Reel}
    (hr : motive r.state) (hhalt : (Reel.step op path r).1.halt = none) :
    motive (Reel.step op path r).2.state :=
  (Reel.chained_visits op path r).preserves
    (fun v hv hstate ↦ h.leaf _ _ _ hstate (Reel.running_visits hhalt v hv)) hr

theorem link (h : Invariant motive) (hp : motive p.reel.state)
    (hrun : p.link.player.halted = none) : motive p.link.player.reel.state := by
  cases hop : p.forest[p.index]? with
  | none =>
    rw [Player.link, hop]
    exact hp
  | some op =>
    rw [Player.link_of_getElem? hop] at hrun ⊢
    cases hhalt : (Reel.step op (.top p.index) p.reel).1.halt with
    | some error =>
      rw [Player.settle_of_halt hhalt] at hrun
      cases hrun
    | none =>
      have hstep := h.step hp hhalt
      obtain hstate | ⟨hstate, hfault⟩ := p.state_settle
        (Reel.step op (.top p.index) p.reel).1 (Reel.step op (.top p.index) p.reel).2
      · exact hstate ▸ hstep
      · exact hstate ▸ h.reset _ hstep (hfault ▸ hrun)

theorem run (h : Invariant motive) (hp : motive p.reel.state) {n : Nat}
    (hrun : (p.run n).2.halted = none) : motive (p.run n).2.reel.state :=
  Player.Invariant.run (motive := fun _ q ↦ motive q.reel.state)
    ⟨h.link, fun _ hq ↦ hq, fun hq ↦ h.finish _ hq⟩ hp hrun

end State.Invariant

end DemoReel.Playback
