import DemoReel.Proofs.Playback.Rounds

/-!
# Ticks as chains of links

A tick steps the active operation, and while the frame is not spent the operation after it.  One
such step is a link; what a link does is said once, and what a tick does follows by induction on the
number of links that are left.
-/

namespace DemoReel.Playback

/-- What comes of stepping the active operation. -/
structure Link where
  player : Player
  /-- The demo started over. -/
  restarted : Bool
  /-- The frame is left for the next operation. -/
  goesOn : Bool

namespace Player

theorem advance_eq (p : Player) :
    p.advance =
      if p.index + 1 < p.forest.size then
        ({ p with reel := { p.reel with progress := p.reel.progress.advance } }, false)
      else (p.restart, p.restart.halted.isNone) :=
  rfl

/-- What the outcome of the active operation leads to. -/
def settle (p : Player) (outcome : Outcome) (reel : Reel) : Link :=
  if outcome.halt.isSome then ⟨{ p with reel, halted := outcome.halt }, false, false⟩
  else if !outcome.advance then
    ⟨{ p with reel := { reel with progress := reel.progress.wait } }, false, false⟩
  else
    let (next, restarted) := advance { p with reel }
    ⟨next, restarted, !(next.halted.isSome || outcome.consumesTick)⟩

section

variable {p : Player} {outcome : Outcome} {reel : Reel}

theorem settle_of_halt {error : Error} (h : outcome.halt = some error) :
    p.settle outcome reel = ⟨{ p with reel, halted := some error }, false, false⟩ := by
  rw [settle, h, if_pos Option.isSome_some]

theorem settle_of_wait (hhalt : outcome.halt = none) (hadvance : outcome.advance = false) :
    p.settle outcome reel =
      ⟨{ p with reel := { reel with progress := reel.progress.wait } }, false, false⟩ := by
  rw [settle, hhalt, hadvance]
  rfl

theorem settle_of_advance (hhalt : outcome.halt = none) (hadvance : outcome.advance = true) :
    p.settle outcome reel =
      ⟨(advance { p with reel }).1, (advance { p with reel }).2,
        !((advance { p with reel }).1.halted.isSome || outcome.consumesTick)⟩ := by
  rw [settle, hhalt, hadvance]
  rfl

end

def link (p : Player) : Link :=
  match p.forest[p.index]? with
  | none => ⟨p, false, false⟩
  | some op =>
    let (outcome, reel) := Reel.step op (.top p.index) p.reel
    p.settle outcome reel

theorem link_of_getElem? {p : Player} {op : Operation} (h : p.forest[p.index]? = some op) :
    p.link = p.settle (Reel.step op (.top p.index) p.reel).1
      (Reel.step op (.top p.index) p.reel).2 := by
  rw [link, h]

/-- All that can come of stepping the active operation. -/
inductive LinkCase (p : Player) : Prop
  | idle (active : p.forest[p.index]? = none) (same : p.link = ⟨p, false, false⟩)
  | halt {op : Operation} {error : Error} (active : p.forest[p.index]? = some op)
    (halt : (Reel.step op (.top p.index) p.reel).1.halt = some error)
    (same : p.link = ⟨{ p with
      reel := (Reel.step op (.top p.index) p.reel).2
      halted := some error }, false, false⟩)
  | wait {op : Operation} (active : p.forest[p.index]? = some op)
    (running : (Reel.step op (.top p.index) p.reel).1.halt = none)
    (advance : (Reel.step op (.top p.index) p.reel).1.advance = false)
    (same : p.link = ⟨{ p with reel := { (Reel.step op (.top p.index) p.reel).2 with
      progress := (Reel.step op (.top p.index) p.reel).2.progress.wait } }, false, false⟩)
  | next {op : Operation} (active : p.forest[p.index]? = some op)
    (running : (Reel.step op (.top p.index) p.reel).1.halt = none)
    (advance : (Reel.step op (.top p.index) p.reel).1.advance = true)
    (lt : p.index + 1 < p.forest.size)
    (same : p.link = ⟨{ p with reel := { (Reel.step op (.top p.index) p.reel).2 with
      progress := { Progress.start with index := p.index + 1 } } }, false,
      !(p.halted.isSome || (Reel.step op (.top p.index) p.reel).1.consumesTick)⟩)
  | restart {op : Operation} (active : p.forest[p.index]? = some op)
    (running : (Reel.step op (.top p.index) p.reel).1.halt = none)
    (advance : (Reel.step op (.top p.index) p.reel).1.advance = true)
    (last : p.index + 1 = p.forest.size)
    (same : p.link = ⟨{ p with
      reel := ⟨.start, (Reel.step op (.top p.index) p.reel).2.state.resetWorld.2⟩
      halted := (Reel.step op (.top p.index) p.reel).2.state.resetWorld.1 },
      (Reel.step op (.top p.index) p.reel).2.state.resetWorld.1.isNone,
      !((Reel.step op (.top p.index) p.reel).2.state.resetWorld.1.isSome ||
        (Reel.step op (.top p.index) p.reel).1.consumesTick)⟩)

theorem linkCase (p : Player) : p.LinkCase := by
  cases hop : p.forest[p.index]? with
  | none => exact .idle hop (by rw [link, hop])
  | some op =>
    have hlink := link_of_getElem? hop
    cases hhalt : (Reel.step op (.top p.index) p.reel).1.halt with
    | some error => exact .halt hop hhalt (hlink.trans (settle_of_halt hhalt))
    | none =>
      cases hadvance : (Reel.step op (.top p.index) p.reel).1.advance with
      | false => exact .wait hop hhalt hadvance (hlink.trans (settle_of_wait hhalt hadvance))
      | true =>
        have hindex : index { p with reel := (Reel.step op (.top p.index) p.reel).2 } = p.index :=
          (Reel.keeps_step op (.top p.index) p.reel).index
        rw [settle_of_advance hhalt hadvance, advance_eq, hindex] at hlink
        by_cases hlt : p.index + 1 < p.forest.size
        · have hafresh : (Reel.step op (.top p.index) p.reel).2.progress.advance =
              { Progress.start with index := p.index + 1 } :=
            congrArg (fun i ↦ { Progress.start with index := i + 1 }) hindex
          rw [if_pos hlt] at hlink
          dsimp only at hlink
          rw [hafresh] at hlink
          exact .next hop hhalt hadvance hlt hlink
        · rw [if_neg hlt] at hlink
          have hsize := (Array.getElem?_eq_some_iff.1 hop).1
          exact .restart hop hhalt hadvance (by omega) hlink

/-- A chain goes on only while nothing has halted. -/
theorem running_of_goesOn {p : Player} (h : p.link.goesOn = true) :
    p.link.player.halted = none := by
  cases p.linkCase with
  | idle active same | halt active halt same | wait active running advance same =>
    rw [same] at h
    cases h
  | next active running advance lt same | restart active running advance last same =>
    rw [same] at h ⊢
    simp only [Bool.not_or, Bool.and_eq_true, Bool.not_eq_true', Option.isSome_eq_false_iff,
      Option.isNone_iff_eq_none] at h
    exact h.1

theorem stepChain_succ (budget : Nat) (p : Player) (looped : Bool) :
    stepChain (budget + 1) p looped =
      if p.link.goesOn then stepChain budget p.link.player (looped || p.link.restarted)
      else (p.link.player, looped || p.link.restarted) := by
  rw [stepChain]
  cases hop : p.forest[p.index]? with
  | none => simp [link, hop]
  | some op =>
    rw [link_of_getElem? hop, settle]
    cases hhalt : (Reel.step op (.top p.index) p.reel).1.halt.isSome with
    | true => simp [hhalt]
    | false =>
      cases hadvance : (Reel.step op (.top p.index) p.reel).1.advance with
      | false => simp [hhalt, hadvance]
      | true =>
        simp only [hhalt, hadvance, Bool.not_true, Bool.false_eq_true, if_false]
        cases (advance { p with reel := (Reel.step op (.top p.index) p.reel).2 }).1.halted.isSome ||
          (Reel.step op (.top p.index) p.reel).1.consumesTick <;> simp

theorem running_link_of_stepChain {budget : Nat} {p : Player} {looped : Bool}
    (h : (stepChain (budget + 1) p looped).1.halted = none) : p.link.player.halted = none := by
  cases hgoesOn : p.link.goesOn with
  | true => exact running_of_goesOn hgoesOn
  | false =>
    rw [stepChain_succ, hgoesOn] at h
    exact h

/-- How often the demo starts over while at most `budget` operations are stepped. -/
def chainRestarts : (budget : Nat) → Player → Nat
  | 0, _ => 0
  | budget + 1, p =>
    p.link.restarted.toNat + if p.link.goesOn then chainRestarts budget p.link.player else 0

/-- A chain says that the demo started over exactly if it did. -/
theorem stepChain_looped (budget : Nat) (p : Player) (looped : Bool) :
    (stepChain budget p looped).2 = (looped || decide (0 < chainRestarts budget p)) := by
  induction budget generalizing p looped with
  | zero => simp [stepChain, chainRestarts]
  | succ budget ih =>
    rw [stepChain_succ, chainRestarts]
    cases p.link.goesOn with
    | false => cases p.link.restarted <;> simp
    | true =>
      have hsum (m : Nat) : 0 < 1 + m := by omega
      cases p.link.restarted <;> simp [ih, hsum]

/-- What every link keeps is kept by a chain. -/
theorem stepChain_preserves {motive : Player → Prop}
    (hlink : ∀ q, motive q → motive q.link.player) {p : Player} (h : motive p) (budget : Nat)
    (looped : Bool) : motive (stepChain budget p looped).1 := by
  induction budget generalizing p looped with
  | zero => exact h
  | succ budget ih =>
    rw [stepChain_succ]
    split
    · exact ih (hlink p h) _
    · exact hlink p h

theorem forest_link (p : Player) : p.link.player.forest = p.forest := by
  cases p.linkCase with
  | idle active same | halt active halt same | wait active running advance same
  | next active running advance lt same | restart active running advance last same => rw [same]

theorem forest_stepChain (budget : Nat) (p : Player) (looped : Bool) :
    (stepChain budget p looped).1.forest = p.forest :=
  stepChain_preserves (motive := fun q ↦ q.forest = p.forest)
    (fun q hq ↦ q.forest_link.trans hq) rfl budget looped

theorem redraws_link (p : Player) : p.reel.state.Redraws p.link.player.reel.state := by
  have hstep (op : Operation) := Reel.redraws_step op (.top p.index) p.reel
  cases p.linkCase with
  | idle active same =>
    rw [same]
    exact .refl _
  | halt active halt same | wait active running advance same
  | next active running advance lt same =>
    rw [same]
    exact hstep _
  | restart active running advance last same =>
    rw [same]
    exact (hstep _).trans (State.redraws_resetWorld _)

theorem redraws_stepChain (budget : Nat) (p : Player) (looped : Bool) :
    p.reel.state.Redraws (stepChain budget p looped).1.reel.state :=
  stepChain_preserves (motive := fun q ↦ p.reel.state.Redraws q.reel.state)
    (fun q hq ↦ hq.trans q.redraws_link) (.refl _) budget looped

/-! ## Ticks -/

/-- A stage of zeroes that never fails to render. -/
def blankStage : Stage :=
  .ofLayers ⟨1, 0, 0, 0, 0⟩ (.zeroed 4 3) fun _ _ _ _ ↦ some ⟨.solid 4 3 0, []⟩

/-- The chain of a tick, before the commands are handed over. -/
def chain (p : Player) : Player × Bool :=
  stepChain p.forest.size { p with ticks := p.ticks + 1 } false

/-- The player when the commands of its tick have been handed over. -/
def handOver (p : Player) : Player :=
  { p with reel := { p.reel with state := p.reel.state.finishTick.2 } }

theorem tick_of_halted {p : Player} {error : Error} (h : p.halted = some error) :
    p.tick = (⟨.halted error, []⟩, p) := by
  rw [tick, h]

theorem tick_of_running {p : Player} (h : p.halted = none) :
    p.tick = (⟨p.chain.1.status p.chain.2, p.chain.1.reel.state.finishTick.1⟩,
      p.chain.1.handOver) := by
  obtain ⟨forest, reel, halted, ticks⟩ := p
  obtain rfl : halted = none := h
  rfl

theorem forest_chain (p : Player) : p.chain.1.forest = p.forest :=
  forest_stepChain _ { p with ticks := p.ticks + 1 } _

theorem redraws_chain (p : Player) : p.reel.state.Redraws p.chain.1.reel.state :=
  redraws_stepChain _ { p with ticks := p.ticks + 1 } _

/-- A halt is final. -/
theorem halted_eq_none_of_tick {p : Player} (h : p.tick.2.halted = none) : p.halted = none := by
  cases hp : p.halted with
  | none => rfl
  | some error =>
    rw [tick_of_halted hp, hp] at h
    cases h

/-- How often the demo starts over in the next tick. -/
def tickRestarts (p : Player) : Nat :=
  if p.halted.isSome then 0 else chainRestarts p.forest.size { p with ticks := p.ticks + 1 }

theorem tickRestarts_of_running {p : Player} (h : p.halted = none) :
    p.tickRestarts = chainRestarts p.forest.size { p with ticks := p.ticks + 1 } := by
  rw [tickRestarts, if_neg (by simp [h])]

/-- How often the demo starts over in the next `n` ticks. -/
def restarts (p : Player) : (n : Nat) → Nat
  | 0 => 0
  | n + 1 => p.restarts n + (p.run n).2.tickRestarts

theorem run_succ (p : Player) (n : Nat) :
    p.run (n + 1) = ((p.run n).1 ++ [(p.run n).2.tick.1], (p.run n).2.tick.2) := by
  induction n generalizing p with
  | zero => rfl
  | succ n ih =>
    rw [run]
    dsimp only
    rw [ih]
    rfl

theorem length_run (p : Player) (n : Nat) : (p.run n).1.length = n := by
  induction n with
  | zero => rfl
  | succ n ih => rw [run_succ, List.length_append, ih, List.length_singleton]

theorem running_of_le {p : Player} {m n : Nat} (hle : m ≤ n) (h : (p.run n).2.halted = none) :
    (p.run m).2.halted = none := by
  induction hle with
  | refl => exact h
  | step _ ih =>
    rw [run_succ] at h
    exact ih (halted_eq_none_of_tick h)

/-- The reports of a run are those of its ticks. -/
theorem getElem?_run {p : Player} {m n : Nat} (h : m < n) :
    (p.run n).1[m]? = some (p.run m).2.tick.1 := by
  induction n with
  | zero => cases h
  | succ n ih =>
    have hlength := p.length_run n
    rw [run_succ]
    obtain hlt | rfl := Nat.lt_or_eq_of_le (Nat.le_of_lt_succ h)
    · rw [List.getElem?_append_left (by omega), ih hlt]
    · rw [List.getElem?_append_right (by omega), hlength, Nat.sub_self]
      rfl

/-- A tick that does not halt says whether the demo started over. -/
theorem status_tick {p : Player} (h : p.tick.2.halted = none) :
    p.tick.1.status = if 0 < p.tickRestarts then .looped else .running := by
  have hrunning := halted_eq_none_of_tick h
  rw [tick_of_running hrunning] at h ⊢
  have hlooped : p.chain.2 = decide (0 < p.tickRestarts) := by
    rw [chain, stepChain_looped, Bool.false_or, tickRestarts_of_running hrunning]
  have hchain : p.chain.1.halted = none := h
  simp [status, hchain, hlooped]

/-- Once started, a player shows the stage, and it is not halted. -/
theorem start_eq_ok {forest : List Operation} {state : State} {p : Player}
    (h : start forest state = .ok p) :
    forest ≠ [] ∧ ElementId.stage ∈ state.resetWorld.2.scene.elements ∧
      p = ⟨forest.toArray, ⟨.start, state.resetWorld.2⟩, none, 0⟩ := by
  unfold start at h
  split at h
  · cases h
  · next hforest =>
    cases hreset : state.resetWorld with
    | mk fault shown =>
      rw [hreset] at h
      cases fault with
      | some error => cases h
      | none =>
        cases h
        refine ⟨fun hnil ↦ hforest (by rw [hnil]; rfl), ?_, rfl⟩
        exact State.stage_mem_of_renderStage hreset

theorem forest_pos_of_start {forest : List Operation} {state : State} {p : Player}
    (h : start forest state = .ok p) : 0 < p.forest.size := by
  obtain ⟨hforest, -, rfl⟩ := start_eq_ok h
  exact List.length_pos_iff.2 hforest

end Player

end DemoReel.Playback
