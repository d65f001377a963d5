import DemoReel.Proofs.Playback.Latches
import DemoReel.Proofs.Playback.Redraw
import DemoReel.Proofs.Playback.Timing

/-!
# Blocks keep count

A block steps the children that are not done yet, and latches those that become so.  Its latches say
in every tick which children are done, and so the block is done when the last of them is.
-/

namespace DemoReel.Playback

/-! ## Latches that keep count -/

mutual

/-- The latches are those of an operation in its tick `t`: the children of a block that are done by
then are latched and the others are not. -/
def Tracked (width t : Nat) (latched : OpPath → Bool) : Operation → OpPath → Prop
  | .leaf _, _ => True
  | .block _ children, path => TrackedAll width t latched children path 0

def TrackedAll (width t : Nat) (latched : OpPath → Bool) : List Operation → OpPath → Nat → Prop
  | [], _, _ => True
  | child :: rest, path, index =>
    (if child.lastTick width < t then latched (path.child index) = true
      else latched (path.child index) = false ∧
        Tracked width t latched child (path.child index)) ∧
      TrackedAll width t latched rest path (index + 1)

end

section

variable {width t : Nat} {latched latched' : OpPath → Bool}

mutual

theorem tracked_congr : ∀ {op : Operation} {path : OpPath},
    (∀ q : OpPath, q.isWithin path = true → latched' q = latched q) →
      Tracked width t latched op path → Tracked width t latched' op path
  | .leaf _, _, _, _ => trivial
  | .block _ _, _, hsame, h =>
    trackedAll_congr (fun q hq ↦ hsame q (OpPath.isWithin_iff_fromChild.2 hq)) h

theorem trackedAll_congr : ∀ {ops : List Operation} {path : OpPath} {index : Nat},
    (∀ q : OpPath, path.FromChild index q → latched' q = latched q) →
      TrackedAll width t latched ops path index → TrackedAll width t latched' ops path index
  | [], _, _, _, _ => trivial
  | child :: rest, path, index, hsame, ⟨hchild, hrest⟩ => by
    have hself := hsame (path.child index) (path.fromChild_child index)
    have hbelow (q : OpPath) (hq : q.isWithin (path.child index) = true) :
        latched' q = latched q :=
      hsame q ⟨index, Nat.le_refl index, OpPath.child_le_of_isWithin hq⟩
    have hlater (q : OpPath) (hq : path.FromChild (index + 1) q) : latched' q = latched q :=
      hsame q (hq.mono (Nat.le_succ index))
    refine ⟨?_, trackedAll_congr hlater hrest⟩
    rw [hself]
    split at hchild
    · next hdone =>
      rw [if_pos hdone]
      exact hchild
    · next hdone =>
      rw [if_neg hdone]
      exact ⟨hchild.1, tracked_congr hbelow hchild.2⟩

end

mutual

/-- An operation in its first tick goes without latches. -/
theorem tracked_zero (hnone : ∀ q, latched q = false) : ∀ (op : Operation) (path : OpPath),
    Tracked width 0 latched op path
  | .leaf _, _ => trivial
  | .block _ children, path => trackedAll_zero hnone children path 0

theorem trackedAll_zero (hnone : ∀ q, latched q = false) : ∀ (ops : List Operation)
    (path : OpPath) (index : Nat), TrackedAll width 0 latched ops path index
  | [], _, _ => trivial
  | child :: rest, path, index => by
    refine ⟨?_, trackedAll_zero hnone rest path (index + 1)⟩
    rw [if_neg (Nat.not_lt_zero _)]
    exact ⟨hnone _, tracked_zero hnone child _⟩

end

end

/-! ## What a step leaves alone -/

namespace Reel

theorem progress_stepLeaf (i : Instruction) (path : OpPath) (r : Reel) :
    (stepLeaf i path r).2.progress.index = r.progress.index ∧
      (stepLeaf i path r).2.progress.tick = r.progress.tick ∧
      (stepLeaf i path r).2.progress.latched = r.progress.latched := by
  cases i with
  | moveCamera blockX blockY frameCount =>
    simp only [stepLeaf, moveCamera]
    repeat' split
    all_goals exact ⟨rfl, rfl, rfl⟩
  | _ => exact ⟨rfl, rfl, rfl⟩

/-- The step leaves index and tick alone, and every latch that is not among those it may set. -/
structure Keeps (r r' : Reel) (mayLatch : OpPath → Prop) : Prop where
  index : r'.progress.index = r.progress.index
  tick : r'.progress.tick = r.progress.tick
  latches : ∀ q, ¬mayLatch q → r'.progress.isLatched q = r.progress.isLatched q

theorem Keeps.trans {r r' r'' : Reel} {mayLatch : OpPath → Prop} (h : r.Keeps r' mayLatch)
    (h' : r'.Keeps r'' mayLatch) : r.Keeps r'' mayLatch where
  index := h'.index.trans h.index
  tick := h'.tick.trans h.tick
  latches := fun q hq ↦ (h'.latches q hq).trans (h.latches q hq)

theorem Keeps.mono {r r' : Reel} {mayLatch mayLatch' : OpPath → Prop} (h : r.Keeps r' mayLatch)
    (hle : ∀ q, mayLatch q → mayLatch' q) : r.Keeps r' mayLatch' :=
  ⟨h.index, h.tick, fun q hq ↦ h.latches q fun hlatch ↦ hq (hle q hlatch)⟩

theorem keeps_latchIfDone (r : Reel) (path : OpPath) (outcome : Outcome) :
    r.Keeps (r.latchIfDone path outcome) (path = ·) := by
  unfold latchIfDone
  split
  · refine ⟨rfl, rfl, fun q hq ↦ ?_⟩
    rw [Progress.isLatched_latch, decide_eq_false hq, Bool.false_or]
  · exact ⟨rfl, rfl, fun _ _ ↦ rfl⟩

mutual

theorem keeps_step : ∀ (op : Operation) (path : OpPath) (r : Reel),
    r.Keeps (step op path r).2 (fun q ↦ q.isWithin path = true)
  | .leaf i, path, r => by
    obtain ⟨hindex, htick, hlatched⟩ := progress_stepLeaf i path r
    rw [step]
    exact ⟨hindex, htick, fun q _ ↦ by rw [Progress.isLatched, hlatched, Progress.isLatched]⟩
  | .block childCount children, path, r => by
    have hchildren := (keeps_stepChildren children path 0 .done r).mono
      fun q ↦ OpPath.isWithin_iff_fromChild.2
    rw [step]
    dsimp only
    split
    · refine hchildren.trans ⟨rfl, rfl, fun q hq ↦ ?_⟩
      exact Progress.isLatched_clearWithin (Bool.not_eq_true _ ▸ hq)
    · exact hchildren

theorem keeps_stepChildren : ∀ (children : List Operation) (path : OpPath) (index : Nat)
    (outcome : Outcome) (r : Reel),
    r.Keeps (stepChildren children path index outcome r).2 (path.FromChild index)
  | [], _, _, _, _ => ⟨rfl, rfl, fun _ _ ↦ rfl⟩
  | child :: rest, path, index, outcome, r => by
    have hchild : r.Keeps (step child (path.child index) r).2 (path.FromChild index) :=
      (keeps_step child (path.child index) r).mono
        fun q hq ↦ ⟨index, Nat.le_refl index, OpPath.child_le_of_isWithin hq⟩
    rw [stepChildren]
    dsimp only
    split
    · apply (keeps_stepChildren rest path (index + 1) outcome r).mono
      exact fun q hq ↦ hq.mono (Nat.le_succ index)
    · split
      · exact hchild
      · refine hchild.trans ?_
        refine ((keeps_latchIfDone _ _ _).mono ?_).trans
          ((keeps_stepChildren rest path (index + 1) _ _).mono ?_)
        · rintro q rfl
          exact path.fromChild_child index
        · exact fun q hq ↦ hq.mono (Nat.le_succ index)

end

/-! ## Outcomes on time -/

/-- What a round over the children of a block says, on top of the outcome before it. -/
structure RoundOnTime (outcome result : Outcome) (t last : Nat) (hasInstantLeaf : Bool) : Prop where
  advance : result.advance = (outcome.advance && decide (last ≤ t))
  consumesTick : result.consumesTick =
    (outcome.consumesTick && !(decide (t = 0) && hasInstantLeaf))

theorem RoundOnTime.nil (outcome : Outcome) (t : Nat) : RoundOnTime outcome outcome t 0 false :=
  ⟨by simp, by simp⟩

/-- A child that is done already changes nothing. -/
theorem RoundOnTime.skip {outcome result : Outcome} {t last lastRest : Nat} {instant rest : Bool}
    (hdone : last < t) (h : RoundOnTime outcome result t lastRest rest) :
    RoundOnTime outcome result t (max last lastRest) (instant || rest) := by
  have ht : decide (t = 0) = false := decide_eq_false (by omega)
  have hlast : (max last lastRest ≤ t) = (lastRest ≤ t) := by
    rw [eq_iff_iff]
    omega
  refine ⟨?_, ?_⟩
  · simp only [h.advance, hlast]
  · simp [h.consumesTick, ht]

theorem RoundOnTime.cons {outcome child result : Outcome} {t last lastRest : Nat}
    {instant rest : Bool} (hle : t ≤ last) (hchild : child.OnTime t last instant)
    (h : RoundOnTime (outcome.both child) result t lastRest rest) :
    RoundOnTime outcome result t (max last lastRest) (instant || rest) := by
  have hlast : decide (max last lastRest ≤ t) = (decide (t = last) && decide (lastRest ≤ t)) := by
    rw [Bool.eq_iff_iff]
    simp only [Bool.and_eq_true, decide_eq_true_eq]
    omega
  refine ⟨?_, ?_⟩
  · rw [h.advance, hlast, Outcome.both, hchild.advance, Bool.and_assoc]
  · rw [h.consumesTick, Outcome.both, hchild.consumesTick]
    cases decide (t = 0) <;> simp [Bool.and_assoc]

theorem isLatched_latchIfDone_self {r : Reel} {path : OpPath} {outcome : Outcome}
    (h : outcome.advance = true) : (r.latchIfDone path outcome).progress.isLatched path = true := by
  rw [latchIfDone, if_pos h, Progress.isLatched_latch, decide_eq_true rfl, Bool.true_or]

section

variable {width t : Nat}

/-- Stepping a child and latching it disturbs nothing at or below its later siblings. -/
theorem trackedAll_latchIfDone {r r₁ : Reel} {rest : List Operation} {path : OpPath} {index : Nat}
    {result : Outcome} (hkeeps : r.Keeps r₁ fun q ↦ q.isWithin (path.child index) = true)
    (h : TrackedAll width t r.progress.isLatched rest path (index + 1)) :
    TrackedAll width t (r₁.latchIfDone (path.child index) result).progress.isLatched rest path
      (index + 1) := by
  apply trackedAll_congr _ h
  intro q hq
  have hnotBelow (hbelow : path.child index <+: q) : False := OpPath.not_fromChild_succ hbelow hq
  calc
    _ = r₁.progress.isLatched q :=
      (keeps_latchIfDone r₁ (path.child index) result).latches q
        fun heq ↦ hnotBelow (heq ▸ List.prefix_refl _)
    _ = r.progress.isLatched q :=
      hkeeps.latches q fun hwithin ↦ hnotBelow (OpPath.child_le_of_isWithin hwithin)

/-- The round goes on from a child in the same tick, with the latches that the later children
need. -/
theorem round_after (child : Operation) {r : Reel} {rest : List Operation} {path : OpPath}
    {index : Nat} (hconfig : r.state.config.viewportWidth.toNat = width)
    (htick : r.progress.tick.toNat = t)
    (hrest : TrackedAll width t r.progress.isLatched rest path (index + 1)) :
    let r' := (step child (path.child index) r).2.latchIfDone (path.child index)
      (step child (path.child index) r).1
    r'.state.config.viewportWidth.toNat = width ∧ r'.progress.tick.toNat = t ∧
      TrackedAll width t r'.progress.isLatched rest path (index + 1) := by
  have hkeeps := keeps_step child (path.child index) r
  have hlatch := keeps_latchIfDone (step child (path.child index) r).2 (path.child index)
    (step child (path.child index) r).1
  refine ⟨?_, ?_, trackedAll_latchIfDone hkeeps hrest⟩
  · rw [state_latchIfDone, (redraws_step child (path.child index) r).config, hconfig]
  · rw [hlatch.tick, hkeeps.tick, htick]

/-- In the next tick a child that was stepped is latched if this was its last tick, and otherwise
its own latches are those of the next tick. -/
theorem tracked_child_succ {r r₁ r₂ : Reel} {child : Operation} {path : OpPath} {index : Nat}
    {result : Outcome} (hle : t ≤ child.lastTick width)
    (hunlatched : r.progress.isLatched (path.child index) = false)
    (hkeeps : r.Keeps r₁ fun q ↦ q.isWithin (path.child index) = true)
    (honTime : result.OnTime t (child.lastTick width) child.hasInstantLeaf)
    (hnext : t < child.lastTick width →
      Tracked width (t + 1) r₁.progress.isLatched child (path.child index))
    (hrest : (r₁.latchIfDone (path.child index) result).Keeps r₂ (path.FromChild (index + 1))) :
    if child.lastTick width < t + 1 then r₂.progress.isLatched (path.child index) = true
    else r₂.progress.isLatched (path.child index) = false ∧
      Tracked width (t + 1) r₂.progress.isLatched child (path.child index) := by
  have hself := hrest.latches _ (OpPath.not_fromChild_succ (List.prefix_refl (path.child index)))
  rw [hself]
  by_cases hlast : t = child.lastTick width
  · have hadvance : result.advance = true := by rw [honTime.advance, decide_eq_true hlast]
    rw [if_pos (by omega)]
    exact isLatched_latchIfDone_self hadvance
  · have hadvance : result.advance = false := by rw [honTime.advance, decide_eq_false hlast]
    have hwaits : r₁.latchIfDone (path.child index) result = r₁ := by
      rw [latchIfDone, if_neg (by simp [hadvance])]
    rw [hwaits] at hrest ⊢
    rw [if_neg (by omega), hkeeps.latches _ (by simp [OpPath.isWithin_self])]
    refine ⟨hunlatched, tracked_congr (fun q hq ↦ ?_) (hnext (by omega))⟩
    exact hrest.latches q (OpPath.not_fromChild_succ (OpPath.child_le_of_isWithin hq))

mutual

/-- An operation is done in its last tick and not before, and until then its latches stay those of
an operation in its next tick. -/
theorem onTime_step (hwidth : width ≤ 2 ^ 30) : ∀ {op : Operation} {path : OpPath} {r : Reel},
    r.state.config.viewportWidth.toNat = width → r.progress.tick.toNat = t →
      t ≤ op.lastTick width → Tracked width t r.progress.isLatched op path →
        (step op path r).1.halt = none →
          (step op path r).1.OnTime t (op.lastTick width) op.hasInstantLeaf ∧
            (t < op.lastTick width →
              Tracked width (t + 1) (step op path r).2.progress.isLatched op path)
  | .leaf i, path, r, hconfig, htick, ht, _, hhalt => by
    subst hconfig htick
    rw [step] at hhalt ⊢
    exact ⟨onTime_stepLeaf hwidth ht hhalt, fun _ ↦ trivial⟩
  | .block childCount children, path, r, hconfig, htick, ht, htracked, hhalt => by
    rw [Operation.lastTick] at ht ⊢
    rw [outcome_step_block] at hhalt ⊢
    obtain ⟨hround, hnext⟩ := onTime_stepChildren hwidth hconfig htick htracked hhalt
    have hadvance : (stepChildren children path 0 .done r).1.advance =
        decide (t = Operation.lastTickAll width children) := by
      rw [hround.advance, Bool.eq_iff_iff]
      simp only [Outcome.done, Outcome.ticking, Bool.true_and, decide_eq_true_eq]
      omega
    refine ⟨⟨hadvance, hround.consumesTick⟩, fun hlt ↦ ?_⟩
    rw [step]
    dsimp only
    rw [hadvance, decide_eq_false (Nat.ne_of_lt hlt)]
    exact hnext

theorem onTime_stepChildren (hwidth : width ≤ 2 ^ 30) : ∀ {children : List Operation}
    {path : OpPath} {index : Nat} {outcome : Outcome} {r : Reel},
    r.state.config.viewportWidth.toNat = width → r.progress.tick.toNat = t →
      TrackedAll width t r.progress.isLatched children path index →
        (stepChildren children path index outcome r).1.halt = none →
          RoundOnTime outcome (stepChildren children path index outcome r).1 t
              (Operation.lastTickAll width children) (Operation.hasInstantLeafAny children) ∧
            TrackedAll width (t + 1)
              (stepChildren children path index outcome r).2.progress.isLatched children path index
  | [], _, _, outcome, _, _, _, _, _ => ⟨.nil outcome t, trivial⟩
  | child :: rest, path, index, outcome, r, hconfig, htick, ⟨hchild, hrest⟩, hhalt => by
    split at hchild
    · -- the child was done before
      next hdone =>
      rw [stepChildren_of_latched hchild] at hhalt ⊢
      obtain ⟨hround, hnext⟩ := onTime_stepChildren hwidth hconfig htick hrest hhalt
      refine ⟨hround.skip hdone, ?_, hnext⟩
      rw [if_pos (Nat.lt_succ_of_lt hdone)]
      have hkeeps := keeps_stepChildren rest path (index + 1) outcome r
      rw [hkeeps.latches _ (OpPath.not_fromChild_succ (List.prefix_refl _))]
      exact hchild
    · next hdone =>
      obtain ⟨hunlatched, htracked⟩ := hchild
      cases hresult : (step child (path.child index) r).1.halt with
      | some error =>
        rw [stepChildren_of_halt hunlatched hresult] at hhalt
        cases hresult.symm.trans hhalt
      | none =>
        rw [stepChildren_of_step hunlatched hresult] at hhalt ⊢
        have hle : t ≤ child.lastTick width := Nat.le_of_not_lt hdone
        obtain ⟨honTime, hnextChild⟩ := onTime_step hwidth hconfig htick hle htracked hresult
        obtain ⟨hconfig', htick', hrest'⟩ := round_after child hconfig htick hrest
        obtain ⟨hround, hnextRest⟩ := onTime_stepChildren hwidth hconfig' htick' hrest' hhalt
        exact ⟨hround.cons hle honTime, tracked_child_succ hle hunlatched (keeps_step child _ r)
          honTime hnextChild (keeps_stepChildren rest path (index + 1) _ _), hnextRest⟩

end

end

end Reel

end DemoReel.Playback
