import DemoReel.Proofs.Playback.Elements
import DemoReel.Proofs.Playback.Record
import DemoReel.Proofs.Playback.Turns
import Mathlib

/-!
# Where the hero stands

Nobody but a walk moves the hero, and a walk moves him by one step a tick, twelve times.  So he
stands twelve steps away from the origin for each walk of the pass that is done, and as many steps
as ticks have gone by for each one that is under way.  A step is a twelfth of a block rounded down,
so that the walk covers the block only if its size is a multiple of twelve.
-/

namespace DemoReel

/-- The blocks, across and down, that an instruction is to take the hero. -/
def Instruction.blocksWalked : Instruction → Int × Int
  | .playerMove direction => direction.delta
  | _ => 0

theorem Instruction.blocksWalked_of_ne {i : Instruction}
    (h : ∀ direction, i ≠ .playerMove direction) : i.blocksWalked = 0 := by
  cases i with
  | playerMove direction => exact absurd rfl (h direction)
  | _ => rfl

namespace Playback

variable {s s' : State} {steps : Int × Int} {t : UInt32}

/-- The whole number is that of a pixel. -/
def IsPixel (n : Int) : Prop := Int32.minValue.toInt ≤ n ∧ n ≤ Int32.maxValue.toInt

theorem IsPixel.toInt_add_ofInt {place : Int32} {n : Int} (h : IsPixel (place.toInt + n)) :
    (place + Int32.ofInt n).toInt = place.toInt + n := by
  obtain ⟨hlow, hhigh⟩ := h
  rw [Int32.toInt_minValue] at hlow
  rw [Int32.toInt_maxValue] at hhigh
  have hsum : place + Int32.ofInt n = Int32.ofInt (place.toInt + n) := by
    rw [Int32.ofInt_add, Int32.ofInt_toInt]
  rw [hsum, Int32.toInt_ofInt_of_le hlow (by omega)]

/-! ## The hero's place -/

namespace State

/-- The pixels of one walking step. -/
def walkStep (s : State) : Int32 := s.config.blockSize.toInt32 / walkTicks.toInt32

/-- The hero stands so many steps, across and down, from where a demo puts him at first. -/
def HeroAt (s : State) (steps : Int × Int) : Prop :=
  ∃ hero, s.scene.get? ElementId.hero = some hero ∧
    hero.x = s.heroOrigin.x + Int32.ofInt steps.1 * s.walkStep ∧
    hero.y = s.heroOrigin.y + Int32.ofInt steps.2 * s.walkStep

theorem Redraws.walkStep (h : s.Redraws s') : s'.walkStep = s.walkStep := by
  rw [State.walkStep, State.walkStep, h.config]

theorem HeroAt.of_get?_eq (h : s.HeroAt steps) (hredraws : s.Redraws s')
    (hhero : s'.scene.get? ElementId.hero = s.scene.get? ElementId.hero) : s'.HeroAt steps := by
  obtain ⟨hero, hget, hx, hy⟩ := h
  refine ⟨hero, hhero.trans hget, ?_, ?_⟩
  · rw [hredraws.heroOrigin, hredraws.walkStep, hx]
  · rw [hredraws.heroOrigin, hredraws.walkStep, hy]

/-- Walking takes the hero one step on. -/
theorem HeroAt.walkHero (h : s.HeroAt steps) (direction : Direction) :
    (s.walkHero direction).HeroAt (steps + direction.delta) := by
  have hredraws := s.redraws_walkHero direction
  obtain ⟨hero, hget, hx, hy⟩ := h
  have hmoved : (s.walkHero direction).scene.get? ElementId.hero = some { hero with
      x := hero.x + Int32.ofInt direction.delta.1 * s.walkStep
      y := hero.y + Int32.ofInt direction.delta.2 * s.walkStep } := by
    unfold State.walkHero
    rw [hget]
    dsimp only
    rw [Scene.get?_setPosition, if_pos rfl, hget]
    rfl
  refine ⟨_, hmoved, ?_, ?_⟩
  · rw [hredraws.heroOrigin, hredraws.walkStep, hx, Prod.fst_add, Int32.ofInt_add]
    grind
  · rw [hredraws.heroOrigin, hredraws.walkStep, hy, Prod.snd_add, Int32.ofInt_add]
    grind

/-- Wherever the hero was, he is put back. -/
theorem heroAt_resetWorld (s : State) : s.resetWorld.2.HeroAt 0 := by
  have hzero : Int32.ofInt 0 = 0 := rfl
  refine ⟨_, s.get?_hero_resetWorld, ?_, ?_⟩
  · rw [s.redraws_resetWorld.heroOrigin, Prod.fst_zero, hzero]
    grind
  · rw [s.redraws_resetWorld.heroOrigin, Prod.snd_zero, hzero]
    grind

theorem invariant_heroOrigin (origin : Point) (config : Config) :
    Invariant fun s ↦ s.heroOrigin = origin ∧ s.config = config where
  leaf i path r h _ :=
    have hredraws := Reel.redraws_stepLeaf i path r
    ⟨hredraws.heroOrigin.trans h.1, hredraws.config.trans h.2⟩
  reset s h _ := ⟨s.redraws_resetWorld.heroOrigin.trans h.1, s.redraws_resetWorld.config.trans h.2⟩
  finish _ h := h

/-- A step is a twelfth of a block, rounded down. -/
theorem walkStep_eq (h : s.config.blockSize.toNat < 2 ^ 31) :
    s.walkStep = Int32.ofInt (s.config.blockSize.toNat / 12) := by
  have hsize : s.config.blockSize.toInt32 = Int32.ofInt s.config.blockSize.toNat := by
    rw [← Int32.toInt_inj, toInt_toInt32 h, Int32.toInt_ofInt_of_le (by omega) (by omega)]
  have htwelve : walkTicks.toInt32 = Int32.ofInt 12 := rfl
  have hlow : Int32.minValue.toInt ≤ s.config.blockSize.toNat := by
    rw [Int32.toInt_minValue]
    omega
  have hhigh : (s.config.blockSize.toNat : Int) ≤ Int32.maxValue.toInt := by
    rw [Int32.toInt_maxValue]
    omega
  rw [walkStep, hsize, htwelve, ← Int32.ofInt_tdiv hlow hhigh (by decide) (by decide),
    Int.tdiv_eq_ediv_of_nonneg (Int.natCast_nonneg _)]

/-- Twelve steps cover a block but for what its size leaves when divided by twelve. -/
theorem ofInt_twelve_mul_walkStep (h : s.config.blockSize.toNat < 2 ^ 31) (blocks : Int) :
    Int32.ofInt (12 * blocks) * s.walkStep =
      Int32.ofInt ((s.config.blockSize.toNat - s.config.blockSize.toNat % 12) * blocks) := by
  have hcovered : (s.config.blockSize.toNat : Int) - s.config.blockSize.toNat % 12 =
      12 * (s.config.blockSize.toNat / 12) := by
    omega
  rw [walkStep_eq h, ← Int32.ofInt_mul, hcovered, mul_right_comm]

end State

/-! ## Leaves -/

/-- No other instruction touches the hero. -/
theorem Reel.hero_stepLeaf {i : Instruction} (h : ∀ direction, i ≠ .playerMove direction)
    (path : OpPath) (r : Reel) :
    (stepLeaf i path r).2.state.scene.get? ElementId.hero =
      r.state.scene.get? ElementId.hero := by
  have hdraws : ElementId.hero ∉ i.draws := by
    cases i with
    | playerMove direction => exact absurd rfl (h direction)
    | _ => dsimp only [Instruction.draws, Instruction.puts]; decide
  exact (evolvesIn_stepLeaf i path r).get?_eq (fun hputs ↦ hdraws (i.draws_of_puts hputs)) hdraws

theorem State.HeroAt.stepLeaf {r : Reel} (h : r.state.HeroAt steps) (i : Instruction)
    (path : OpPath) : (r.stepLeaf i path).2.state.HeroAt (steps + i.blocksWalked) := by
  by_cases hwalk : ∃ direction, i = .playerMove direction
  · obtain ⟨direction, rfl⟩ := hwalk
    exact h.walkHero direction
  · have hother := not_exists.1 hwalk
    rw [Instruction.blocksWalked_of_ne hother, add_zero]
    exact h.of_get?_eq (Reel.redraws_stepLeaf i path r) (Reel.hero_stepLeaf hother path r)

/-- Each of the leaves moves the hero by what it walks. -/
theorem Visit.Chained.heroAt {visits : List Visit} (hchained : Visit.Chained s visits s')
    (h : s.HeroAt steps) :
    s'.HeroAt (steps + ((visits.map Visit.instruction).map Instruction.blocksWalked).sum) := by
  induction visits generalizing s steps with
  | nil =>
    obtain rfl : s = s' := hchained
    exact (add_zero steps).symm ▸ h
  | cons v visits ih =>
    obtain ⟨rfl, hrest⟩ := hchained
    rw [List.map_cons, List.map_cons, List.sum_cons, ← add_assoc]
    exact ih hrest (h.stepLeaf v.instruction v.path)

/-- Whoever walks is done in the twelfth tick. -/
theorem Reel.advance_of_blocksWalked {i : Instruction} (h : i.blocksWalked ≠ 0) (path : OpPath)
    (r : Reel) :
    (stepLeaf i path r).1.advance = decide (walkTicks ≤ r.progress.tick + 1) := by
  cases i with
  | playerMove direction => rfl
  | _ => exact absurd rfl h

namespace Visit

/-- The blocks of a walk that is done with this visit. -/
def walked (v : Visit) : Int × Int := if v.result.1.advance then v.instruction.blocksWalked else 0

theorem walked_eq (v : Visit) :
    v.walked = if walkTicks ≤ v.reel.progress.tick + 1 then v.instruction.blocksWalked else 0 := by
  rw [walked]
  -- whoever does not walk adds nothing, done or not
  by_cases hwalk : v.instruction.blocksWalked = 0
  · rw [hwalk, ite_self, ite_self]
  · rw [result, Reel.advance_of_blocksWalked hwalk]
    simp only [decide_eq_true_eq]

/-- The blocks of all the walks that are done with these visits. -/
def blocksWalked (visits : List Visit) : Int × Int := (visits.map walked).sum

theorem blocksWalked_append (visits more : List Visit) :
    blocksWalked (visits ++ more) = blocksWalked visits + blocksWalked more := by
  rw [blocksWalked, List.map_append, List.sum_append, blocksWalked, blocksWalked]

end Visit

/-! ## Walks under way -/

namespace Slot

/-- The blocks of a walk that has yet to be done. -/
def walk : Slot → Int × Int
  | ended => 0
  | due instruction _ => instruction.blocksWalked

/-- The blocks of all the walks that have yet to be done. -/
def blocksDue (slots : List Slot) : Int × Int := (slots.map walk).sum

theorem blocksDue_eq_instructions (slots : List Slot) :
    blocksDue slots = ((slots.filterMap instruction?).map Instruction.blocksWalked).sum := by
  induction slots with
  | nil => rfl
  | cons slot slots ih =>
    rw [blocksDue] at ih ⊢
    cases slot with
    | ended =>
      rw [List.map_cons, List.sum_cons, walk, zero_add, ih]
      rfl
    | due instruction origin =>
      rw [List.map_cons, List.sum_cons, ih]
      rfl

theorem blocksDue_replicate_ended (count : Nat) : blocksDue (List.replicate count ended) = 0 := by
  rw [blocksDue, List.map_replicate, walk, List.sum_replicate, smul_zero]

theorem walk_play (t : UInt32) (s : State) (slot : Slot) :
    (slot.play t s).2.1.walk = if walkTicks ≤ t + 1 then 0 else slot.walk := by
  cases slot with
  | ended => exact (ite_self _).symm
  | due i origin =>
    rw [play]
    dsimp only
    rw [apply_ite walk, walk, walk, walk]
    by_cases hwalk : i.blocksWalked = 0
    · rw [hwalk, ite_self, ite_self]
    · rw [Reel.advance_of_blocksWalked hwalk]
      simp only [decide_eq_true_eq]
      rfl

/-- In their twelfth tick all walks are done at once, and before it none is. -/
theorem blocksDue_playAll {slots : List Slot} {outcome : Outcome}
    (hhalt : (playAll t slots outcome s).outcome.halt = none) :
    blocksDue (playAll t slots outcome s).slots =
      if walkTicks ≤ t + 1 then 0 else blocksDue slots := by
  induction slots generalizing outcome s with
  | nil => exact (ite_self _).symm
  | cons slot slots ih =>
    cases hslot : (slot.play t s).1.halt with
    | some error =>
      rw [playAll_cons_of_halt hslot, hslot] at hhalt
      cases hhalt
    | none =>
      rw [playAll_cons_of_step hslot] at hhalt ⊢
      have hrest := ih hhalt
      rw [blocksDue] at hrest ⊢
      rw [Round.behind, List.singleton_append, List.map_cons, List.sum_cons, hrest, walk_play,
        blocksDue, blocksDue, List.map_cons, List.sum_cons]
      split
      · exact add_zero 0
      · rfl

end Slot

theorem TakeTurns.sum_blocksWalked {slots : List Slot} {visits : List Visit}
    (h : TakeTurns t slots visits) :
    ((visits.map Visit.instruction).map Instruction.blocksWalked).sum = Slot.blocksDue slots := by
  rw [h.instructions, Slot.blocksDue_eq_instructions]

/-- Either all walks that are due are done in this tick or none is. -/
theorem TakeTurns.blocksWalked {slots : List Slot} {visits : List Visit}
    (h : TakeTurns t slots visits) :
    Visit.blocksWalked visits = if walkTicks ≤ t + 1 then Slot.blocksDue slots else 0 := by
  have hwalked : visits.map Visit.walked =
      visits.map fun v ↦ if walkTicks ≤ t + 1 then v.instruction.blocksWalked else 0 :=
    List.map_congr_left fun v hv ↦ h.tick v hv ▸ v.walked_eq
  rw [Visit.blocksWalked, hwalked, ← h.sum_blocksWalked, List.map_map]
  split
  · rfl
  · exact List.sum_map_zero

/-! ## Ticks -/

/-- A tick takes the hero on by one step for each walk that is due, and in its twelfth tick the
walk counts as done. -/
theorem twelve_steps {done due : Int × Int} (h : due ≠ 0 → t.toNat < 12) :
    12 • done + t.toNat • due + due =
      12 • (done + if walkTicks ≤ t + 1 then due else 0) +
        (t + 1).toNat • (if walkTicks ≤ t + 1 then (0 : Int × Int) else due) := by
  by_cases hnone : due = 0
  · simp only [hnone, ite_self, smul_zero, add_zero]
  · -- a walk is under way, so that the count of ticks cannot wrap
    have hlt := h hnone
    have hone : (1 : UInt32).toNat = 1 := by decide
    have hwalk : walkTicks.toNat = 12 := by decide
    have hnext : (t + 1).toNat = t.toNat + 1 := by
      rw [UInt32.toNat_add, hone]
      omega
    rw [hnext, add_assoc, ← succ_nsmul]
    by_cases hover : walkTicks ≤ t + 1
    · have htwelve : t.toNat + 1 = 12 := by
        rw [UInt32.le_iff_toNat_le, hnext, hwalk] at hover
        omega
      rw [if_pos hover, if_pos hover, htwelve, smul_zero, add_zero, smul_add]
    · rw [if_neg hover, if_neg hover, add_zero]

namespace Player

variable {forest : List Operation} {p : Player} {op : Operation} {visited : List Visit}

/-- The slots of the active operation. -/
def slots (p : Player) : List Slot :=
  match p.forest[p.index]? with
  | none => []
  | some op => p.reel.progress.slots op (.top p.index)

theorem slots_of_getElem? (h : p.forest[p.index]? = some op) :
    p.slots = p.reel.progress.slots op (.top p.index) := by
  rw [slots, h]

/-- The hero stands where the walks of the record and those under way have taken him, and a walk is
under way for less than twelve ticks. -/
structure Walks (visited : List Visit) (p : Player) : Prop where
  hero : p.reel.state.HeroAt
    (12 • Visit.blocksWalked visited + p.reel.progress.tick.toNat • Slot.blocksDue p.slots)
  inTime : Slot.blocksDue p.slots ≠ 0 → p.reel.progress.tick.toNat < 12

/-- An operation that starts afresh is under way for no tick yet. -/
theorem walks_of_fresh (htick : p.reel.progress.tick = 0)
    (hero : p.reel.state.HeroAt (12 • Visit.blocksWalked visited)) : p.Walks visited := by
  have hzero : p.reel.progress.tick.toNat = 0 := by
    rw [htick]
    rfl
  refine ⟨?_, fun _ ↦ ?_⟩
  · rwa [hzero, zero_smul, add_zero]
  · rw [hzero]
    exact Nat.succ_pos 11

/-- The active operation takes the hero as far as its walks go in this tick. -/
theorem Walks.step (h : p.Walks visited) (hop : p.forest[p.index]? = some op)
    (hhalt : (Reel.step op (.top p.index) p.reel).1.halt = none) :
    (Reel.step op (.top p.index) p.reel).2.state.HeroAt
      (12 • Visit.blocksWalked (visited ++ p.visits) + (p.reel.progress.tick + 1).toNat •
        Slot.blocksDue (Reel.round op (.top p.index) p.reel).slots) := by
  have hturns := Reel.takeTurns_visits hhalt
  have hround := Reel.isRound_step op (.top p.index) p.reel
  have hmoved := (Reel.chained_visits op (.top p.index) p.reel).heroAt h.hero
  rw [hround.outcome] at hhalt
  rw [← slots_of_getElem? hop] at hturns
  rw [hturns.sum_blocksWalked, twelve_steps h.inTime] at hmoved
  rw [Visit.blocksWalked_append, visits_of_getElem? hop, hturns.blocksWalked, Reel.round,
    Slot.blocksDue_playAll hhalt, ← slots_of_getElem? hop]
  exact hmoved

/-- What is still due after a tick is in time for another one. -/
theorem lt_of_blocksDue_round
    (hhalt : (Reel.step op (.top p.index) p.reel).1.halt = none)
    (hdue : Slot.blocksDue (Reel.round op (.top p.index) p.reel).slots ≠ 0) :
    (p.reel.progress.tick + 1).toNat < 12 := by
  have hwalk : walkTicks.toNat = 12 := by decide
  rw [(Reel.isRound_step op (.top p.index) p.reel).outcome] at hhalt
  rw [Reel.round, Slot.blocksDue_playAll hhalt] at hdue
  have hearly := (ite_ne_left_iff.1 hdue).1
  rwa [UInt32.le_iff_toNat_le, hwalk, Nat.not_le] at hearly

/-- An operation that is not done goes on with the slots that its round leaves. -/
theorem slots_link_of_wait (hop : p.forest[p.index]? = some op)
    (hhalt : (Reel.step op (.top p.index) p.reel).1.halt = none)
    (hadvance : (Reel.step op (.top p.index) p.reel).1.advance = false) :
    p.link.player.slots = (Reel.round op (.top p.index) p.reel).slots := by
  have hindex : p.link.player.index = p.index := by
    rw [link_of_getElem? hop, settle_of_wait hhalt hadvance]
    exact (Reel.keeps_step op (.top p.index) p.reel).index
  have hactive : p.link.player.forest[p.link.player.index]? = some op := by
    rw [forest_link, hindex, hop]
  rw [slots_of_getElem? hactive, hindex, link_of_getElem? hop, settle_of_wait hhalt hadvance]
  dsimp only
  rw [Progress.slots_wait]
  exact (Reel.isRound_step op (.top p.index) p.reel).slots hhalt hadvance

theorem Walks.link_of_wait (h : p.Walks visited) (hop : p.forest[p.index]? = some op)
    (hhalt : (Reel.step op (.top p.index) p.reel).1.halt = none)
    (hadvance : (Reel.step op (.top p.index) p.reel).1.advance = false) :
    p.link.player.Walks (record visited p) := by
  have hslots := slots_link_of_wait hop hhalt hadvance
  have htick : p.link.player.reel.progress.tick = p.reel.progress.tick + 1 := by
    rw [link_of_getElem? hop, settle_of_wait hhalt hadvance]
    exact congrArg (· + 1) (Reel.keeps_step op (.top p.index) p.reel).tick
  have hstate : p.link.player.reel.state = (Reel.step op (.top p.index) p.reel).2.state := by
    rw [link_of_getElem? hop, settle_of_wait hhalt hadvance]
  rw [record, endsPass_of_wait hop hadvance, if_neg Bool.false_ne_true]
  constructor
  · rw [hslots, htick, hstate]
    exact h.step hop hhalt
  · rw [hslots, htick]
    exact lt_of_blocksDue_round hhalt

/-- Nothing is due any more when the operation is done, so that no walk is left half-way. -/
theorem Walks.hero_of_done (h : p.Walks visited) (hop : p.forest[p.index]? = some op)
    (hhalt : (Reel.step op (.top p.index) p.reel).1.halt = none)
    (hadvance : (Reel.step op (.top p.index) p.reel).1.advance = true) :
    (Reel.step op (.top p.index) p.reel).2.state.HeroAt
      (12 • Visit.blocksWalked (visited ++ p.visits)) := by
  have hround := Reel.isRound_step op (.top p.index) p.reel
  have hstep := h.step hop hhalt
  rw [hround.outcome] at hhalt hadvance
  rwa [Reel.round, (Slot.slots_of_done hhalt hadvance).2, Slot.blocksDue_replicate_ended, smul_zero,
    add_zero] at hstep

theorem Walks.link (h : p.Walks visited) (hrun : p.link.player.halted = none) :
    p.link.player.Walks (record visited p) := by
  cases p.linkCase with
  | idle none same =>
    have hrecord : record visited p = visited := by
      rw [record, endsPass, none, visits, none, if_neg Bool.false_ne_true, List.append_nil]
    rwa [same, hrecord]
  | halt active halt same =>
    rw [same] at hrun
    cases hrun
  | wait active running advance same => exact h.link_of_wait active running advance
  | next active running advance lt same =>
    rw [same, record, endsPass_of_next active running advance lt, if_neg Bool.false_ne_true]
    exact walks_of_fresh rfl (h.hero_of_done active running advance)
  | restart active running advance last same =>
    rw [same, record, endsPass_of_last active running advance last, if_pos rfl]
    exact walks_of_fresh rfl (State.heroAt_resetWorld _)

theorem passInvariant_walks :
    PassInvariant fun visited p ↦ p.halted = none → p.Walks visited where
  link hrunning h hrun := (h hrunning).link hrun
  count _ h hrun := ⟨(h hrun).hero, (h hrun).inTime⟩
  handOver h hrun := ⟨(h hrun).hero, (h hrun).inTime⟩

theorem walks_start {state : State} (hstart : start forest state = .ok p) : p.Walks [] := by
  obtain ⟨-, -, rfl⟩ := start_eq_ok hstart
  exact walks_of_fresh rfl state.heroAt_resetWorld

/-- When the active operation starts afresh, the hero is off his first place by the blocks of the
walks that are done since the demo last went back to its origin, each of them as long as twelve
steps: a block, less what its size leaves when divided by twelve.  Places are 32-bit words, and the
whole numbers in question as long as these fit.  No leaf but a walk moves the hero, and going back
to the origin puts him where he was at first. -/
theorem hero_stands_where_walks_lead {state : State} (hstart : start forest state = .ok p)
    (hblock : state.config.blockSize.toNat < 2 ^ 31) {n : Nat} (hrun : (p.run n).2.halted = none)
    (htick : (p.run n).2.reel.progress.tick = 0) :
    let blocks := Visit.blocksWalked (p.visited n)
    let length : Int := state.config.blockSize.toNat - state.config.blockSize.toNat % 12
    (∃ hero, (p.run n).2.reel.state.scene.get? ElementId.hero = some hero ∧
        hero.x = state.heroOrigin.x + Int32.ofInt (length * blocks.1) ∧
        hero.y = state.heroOrigin.y + Int32.ofInt (length * blocks.2) ∧
        (IsPixel (state.heroOrigin.x.toInt + length * blocks.1) →
          hero.x.toInt = state.heroOrigin.x.toInt + length * blocks.1) ∧
        (IsPixel (state.heroOrigin.y.toInt + length * blocks.2) →
          hero.y.toInt = state.heroOrigin.y.toInt + length * blocks.2)) ∧
      (∀ q ∈ moments n p, ∀ v ∈ q.visits, (∀ direction, v.instruction ≠ .playerMove direction) →
        v.result.2.state.scene.get? ElementId.hero = v.reel.state.scene.get? ElementId.hero) ∧
      ∀ q ∈ moments n p, q.endsPass = true → q.link.player.reel.state.HeroAt 0 := by
  have hwalks := passInvariant_walks.run (fun _ ↦ walks_start hstart) n hrun
  have hfirst : p.reel.state.heroOrigin = state.heroOrigin ∧
      p.reel.state.config = state.config := by
    obtain ⟨-, -, rfl⟩ := start_eq_ok hstart
    exact ⟨state.redraws_resetWorld.heroOrigin, state.redraws_resetWorld.config⟩
  obtain ⟨horigin, hconfig⟩ :=
    (State.invariant_heroOrigin state.heroOrigin state.config).run hfirst hrun
  have hzero : (p.run n).2.reel.progress.tick.toNat = 0 := by
    rw [htick]
    rfl
  refine ⟨?_, fun q _ v _ hother ↦ Reel.hero_stepLeaf hother v.path v.reel, fun q _ hends ↦ ?_⟩
  · obtain ⟨hero, hget, hx, hy⟩ := hwalks.hero
    rw [← hconfig] at hblock ⊢
    rw [hzero, zero_smul, add_zero, horigin] at hx hy
    rw [Prod.smul_fst, nsmul_eq_mul, Nat.cast_ofNat, State.ofInt_twelve_mul_walkStep hblock] at hx
    rw [Prod.smul_snd, nsmul_eq_mul, Nat.cast_ofNat, State.ofInt_twelve_mul_walkStep hblock] at hy
    exact ⟨hero, hget, hx, hy, fun hfits ↦ hx ▸ hfits.toInt_add_ofInt,
      fun hfits ↦ hy ▸ hfits.toInt_add_ofInt⟩
  · obtain ⟨s, -, hstate⟩ := q.exists_chained_link
    rw [hstate, hends, if_pos rfl]
    exact s.heroAt_resetWorld

/-- In the second pass, with blocks of 30 pixels and two walks at once, one of them two blocks
deep. -/
theorem hero_stands_where_walks_lead_of_second_pass :
    ∃ p, start [.block 2 [.leaf (.playerMove .right), .block 1 [.leaf (.playerMove .down)]],
        .leaf (.playerMove .left)]
        (.initial { blockSize := 30 } blankStage (.solid 24 30 0) ∅) = .ok p ∧
      p.restarts 36 = 1 ∧ (p.run 36).2.halted = none ∧
      (p.run 36).2.reel.progress.tick = 0 ∧ Visit.blocksWalked (p.visited 36) = (1, 1) ∧
      ∃ hero, (p.run 36).2.reel.state.scene.get? ElementId.hero = some hero ∧
        hero.x = 24 ∧ hero.y = 24 := by
  obtain ⟨p, hstart, hpass, hrun, htick, hblocks⟩ : ∃ p,
      start [.block 2 [.leaf (.playerMove .right), .block 1 [.leaf (.playerMove .down)]],
        .leaf (.playerMove .left)]
        (.initial { blockSize := 30 } blankStage (.solid 24 30 0) ∅) = .ok p ∧
      p.restarts 36 = 1 ∧ (p.run 36).2.halted = none ∧
      (p.run 36).2.reel.progress.tick = 0 ∧ Visit.blocksWalked (p.visited 36) = (1, 1) :=
    ⟨_, rfl, by decide +kernel, by decide +kernel, by decide +kernel, by decide +kernel⟩
  obtain ⟨⟨hero, hget, hx, hy, -⟩, -⟩ := hero_stands_where_walks_lead hstart (by decide) hrun htick
  rw [hblocks] at hx hy
  exact ⟨p, hstart, hpass, hrun, htick, hblocks, hero, hget, hx, hy⟩

/-- A walk over a block of 25 pixels ends a pixel short of the next one. -/
theorem hero_falls_short_of_block :
    ∃ p, start [.leaf (.playerMove .right), .leaf (.delay 5)]
        (.initial { blockSize := 25 } blankStage (.solid 24 30 0) ∅) = .ok p ∧
      (p.run 12).2.halted = none ∧ (p.run 12).2.reel.progress.tick = 0 ∧
      Visit.blocksWalked (p.visited 12) = (1, 0) ∧
      ((p.run 12).2.reel.state.scene.get? ElementId.hero).map Element.x = some 24 ∧
      ((p.run 12).2.reel.state.scene.get? ElementId.hero).map Element.x ≠
        some (p.reel.state.heroOrigin.x +
          Int32.ofInt (25 * (Visit.blocksWalked (p.visited 12)).1)) :=
  ⟨_, rfl, by decide +kernel, by decide +kernel, by decide +kernel, by decide +kernel,
    by decide +kernel⟩

end Player

end Playback

end DemoReel
