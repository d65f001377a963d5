import DemoReel.Proofs.Playback.Pacing
import DemoReel.Proofs.Playback.Walking

/-!
# Arithmetic without overflow

Playback counts in 32-bit words.  A stage that leaves a block of room for each walk of its demo
keeps the hero among the pixels, since a walk is stepped twelve times in a pass at most; and the
counter of ticks keeps clear of its end.  All that is computed is then what whole numbers would
give.
-/

namespace DemoReel

/-- The instruction moves the hero. -/
def Instruction.isWalk : Instruction → Bool
  | .playerMove _ => true
  | _ => false

/-- A step of a walk moves the hero by one pixel step at most, across or down. -/
theorem Instruction.natAbs_blocksWalked_le (i : Instruction) :
    i.blocksWalked.1.natAbs ≤ i.isWalk.toNat ∧ i.blocksWalked.2.natAbs ≤ i.isWalk.toNat := by
  cases i with
  | playerMove direction =>
    cases direction with
    | unknown byte => exact ⟨Nat.zero_le 1, Nat.zero_le 1⟩
    | _ => decide
  | _ => exact ⟨Nat.le_refl 0, Nat.le_refl 0⟩

/-- The number of walks in a forest, at any depth. -/
def Operation.walks (ops : List Operation) : Nat :=
  (Operation.leavesAll ops).countP Instruction.isWalk

theorem Operation.walks_append (ops more : List Operation) :
    walks (ops ++ more) = walks ops + walks more := by
  rw [walks, leavesAll_append, List.countP_append, walks, walks]

namespace Playback

namespace Visit

/-- The number of leaves among these that move the hero. -/
def walks (visits : List Visit) : Nat := visits.countP fun v ↦ v.instruction.isWalk

/-- The steps that the leaves take the hero, across and down. -/
def steps (visits : List Visit) : Int × Int :=
  ((visits.map Visit.instruction).map Instruction.blocksWalked).sum

theorem walks_append (visits more : List Visit) :
    walks (visits ++ more) = walks visits + walks more :=
  List.countP_append

theorem steps_append (visits more : List Visit) :
    steps (visits ++ more) = steps visits + steps more := by
  rw [steps, List.map_append, List.map_append, List.sum_append, steps, steps]

theorem steps_cons (v : Visit) (visits : List Visit) :
    steps (v :: visits) = v.instruction.blocksWalked + steps visits := by
  rw [steps, List.map_cons, List.map_cons, List.sum_cons, steps]

/-- Each walk among them accounts for one step at most. -/
theorem natAbs_steps_le (visits : List Visit) :
    (steps visits).1.natAbs ≤ walks visits ∧ (steps visits).2.natAbs ≤ walks visits := by
  induction visits with
  | nil => exact ⟨Nat.le_refl 0, Nat.le_refl 0⟩
  | cons v visits ih =>
    have hcount : walks (v :: visits) = v.instruction.isWalk.toNat + walks visits := by
      rw [walks, List.countP_cons, Nat.add_comm, walks]
      cases v.instruction.isWalk <;> rfl
    have hv := v.instruction.natAbs_blocksWalked_le
    rw [hcount, steps_cons, Prod.fst_add, Prod.snd_add]
    omega

end Visit

/-- A step meets each walk of its operation once at most. -/
theorem Reel.walks_visits_le (op : Operation) (path : OpPath) (r : Reel) :
    Visit.walks (visits op path r) ≤ Operation.walks [op] := by
  have hleaves : (op.leavesAt path).countP (fun leaf ↦ leaf.2.isWalk) = Operation.walks [op] := by
    rw [Operation.walks, Operation.leavesAll, Operation.leavesAll, List.append_nil,
      ← op.map_snd_leavesAt path, List.countP_map]
    rfl
  have hvisits : Visit.walks (visits op path r) =
      ((visits op path r).map Visit.leaf).countP fun leaf ↦ leaf.2.isWalk := by
    rw [Visit.walks, List.countP_map]
    rfl
  rw [← hleaves, hvisits]
  exact (sublist_visits op path r).countP_le

/-! ## Words that do not wrap -/

namespace IsPixel

variable {a b : Int32}

theorem of_lt {n : Int} (hlow : -2 ^ 31 ≤ n) (hhigh : n < 2 ^ 31) : IsPixel n := by
  rw [IsPixel, Int32.toInt_minValue, Int32.toInt_maxValue]
  omega

theorem toInt_mul (h : IsPixel (a.toInt * b.toInt)) : (a * b).toInt = a.toInt * b.toInt := by
  obtain ⟨hlow, hhigh⟩ := h
  rw [Int32.toInt_minValue] at hlow
  rw [Int32.toInt_maxValue] at hhigh
  rw [Int32.toInt_mul]
  exact Int.bmod_eq_of_le hlow (by omega)

theorem toInt_add (h : IsPixel (a.toInt + b.toInt)) : (a + b).toInt = a.toInt + b.toInt := by
  obtain ⟨hlow, hhigh⟩ := h
  rw [Int32.toInt_minValue] at hlow
  rw [Int32.toInt_maxValue] at hhigh
  rw [Int32.toInt_add]
  exact Int.bmod_eq_of_le hlow (by omega)

theorem toInt_sub (h : IsPixel (a.toInt - b.toInt)) : (a - b).toInt = a.toInt - b.toInt := by
  obtain ⟨hlow, hhigh⟩ := h
  rw [Int32.toInt_minValue] at hlow
  rw [Int32.toInt_maxValue] at hhigh
  rw [Int32.toInt_sub]
  exact Int.bmod_eq_of_le hlow (by omega)

end IsPixel

namespace State

variable {s s' : State} {margin : Nat}

/-- The largest stage, `margin` blocks around it and the hero have room among the pixels. -/
def Roomy (margin : Nat) (s : State) : Prop :=
  (65536 + margin) * s.config.blockSize.toNat + s.hero.height.toNat < 2 ^ 31

theorem Roomy.blockSize_lt (h : s.Roomy margin) : s.config.blockSize.toNat < 2 ^ 31 := by
  rw [Roomy, Nat.add_mul] at h
  omega

theorem Roomy.of_redraws (h : s.Roomy margin) (hredraws : s.Redraws s') : s'.Roomy margin := by
  rw [Roomy, hredraws.config, hredraws.hero]
  exact h

/-- The place of the hero at the origin is computed without overflow. -/
theorem Roomy.heroOrigin (h : s.Roomy margin) :
    let block := s.config.blockSize
    let row := s.stage.binding.y
    s.heroOrigin.x.toInt = s.stage.binding.x.toNat * block.toNat ∧
      (row.toUInt32.toInt32 * block.toInt32).toInt = row.toNat * block.toNat ∧
      (row.toUInt32.toInt32 * block.toInt32 + block.toInt32).toInt =
        row.toNat * block.toNat + block.toNat ∧
      s.heroOrigin.y.toInt = row.toNat * block.toNat + block.toNat - s.hero.height.toNat := by
  have hblock : s.config.blockSize.toInt32.toInt = s.config.blockSize.toNat :=
    toInt_toInt32 h.blockSize_lt
  have hheight : s.hero.height.toInt32.toInt = s.hero.height.toNat := by
    apply toInt_toInt32
    rw [Roomy] at h
    omega
  rw [Roomy, Nat.add_mul] at h
  have hplace (n : UInt16) : n.toNat * s.config.blockSize.toNat ≤
        65535 * s.config.blockSize.toNat ∧
      (n.toUInt32.toInt32 * s.config.blockSize.toInt32).toInt =
        n.toNat * s.config.blockSize.toNat := by
    have hlt := n.toNat_lt
    have hle : n.toNat * s.config.blockSize.toNat ≤ 65535 * s.config.blockSize.toNat :=
      Nat.mul_le_mul_right _ (by omega)
    have hn : n.toUInt32.toInt32.toInt = n.toNat := toInt_toInt32 (by
      rw [UInt16.toNat_toUInt32]
      omega)
    refine ⟨hle, ?_⟩
    rw [IsPixel.toInt_mul, hn, hblock]
    rw [hn, hblock]
    exact .of_lt (by omega) (by omega)
  obtain ⟨-, hx⟩ := hplace s.stage.binding.x
  obtain ⟨hrow, hy⟩ := hplace s.stage.binding.y
  have hbelow : (s.stage.binding.y.toUInt32.toInt32 * s.config.blockSize.toInt32 +
      s.config.blockSize.toInt32).toInt =
        s.stage.binding.y.toNat * s.config.blockSize.toNat + s.config.blockSize.toNat := by
    rw [IsPixel.toInt_add, hy, hblock]
    rw [hy, hblock]
    exact .of_lt (by omega) (by omega)
  refine ⟨hx, hy, hbelow, ?_⟩
  rw [State.heroOrigin, IsPixel.toInt_sub, hbelow, hheight]
  rw [hbelow, hheight]
  exact .of_lt (by omega) (by omega)

/-- The hero stays among the pixels for as many steps as there is room for. -/
theorem Roomy.exists_hero (h : s.Roomy margin) {steps : Int × Int} (hero : s.HeroAt steps)
    (hsteps : steps.1.natAbs ≤ 12 * margin ∧ steps.2.natAbs ≤ 12 * margin) :
    ∃ hero, s.scene.get? ElementId.hero = some hero ∧
      hero.x.toInt = s.heroOrigin.x.toInt + steps.1 * (s.config.blockSize.toNat / 12) ∧
      hero.y.toInt = s.heroOrigin.y.toInt + steps.2 * (s.config.blockSize.toNat / 12) := by
  obtain ⟨hx, -, -, hy⟩ := h.heroOrigin
  have hsize := h.blockSize_lt
  obtain ⟨hero, hget, hheroX, hheroY⟩ := hero
  rw [State.walkStep_eq hsize, ← Int32.ofInt_mul] at hheroX hheroY
  -- twelve steps a walk take the hero no farther than the room that there is for it
  have hfar {n : Int} (hn : n.natAbs ≤ 12 * margin) :
      (n * (s.config.blockSize.toNat / 12)).natAbs ≤ margin * s.config.blockSize.toNat := by
    have hstep : (s.config.blockSize.toNat / 12 : Int).natAbs = s.config.blockSize.toNat / 12 := by
      omega
    calc
      _ = n.natAbs * (s.config.blockSize.toNat / 12) := by rw [Int.natAbs_mul, hstep]
      _ ≤ 12 * margin * (s.config.blockSize.toNat / 12) := Nat.mul_le_mul_right _ hn
      _ = margin * (12 * (s.config.blockSize.toNat / 12)) := by ring
      _ ≤ _ := Nat.mul_le_mul_left _ (Nat.mul_div_le _ 12)
  have hfarX := hfar hsteps.1
  have hfarY := hfar hsteps.2
  have hcolumn : s.stage.binding.x.toNat * s.config.blockSize.toNat ≤
      65535 * s.config.blockSize.toNat :=
    Nat.mul_le_mul_right _ (Nat.le_of_lt_succ s.stage.binding.x.toNat_lt)
  have hrow : s.stage.binding.y.toNat * s.config.blockSize.toNat ≤
      65535 * s.config.blockSize.toNat :=
    Nat.mul_le_mul_right _ (Nat.le_of_lt_succ s.stage.binding.y.toNat_lt)
  rw [Roomy, Nat.add_mul] at h
  refine ⟨hero, hget, ?_, ?_⟩
  · rw [hheroX, IsPixel.toInt_add_ofInt]
    rw [hx]
    exact .of_lt (by omega) (by omega)
  · rw [hheroY, IsPixel.toInt_add_ofInt]
    rw [hy]
    exact .of_lt (by omega) (by omega)

/-- The pixels of a walking step are computed without overflow. -/
theorem Roomy.toInt_step (h : s.Roomy margin) (direction : Direction) :
    (Int32.ofInt direction.delta.1 * s.walkStep).toInt =
        direction.delta.1 * (s.config.blockSize.toNat / 12) ∧
      (Int32.ofInt direction.delta.2 * s.walkStep).toInt =
        direction.delta.2 * (s.config.blockSize.toNat / 12) := by
  have hsize := h.blockSize_lt
  have hfits {n : Int} (hn : n.natAbs ≤ 1) :
      (Int32.ofInt (n * (s.config.blockSize.toNat / 12))).toInt =
        n * (s.config.blockSize.toNat / 12) := by
    obtain rfl | rfl | rfl : n = -1 ∨ n = 0 ∨ n = 1 := by omega
    all_goals exact Int32.toInt_ofInt_of_le (by omega) (by omega)
  have hunit := (Instruction.playerMove direction).natAbs_blocksWalked_le
  rw [State.walkStep_eq hsize, ← Int32.ofInt_mul, ← Int32.ofInt_mul]
  exact ⟨hfits hunit.1, hfits hunit.2⟩

end State

namespace Player

variable {p : Player} {visited : List Visit}

/-- The operation that is under way, if any. -/
def active (p : Player) : List Operation := p.forest.toList[p.index]?.toList

/-- The hero stands where the steps of the record have taken him, and each walk of the forest has
taken no more steps than ticks have gone by for it, nor more than twelve. -/
structure Strides (visited : List Visit) (p : Player) : Prop where
  hero : p.reel.state.HeroAt (Visit.steps visited)
  total : Visit.walks visited ≤ 12 * Operation.walks p.forest.toList
  underway : p.halted = none → Visit.walks visited ≤
    12 * Operation.walks (p.forest.toList.take p.index) +
      min p.reel.progress.tick.toNat 12 * Operation.walks p.active

theorem walks_take_succ (p : Player) :
    Operation.walks (p.forest.toList.take (p.index + 1)) =
      Operation.walks (p.forest.toList.take p.index) + Operation.walks p.active := by
  rw [List.take_add_one, Operation.walks_append, active]

theorem walks_take_le (ops : List Operation) (n : Nat) :
    Operation.walks (ops.take n) ≤ Operation.walks ops := by
  have hsplit := Operation.walks_append (ops.take n) (ops.drop n)
  rw [List.take_append_drop] at hsplit
  omega

/-- No leaf is stepped after its last tick, whether or not the step halts. -/
theorem Paced.tick_le_lastTick (h : p.Paced) (hrun : p.halted = none)
    (hwidth : p.reel.state.config.viewportWidth.toNat ≤ 2 ^ 30) {v : Visit} (hv : v ∈ p.visits) :
    p.reel.progress.tick.toNat ≤
      v.instruction.lastTick p.reel.state.config.viewportWidth.toNat := by
  obtain ⟨op, hop, hv⟩ := exists_active_of_mem_visits hv
  exact Instruction.le_lastTick_of_goesOn hwidth (h.goesOn hrun op hop _
    (Reel.mem_leavesAt_of_mem_visits hv) (Reel.foundBy_of_mem_visits hv).awaited)

/-- In each of the first twelve ticks of an operation its walks take a step at most, and from then
on none. -/
theorem Paced.walks_visits_le (h : p.Paced) (hrun : p.halted = none)
    (hwidth : p.reel.state.config.viewportWidth.toNat ≤ 2 ^ 30) :
    min p.reel.progress.tick.toNat 12 * Operation.walks p.active + Visit.walks p.visits ≤
      min (p.reel.progress.tick.toNat + 1) 12 * Operation.walks p.active := by
  obtain hlt | hle := Nat.lt_or_ge p.reel.progress.tick.toNat 12
  · have hvisits : Visit.walks p.visits ≤ Operation.walks p.active := by
      cases hop : p.forest[p.index]? with
      | none =>
        rw [visits, hop]
        exact Nat.zero_le _
      | some op =>
        rw [visits_of_getElem? hop, active, Array.getElem?_toList, hop]
        exact Reel.walks_visits_le op (.top p.index) p.reel
    rw [Nat.min_eq_left (Nat.le_of_lt hlt), Nat.min_eq_left hlt, Nat.add_one_mul]
    exact Nat.add_le_add_left hvisits _
  · have hnone : Visit.walks p.visits = 0 := List.countP_eq_zero.2 fun v hv hwalk ↦ by
      have hlast := h.tick_le_lastTick hrun hwidth hv
      cases hinstruction : v.instruction with
      | playerMove direction =>
        rw [hinstruction, Instruction.lastTick] at hlast
        omega
      | _ =>
        rw [hinstruction] at hwalk
        cases hwalk
    rw [hnone, Nat.min_eq_right hle, Nat.min_eq_right (Nat.le_succ_of_le hle), Nat.add_zero]

theorem Strides.walks_le (h : p.Strides visited) (hpaced : p.Paced) (hrun : p.halted = none)
    (hwidth : p.reel.state.config.viewportWidth.toNat ≤ 2 ^ 30) :
    Visit.walks (visited ++ p.visits) ≤ 12 * Operation.walks (p.forest.toList.take p.index) +
      min (p.reel.progress.tick.toNat + 1) 12 * Operation.walks p.active := by
  have hbefore := h.underway hrun
  have hnow := hpaced.walks_visits_le hrun hwidth
  rw [Visit.walks_append]
  omega

/-- The step of the active operation and those before it are among the steps that a pass has. -/
theorem Strides.walks_le_of_done (h : p.Strides visited) (hpaced : p.Paced)
    (hrun : p.halted = none) (hwidth : p.reel.state.config.viewportWidth.toNat ≤ 2 ^ 30) :
    Visit.walks (visited ++ p.visits) ≤
      12 * Operation.walks (p.forest.toList.take (p.index + 1)) := by
  calc
    _ ≤ _ := h.walks_le hpaced hrun hwidth
    _ ≤ 12 * Operation.walks (p.forest.toList.take p.index) + 12 * Operation.walks p.active :=
      Nat.add_le_add_left (Nat.mul_le_mul_right _ (Nat.min_le_right _ _)) _
    _ = _ := by rw [walks_take_succ, Nat.mul_add]

theorem Strides.link (h : p.Strides visited) (hpaced : p.Paced) (hrun : p.halted = none)
    (hwidth : p.reel.state.config.viewportWidth.toNat ≤ 2 ^ 30) :
    p.link.player.Strides (record visited p) := by
  have hdone := h.walks_le_of_done hpaced hrun hwidth
  refine ⟨?_, ?_, fun hrun' ↦ ?_⟩
  · obtain ⟨s, hchained, hstate⟩ := p.exists_chained_link
    rw [hstate, record]
    split
    · exact s.heroAt_resetWorld
    · rw [Visit.steps_append]
      exact hchained.heroAt h.hero
  · rw [forest_link, record]
    split
    · exact Nat.zero_le _
    · exact hdone.trans (Nat.mul_le_mul_left 12 (walks_take_le _ _))
  · cases p.linkCase with
    | idle none same =>
      have hvisits : p.visits = [] := by rw [visits, none]
      have hends : p.endsPass = false := by rw [endsPass, none]
      rw [same, record, hends, hvisits, if_neg Bool.false_ne_true, List.append_nil]
      exact h.underway hrun
    | halt active halt same =>
      rw [same] at hrun'
      cases hrun'
    | @wait op active running advance same =>
      have hkeeps := Reel.keeps_step op (.top p.index) p.reel
      have hindex : p.link.player.index = p.index := by
        rw [same]
        exact hkeeps.index
      have htick : p.link.player.reel.progress.tick.toNat = p.reel.progress.tick.toNat + 1 := by
        rw [same]
        dsimp only
        rw [Progress.wait, hkeeps.tick]
        exact hpaced.toNat_tick_add_one
      rw [htick, hindex, Player.active, hindex, forest_link, record,
        endsPass_of_wait active advance, if_neg Bool.false_ne_true]
      exact h.walks_le hpaced hrun hwidth
    | next active running advance lt same =>
      rw [same, record, endsPass_of_next active running advance lt, if_neg Bool.false_ne_true]
      exact hdone.trans (Nat.le_add_right _ _)
    | restart active running advance last same =>
      rw [record, endsPass_of_last active running advance last, if_pos rfl]
      exact Nat.zero_le _

/-- Timing, hero and place are those that the demo began with, its counter has room, and so has the
hero. -/
structure InRoom (forest : List Operation) (state : State) (visited : List Visit) (p : Player) :
    Prop where
  forest : p.forest.toList = forest
  config : p.reel.state.config = state.config
  hero : p.reel.state.hero = state.hero
  origin : p.reel.state.heroOrigin = state.heroOrigin
  paced : p.Paced
  strides : p.Strides visited

variable {forest : List Operation} {state : State}

theorem passInvariant_inRoom (hwidth : state.config.viewportWidth.toNat ≤ 2 ^ 30) :
    PassInvariant (InRoom forest state) where
  link {_ p} hrun h := by
    have hredraws := p.redraws_link
    exact ⟨p.forest_link ▸ h.forest, hredraws.config.trans h.config, hredraws.hero.trans h.hero,
      hredraws.heroOrigin.trans h.origin, h.paced.link hrun,
      h.strides.link h.paced hrun (h.config ▸ hwidth)⟩
  count ticks h :=
    ⟨h.forest, h.config, h.hero, h.origin, h.paced.count ticks, h.strides.hero,
      h.strides.total, h.strides.underway⟩
  handOver h :=
    ⟨h.forest, h.config, h.hero, h.origin, h.paced.handOver, h.strides.hero,
      h.strides.total, h.strides.underway⟩

theorem inRoom_start (hstart : start forest state = .ok p) : p.InRoom forest state [] := by
  have hpaced := paced_start hstart
  obtain ⟨-, -, rfl⟩ := start_eq_ok hstart
  have hredraws := state.redraws_resetWorld
  exact ⟨rfl, hredraws.config, hredraws.hero, hredraws.heroOrigin, hpaced,
    state.heroAt_resetWorld, Nat.zero_le _, fun _ ↦ Nat.zero_le _⟩

theorem InRoom.roomy {margin : Nat} (h : p.InRoom forest state visited)
    (hroom : state.Roomy margin) : p.reel.state.Roomy margin := by
  rw [State.Roomy, h.config, h.hero]
  exact hroom

/-- A walking step is exact, from where the hero stands to where he gets. -/
structure ExactStep (v : Visit) (direction : Direction) (blockSize : Nat) : Prop where
  across : (Int32.ofInt direction.delta.1 * v.reel.state.walkStep).toInt =
    direction.delta.1 * (blockSize / 12)
  down : (Int32.ofInt direction.delta.2 * v.reel.state.walkStep).toInt =
    direction.delta.2 * (blockSize / 12)
  hero : ∃ before after, v.reel.state.scene.get? ElementId.hero = some before ∧
    v.result.2.state.scene.get? ElementId.hero = some after ∧
    after.x.toInt = before.x.toInt + direction.delta.1 * (blockSize / 12) ∧
    after.y.toInt = before.y.toInt + direction.delta.2 * (blockSize / 12)

theorem InRoom.exactStep (h : p.InRoom forest state visited) (hrun : p.halted = none)
    (hwidth : state.config.viewportWidth.toNat ≤ 2 ^ 30)
    (hroom : state.Roomy (Operation.walks forest)) {v : Visit} (hv : v ∈ p.visits)
    {direction : Direction} (hwalk : v.instruction = .playerMove direction) :
    ExactStep v direction state.config.blockSize.toNat := by
  obtain ⟨s, hchained, -⟩ := p.exists_chained_link
  obtain ⟨before, after, hsplit, hreached⟩ := hchained.exists_before hv
  have hredraws : p.reel.state.Redraws v.reel.state := hchained.forall_visits
    (motive := p.reel.state.Redraws) (fun v _ hs ↦ hs.trans (Reel.redraws_stepLeaf _ _ _))
    (.refl _) v hv
  have hredraws' : p.reel.state.Redraws v.result.2.state :=
    hredraws.trans (Reel.redraws_stepLeaf v.instruction v.path v.reel)
  have hbefore : v.reel.state.HeroAt (Visit.steps (visited ++ before)) := by
    rw [Visit.steps_append]
    exact hreached.heroAt h.strides.hero
  have hafter : v.result.2.state.HeroAt (Visit.steps (visited ++ before) + direction.delta) := by
    have hmoved := hbefore.stepLeaf v.instruction v.path
    rw [hwalk, Instruction.blocksWalked] at hmoved
    rw [Visit.result, hwalk]
    exact hmoved
  -- both places are those of steps that are among the ones of the pass
  have hcount : Visit.walks (visited ++ before) + 1 ≤ 12 * Operation.walks forest := by
    have hdone := (h.strides.walks_le_of_done h.paced hrun (h.config ▸ hwidth)).trans
      (Nat.mul_le_mul_left 12 (walks_take_le _ _))
    have hself : Visit.walks (v :: after) = Visit.walks after + 1 := by
      rw [Visit.walks, List.countP_cons, hwalk, Instruction.isWalk, if_pos rfl, Visit.walks]
    rw [hsplit, ← List.append_assoc, Visit.walks_append, hself, h.forest] at hdone
    omega
  have hsteps := Visit.natAbs_steps_le (visited ++ before)
  have hunit := (Instruction.playerMove direction).natAbs_blocksWalked_le
  rw [Instruction.blocksWalked, Instruction.isWalk, Bool.toNat_true] at hunit
  have hroom' := (h.roomy hroom).of_redraws hredraws
  obtain ⟨heroBefore, hgetBefore, hxBefore, hyBefore⟩ := hroom'.exists_hero hbefore (by omega)
  obtain ⟨heroAfter, hgetAfter, hxAfter, hyAfter⟩ :=
    ((h.roomy hroom).of_redraws hredraws').exists_hero hafter (by
      rw [Prod.fst_add, Prod.snd_add]
      omega)
  have hsize : v.reel.state.config.blockSize = state.config.blockSize := by
    rw [hredraws.config, h.config]
  have hsize' : v.result.2.state.config.blockSize = state.config.blockSize := by
    rw [hredraws'.config, h.config]
  have horigin : v.result.2.state.heroOrigin = v.reel.state.heroOrigin := by
    rw [hredraws'.heroOrigin, hredraws.heroOrigin]
  obtain ⟨hacross, hdown⟩ := hroom'.toInt_step direction
  rw [hsize] at hacross hdown hxBefore hyBefore
  rw [hsize', horigin] at hxAfter hyAfter
  refine ⟨hacross, hdown, heroBefore, heroAfter, hgetBefore, hgetAfter, ?_, ?_⟩
  · rw [hxAfter, hxBefore, Prod.fst_add, add_mul, add_assoc]
  · rw [hyAfter, hyBefore, Prod.snd_add, add_mul, add_assoc]

/-- How far chat text has moved is exact, and not much farther than the viewport is wide. -/
theorem InRoom.toInt_chat (h : p.InRoom forest state visited) (hrun : p.halted = none)
    (hwidth : state.config.viewportWidth.toNat ≤ 2 ^ 30) {v : Visit} (hv : v ∈ p.visits)
    {lineCount : UInt8} {offsetY : UInt16} {text : DemoText}
    (hchat : v.instruction = .paintChat lineCount offsetY text) :
    (p.reel.progress.tick.toInt32 * chatSpeed).toInt = p.reel.progress.tick.toNat * 5 ∧
      p.reel.progress.tick.toNat * 5 < state.config.viewportWidth.toNat + 5 := by
  have hlast := h.paced.tick_le_lastTick hrun (h.config ▸ hwidth) hv
  rw [hchat, h.config, Instruction.lastTick] at hlast
  have htick : p.reel.progress.tick.toInt32.toInt = p.reel.progress.tick.toNat :=
    toInt_toInt32 (by omega)
  have hspeed : chatSpeed.toInt = 5 := by decide
  refine ⟨?_, by omega⟩
  rw [IsPixel.toInt_mul, htick, hspeed]
  rw [htick, hspeed]
  exact .of_lt (by omega) (by omega)

/-- Let the viewport be not too wide, and the stage have a block of room for each walk of the forest
next to the largest place and the hero.  Then whatever playback does, halting included, the counter
of ticks never gets to the greatest word, chat text moves by what whole numbers would give, and the
hero is put at the origin and taken on by each step of each walk without leaving the pixels. -/
theorem arithmetic_does_not_overflow (hstart : start forest state = .ok p)
    (hwidth : state.config.viewportWidth.toNat ≤ 2 ^ 30)
    (hroom : (65536 + Operation.walks forest) * state.config.blockSize.toNat +
      state.hero.height.toNat < 2 ^ 31) (n : Nat) :
    let block := state.config.blockSize
    let row := state.stage.binding.y
    (p.run n).2.reel.progress.tick.toNat ≤ 2 ^ 32 - 2 ∧
      (p.run n).2.reel.state.heroOrigin = state.heroOrigin ∧
      (∃ hero, (p.run n).2.reel.state.scene.get? ElementId.hero = some hero ∧
        hero.x.toInt = state.heroOrigin.x.toInt +
          (Visit.steps (p.visited n)).1 * (block.toNat / 12) ∧
        hero.y.toInt = state.heroOrigin.y.toInt +
          (Visit.steps (p.visited n)).2 * (block.toNat / 12)) ∧
      (∀ moment ∈ moments n p,
        (moment.reel.progress.tick + 1).toNat = moment.reel.progress.tick.toNat + 1 ∧
        ∀ v ∈ moment.visits, v.reel.progress.tick = moment.reel.progress.tick ∧
          (∀ lineCount offsetY text, v.instruction = .paintChat lineCount offsetY text →
            (v.reel.progress.tick.toInt32 * chatSpeed).toInt = v.reel.progress.tick.toNat * 5 ∧
              v.reel.progress.tick.toNat * 5 < state.config.viewportWidth.toNat + 5) ∧
          ∀ direction, v.instruction = .playerMove direction →
            ExactStep v direction block.toNat) ∧
      state.heroOrigin.x.toInt = state.stage.binding.x.toNat * block.toNat ∧
      (row.toUInt32.toInt32 * block.toInt32).toInt = row.toNat * block.toNat ∧
      (row.toUInt32.toInt32 * block.toInt32 + block.toInt32).toInt =
        row.toNat * block.toNat + block.toNat ∧
      state.heroOrigin.y.toInt = row.toNat * block.toNat + block.toNat -
        state.hero.height.toNat := by
  have hinvariant : PassInvariant (InRoom forest state) := passInvariant_inRoom hwidth
  have hbegun := inRoom_start hstart
  have hnow := hinvariant.run hbegun n
  have hroomy : state.Roomy (Operation.walks forest) := hroom
  refine ⟨Nat.le_pred_of_lt hnow.paced.tick_lt, hnow.origin, ?_, fun moment hmoment ↦ ?_,
    hroomy.heroOrigin⟩
  · have hsteps := Visit.natAbs_steps_le (p.visited n)
    have htotal := hnow.strides.total
    rw [hnow.forest] at htotal
    rw [← hnow.config, ← hnow.origin]
    exact (hnow.roomy hroomy).exists_hero hnow.strides.hero (by omega)
  · obtain ⟨visited, hthen⟩ := hinvariant.of_mem_moments hbegun moment hmoment
    have hrun := halted_of_mem_moments hmoment
    refine ⟨hthen.paced.toNat_tick_add_one, fun v hv ↦ ?_⟩
    have htick := tick_of_mem_visits hv
    refine ⟨htick, fun lineCount offsetY text hchat ↦ ?_, fun direction hwalk ↦
      hthen.exactStep hrun hwidth hroomy hv hwalk⟩
    rw [htick]
    exact hthen.toInt_chat hrun hwidth hv hchat

/-- A stage whose demo begins on the last block that a binding can name. -/
def cornerStage : Stage :=
  .ofLayers ⟨1, 0, 0, 65535, 65535⟩ (.zeroed 4 3) fun _ _ _ _ ↦ some ⟨.solid 4 3 0, []⟩

/-- In the seventh tick of the second pass, on blocks that could not be larger. -/
theorem arithmetic_does_not_overflow_of_corner :
    ∃ p, start [.block 2 [.leaf (.playerMove .right), .block 1 [.leaf (.playerMove .left),
          .leaf (.playerMove .right)]], .leaf (.delay 2)]
        (.initial { blockSize := 32766 } cornerStage (.solid 24 30 0) ∅) = .ok p ∧
      p.restarts 20 = 1 ∧ (p.run 20).2.reel.progress.tick = 6 ∧
      ∃ hero, (p.run 20).2.reel.state.scene.get? ElementId.hero = some hero ∧
        hero.x.toInt = 65535 * 32766 + 6 * 2730 := by
  obtain ⟨p, hstart, hpass, htick, hsteps⟩ : ∃ p,
      start [.block 2 [.leaf (.playerMove .right), .block 1 [.leaf (.playerMove .left),
          .leaf (.playerMove .right)]], .leaf (.delay 2)]
        (.initial { blockSize := 32766 } cornerStage (.solid 24 30 0) ∅) = .ok p ∧
      p.restarts 20 = 1 ∧ (p.run 20).2.reel.progress.tick = 6 ∧
      Visit.steps (p.visited 20) = (6, 0) :=
    ⟨_, rfl, by decide +kernel, by decide +kernel, by decide +kernel⟩
  obtain ⟨-, -, ⟨hero, hget, hx, -⟩, -, horigin, -⟩ :=
    arithmetic_does_not_overflow hstart (by decide) (by decide) 20
  rw [hsteps, horigin] at hx
  exact ⟨p, hstart, hpass, htick, hero, hget, hx⟩

end Player

end Playback

end DemoReel
