import DemoReel.Proofs.Playback.Rounds
import DemoReel.Proofs.Program.Leaves

/-!
# Operations as rounds over their leaves

How leaves are put into blocks does not matter to a step: it visits the leaves that are not over
from left to right, and takes their outcomes together.  Where latches and pan origins are kept
depends on the blocks, but what they say about each leaf does not.
-/

namespace DemoReel.Playback

/-- What the tables of a running demo say about one leaf. -/
inductive Slot where
  /-- It is done, or part of a block that is. -/
  | ended
  /-- It has yet to be done; a pan that has begun knows its origin. -/
  | due (instruction : Instruction) (origin : Option Camera)

/-- What a round over slots leads to. -/
structure Round where
  outcome : Outcome
  slots : List Slot
  state : State

namespace Round

/-- The round when others came before it in the same block; a halt is theirs no more. -/
def after (round : Round) (before : Outcome) : Round :=
  { round with outcome :=
      if round.outcome.halt.isSome then round.outcome else before.both round.outcome }

/-- The round with more slots in front of its own. -/
def behind (round : Round) (slots : List Slot) : Round :=
  { round with slots := slots ++ round.slots }

end Round

namespace Slot

/-- A demo that is about nothing but one leaf. -/
def solo (t : UInt32) (origin : Option Camera) (s : State) : Reel :=
  ⟨⟨0, t, ∅, match origin with
    | none => ∅
    | some camera => (∅ : Std.ExtTreeMap OpPath Camera).insert [] camera⟩, s⟩

/-- Steps one leaf, if it is due. -/
def play (t : UInt32) (s : State) : Slot → Outcome × Slot × State
  | ended => (.done, ended, s)
  | due instruction origin =>
    let (outcome, r) := Reel.stepLeaf instruction [] (solo t origin s)
    let slot := if outcome.advance then ended else due instruction (r.progress.panOrigin? [])
    (outcome, slot, r.state)

/-- Steps the leaves one after another, until one halts. -/
def playAll (t : UInt32) : List Slot → Outcome → State → Round
  | [], outcome, s => ⟨outcome, [], s⟩
  | slot :: rest, outcome, s =>
    let (result, slot, s) := slot.play t s
    if result.halt.isSome then ⟨result, slot :: rest, s⟩
    else
      (playAll t rest (outcome.both result) s).behind [slot]

end Slot

namespace Progress

mutual

/-- The slots of the leaves of the operation at this path, from left to right. -/
def slots (p : Progress) : Operation → OpPath → List Slot
  | .leaf instruction, path => [.due instruction (p.panOrigin? path)]
  | .block _ children, path => slotsFrom p children path 0

/-- The slots of the leaves of these children of the block at the path, from position `index` on. -/
def slotsFrom (p : Progress) : List Operation → OpPath → (index : Nat) → List Slot
  | [], _, _ => []
  | child :: rest, path, index =>
    (if p.isLatched (path.child index) then List.replicate child.leaves.length .ended
      else slots p child (path.child index)) ++ slotsFrom p rest path (index + 1)

end

section

variable {p : Progress} {child : Operation} {rest : List Operation} {path : OpPath} {index : Nat}

theorem slotsFrom_of_latched (h : p.isLatched (path.child index) = true) :
    p.slotsFrom (child :: rest) path index =
      List.replicate child.leaves.length .ended ++ p.slotsFrom rest path (index + 1) := by
  rw [slotsFrom, if_pos h]

theorem slotsFrom_of_due (h : p.isLatched (path.child index) = false) :
    p.slotsFrom (child :: rest) path index =
      p.slots child (path.child index) ++ p.slotsFrom rest path (index + 1) := by
  rw [slotsFrom, if_neg (by simp [h])]

end

/-- The two say the same about these paths. -/
def AgreesOn (paths : OpPath → Prop) (p p' : Progress) : Prop :=
  ∀ q, paths q → p'.isLatched q = p.isLatched q ∧ p'.panOrigin? q = p.panOrigin? q

theorem AgreesOn.mono {paths paths' : OpPath → Prop} {p p' : Progress} (h : AgreesOn paths p p')
    (hle : ∀ q, paths' q → paths q) : AgreesOn paths' p p' :=
  fun q hq ↦ h q (hle q hq)

mutual

theorem slots_congr {p p' : Progress} : ∀ {op : Operation} {path : OpPath},
    AgreesOn (path <+: ·) p p' → p'.slots op path = p.slots op path
  | .leaf i, path, h => by rw [slots, slots, (h path (List.prefix_refl path)).2]
  | .block childCount children, path, h => by
    rw [slots, slots]
    exact slotsFrom_congr (h.mono fun q hq ↦ hq.below)

theorem slotsFrom_congr {p p' : Progress} : ∀ {children : List Operation} {path : OpPath}
    {index : Nat}, AgreesOn (path.FromChild index) p p' →
      p'.slotsFrom children path index = p.slotsFrom children path index
  | [], _, _, _ => by rw [slotsFrom, slotsFrom]
  | child :: rest, path, index, h => by
    have hchild : p'.slots child (path.child index) = p.slots child (path.child index) :=
      slots_congr (h.mono fun q hq ↦ ⟨index, Nat.le_refl index, hq⟩)
    have hrest : p'.slotsFrom rest path (index + 1) = p.slotsFrom rest path (index + 1) :=
      slotsFrom_congr (h.mono fun q hq ↦ hq.mono (Nat.le_succ index))
    rw [slotsFrom, slotsFrom, (h _ (path.fromChild_child index)).1, hchild, hrest]

end

mutual

@[simp] theorem length_slots (p : Progress) : ∀ (op : Operation) (path : OpPath),
    (p.slots op path).length = op.leaves.length
  | .leaf i, path => by rw [slots, Operation.leaves, List.length_singleton, List.length_singleton]
  | .block childCount children, path => by
    rw [slots, Operation.leaves, length_slotsFrom p children path 0]

@[simp] theorem length_slotsFrom (p : Progress) : ∀ (children : List Operation) (path : OpPath)
    (index : Nat), (p.slotsFrom children path index).length = (Operation.leavesAll children).length
  | [], _, _ => by rw [slotsFrom, Operation.leavesAll, List.length_nil, List.length_nil]
  | child :: rest, path, index => by
    rw [slotsFrom, Operation.leavesAll, List.length_append, List.length_append,
      length_slotsFrom p rest path (index + 1)]
    split
    · rw [List.length_replicate]
    · rw [length_slots p child]

end

mutual

/-- Where nothing is latched and no pan has begun, all leaves are due. -/
theorem slots_of_fresh {p : Progress} (hlatched : ∀ q, p.isLatched q = false)
    (horigins : ∀ q, p.panOrigin? q = none) : ∀ (op : Operation) (path : OpPath),
      p.slots op path = op.leaves.map (Slot.due · none)
  | .leaf i, path => by
    rw [slots, Operation.leaves, horigins, List.map_singleton]
  | .block childCount children, path => by
    rw [slots, Operation.leaves, slotsFrom_of_fresh hlatched horigins children path 0]

theorem slotsFrom_of_fresh {p : Progress} (hlatched : ∀ q, p.isLatched q = false)
    (horigins : ∀ q, p.panOrigin? q = none) : ∀ (children : List Operation) (path : OpPath)
      (index : Nat),
        p.slotsFrom children path index = (Operation.leavesAll children).map (Slot.due · none)
  | [], _, _ => by rw [slotsFrom, Operation.leavesAll, List.map_nil]
  | child :: rest, path, index => by
    rw [slotsFrom, Operation.leavesAll, List.map_append, hlatched, if_neg (by simp),
      slots_of_fresh hlatched horigins child, slotsFrom_of_fresh hlatched horigins rest]

end

theorem panOrigin?_start (q : OpPath) : start.panOrigin? q = none := by simp [panOrigin?, start]

/-- Waiting changes nothing about the leaves. -/
theorem slots_wait (p : Progress) (op : Operation) (path : OpPath) :
    p.wait.slots op path = p.slots op path :=
  slots_congr fun _ _ ↦ ⟨rfl, rfl⟩

/-- Clearing a block forgets no origin outside of it. -/
theorem panOrigin?_clearWithin {p : Progress} {block q : OpPath} (h : q.isWithin block = false) :
    (p.clearWithin block).panOrigin? q = p.panOrigin? q := by
  have hall (origin : Option Camera) : origin.filter (fun _ ↦ true) = origin := by
    cases origin <;> rfl
  simp [panOrigin?, clearWithin, h, hall]

end Progress

/-! ## Rounds over slots -/

namespace Outcome

@[simp] theorem both_done {outcome : Outcome} (h : outcome.halt = none) :
    outcome.both done = outcome := by
  obtain ⟨advance, consumesTick, halt⟩ := outcome
  obtain rfl : halt = none := h
  simp [both, done, ticking]

theorem both_assoc (a b c : Outcome) : (a.both b).both c = a.both (b.both c) := by
  simp [both, Bool.and_assoc]

theorem done_both {outcome : Outcome} (h : outcome.halt = none) : done.both outcome = outcome := by
  obtain ⟨advance, consumesTick, halt⟩ := outcome
  obtain rfl : halt = none := h
  simp [both, done, ticking]

end Outcome

namespace Slot

variable {t : UInt32} {slot : Slot} {slots more : List Slot} {outcome before : Outcome} {s : State}

theorem playAll_cons_of_halt {error : Error} (h : (slot.play t s).1.halt = some error) :
    playAll t (slot :: slots) outcome s =
      ⟨(slot.play t s).1, (slot.play t s).2.1 :: slots, (slot.play t s).2.2⟩ := by
  rw [playAll]
  dsimp only
  rw [if_pos (by simp [h])]

theorem playAll_cons_of_step (h : (slot.play t s).1.halt = none) :
    playAll t (slot :: slots) outcome s =
      (playAll t slots (outcome.both (slot.play t s).1) (slot.play t s).2.2).behind
        [(slot.play t s).2.1] := by
  rw [playAll]
  dsimp only
  rw [if_neg (by simp [h])]

/-- Outcomes from before are only summed up. -/
theorem playAll_both (h : outcome.halt = none) :
    playAll t slots (before.both outcome) s = (playAll t slots outcome s).after before := by
  induction slots generalizing outcome s with
  | nil => simp [playAll, Round.after, h]
  | cons slot slots ih =>
    cases hhalt : (slot.play t s).1.halt with
    | some error =>
      rw [playAll_cons_of_halt hhalt, playAll_cons_of_halt hhalt, Round.after,
        if_pos (by simp [hhalt])]
    | none =>
      rw [playAll_cons_of_step hhalt, playAll_cons_of_step hhalt, Outcome.both_assoc, ih rfl]
      rfl

theorem playAll_eq_after (h : outcome.halt = none) :
    playAll t slots outcome s = (playAll t slots .done s).after outcome := by
  have hdone : Outcome.done.halt = none := rfl
  rw [← playAll_both hdone, Outcome.both_done h]

theorem playAll_append_of_halt {error : Error} (h : outcome.halt = none)
    (hhalt : (playAll t slots outcome s).outcome.halt = some error) :
    playAll t (slots ++ more) outcome s =
      { playAll t slots outcome s with slots := (playAll t slots outcome s).slots ++ more } := by
  induction slots generalizing outcome s with
  | nil =>
    rw [playAll, h] at hhalt
    cases hhalt
  | cons slot slots ih =>
    rw [List.cons_append]
    cases hslot : (slot.play t s).1.halt with
    | some error =>
      rw [playAll_cons_of_halt hslot, playAll_cons_of_halt hslot]
      rfl
    | none =>
      rw [playAll_cons_of_step hslot] at hhalt ⊢
      rw [playAll_cons_of_step hslot, ih rfl hhalt]
      rfl

theorem playAll_append_of_step
    (hhalt : (playAll t slots outcome s).outcome.halt = none) :
    playAll t (slots ++ more) outcome s =
      (playAll t more (playAll t slots outcome s).outcome (playAll t slots outcome s).state).behind
        (playAll t slots outcome s).slots := by
  induction slots generalizing outcome s with
  | nil => rfl
  | cons slot slots ih =>
    rw [List.cons_append]
    cases hslot : (slot.play t s).1.halt with
    | some error =>
      rw [playAll_cons_of_halt hslot, hslot] at hhalt
      cases hhalt
    | none =>
      rw [playAll_cons_of_step hslot] at hhalt ⊢
      rw [playAll_cons_of_step hslot, ih hhalt]
      rfl

theorem playAll_replicate_ended (h : outcome.halt = none) (count : Nat) :
    playAll t (List.replicate count ended) outcome s =
      ⟨outcome, List.replicate count ended, s⟩ := by
  induction count with
  | zero => rfl
  | succ count ih =>
    have hended : (play t s ended).1.halt = none := rfl
    rw [List.replicate_succ, playAll_cons_of_step hended]
    change (playAll t (List.replicate count ended) (outcome.both .done) s).behind [ended] = _
    rw [Outcome.both_done h, ih]
    rfl

/-- A round that is done leaves nothing due. -/
theorem slots_of_done (hhalt : (playAll t slots outcome s).outcome.halt = none)
    (hadvance : (playAll t slots outcome s).outcome.advance = true) :
    outcome.advance = true ∧
      (playAll t slots outcome s).slots = List.replicate slots.length ended := by
  induction slots generalizing outcome s with
  | nil => exact ⟨hadvance, rfl⟩
  | cons slot slots ih =>
    cases hslot : (slot.play t s).1.halt with
    | some error =>
      rw [playAll_cons_of_halt hslot, hslot] at hhalt
      cases hhalt
    | none =>
      rw [playAll_cons_of_step hslot] at hhalt hadvance ⊢
      obtain ⟨hboth, hrest⟩ := ih hhalt hadvance
      rw [Outcome.both, Bool.and_eq_true] at hboth
      have hended : (slot.play t s).2.1 = ended := by
        cases slot with
        | ended => rfl
        | due i origin => exact if_pos hboth.2
      refine ⟨hboth.1, ?_⟩
      rw [Round.behind, hrest, hended, List.length_cons, List.replicate_succ, List.singleton_append]

theorem panOrigin?_solo (t : UInt32) (origin : Option Camera) (s : State) :
    (solo t origin s).progress.panOrigin? [] = origin := by
  cases origin <;> simp [solo, Progress.panOrigin?]

end Slot

/-! ## Steps as rounds -/

namespace Reel

/-- A leaf reads the tick, its own pan origin and the state, and writes only the last two. -/
theorem stepLeaf_congr (i : Instruction) (r r' : Reel) (path path' : OpPath)
    (htick : r'.progress.tick = r.progress.tick)
    (horigin : r'.progress.panOrigin? path' = r.progress.panOrigin? path)
    (hstate : r'.state = r.state) :
    (stepLeaf i path' r').1 = (stepLeaf i path r).1 ∧
      (stepLeaf i path' r').2.state = (stepLeaf i path r).2.state ∧
      (stepLeaf i path' r').2.progress.panOrigin? path' =
        (stepLeaf i path r).2.progress.panOrigin? path := by
  cases i with
  | moveCamera blockX blockY frameCount =>
    simp only [stepLeaf, moveCamera, htick, horigin, hstate]
    refine ⟨trivial, trivial, ?_⟩
    generalize (if r.progress.tick = 0 then none else r.progress.panOrigin? path) = known
    cases known with
    | some origin => exact horigin
    | none => simp [Progress.setPanOrigin, Progress.panOrigin?]
  | _ =>
    simp only [stepLeaf, htick, hstate]
    exact ⟨trivial, trivial, horigin⟩

/-! ### Pan origins stay below the operation that is stepped -/

theorem panOrigin?_stepLeaf (i : Instruction) (path : OpPath) (r : Reel) {q : OpPath}
    (h : path ≠ q) :
    (stepLeaf i path r).2.progress.panOrigin? q = r.progress.panOrigin? q := by
  cases i with
  | moveCamera blockX blockY frameCount =>
    simp only [stepLeaf, moveCamera]
    generalize (if r.progress.tick = 0 then none else r.progress.panOrigin? path) = known
    cases known with
    | some origin => rfl
    | none => simp [Progress.setPanOrigin, Progress.panOrigin?, Std.ExtTreeMap.getElem?_insert, h]
  | _ => rfl

theorem panOrigin?_latchIfDone (r : Reel) (path : OpPath) (outcome : Outcome) (q : OpPath) :
    (r.latchIfDone path outcome).progress.panOrigin? q = r.progress.panOrigin? q := by
  unfold latchIfDone
  split <;> rfl

mutual

theorem panOrigin?_step : ∀ (op : Operation) (path : OpPath) (r : Reel) {q : OpPath},
    ¬path <+: q → (step op path r).2.progress.panOrigin? q = r.progress.panOrigin? q
  | .leaf i, path, r, q, h => by
    rw [step]
    refine panOrigin?_stepLeaf i path r ?_
    rintro rfl
    exact h (List.prefix_refl _)
  | .block childCount children, path, r, q, h => by
    have hchildren := panOrigin?_stepChildren children path 0 .done r
      (fun hq ↦ h (OpPath.FromChild.below hq))
    rw [step]
    dsimp only
    split
    · have hwithin : q.isWithin path = false := by
        rw [← Bool.not_eq_true, OpPath.isWithin_iff]
        exact fun hq ↦ h hq.1
      exact (Progress.panOrigin?_clearWithin hwithin).trans hchildren
    · exact hchildren

theorem panOrigin?_stepChildren : ∀ (children : List Operation) (path : OpPath) (index : Nat)
    (outcome : Outcome) (r : Reel) {q : OpPath}, ¬path.FromChild index q →
      (stepChildren children path index outcome r).2.progress.panOrigin? q =
        r.progress.panOrigin? q
  | [], _, _, _, _, _, _ => rfl
  | child :: rest, path, index, outcome, r, q, h => by
    have hchild := panOrigin?_step child (path.child index) r
      fun hq ↦ h ⟨index, Nat.le_refl index, hq⟩
    have hlater : ¬path.FromChild (index + 1) q := fun hq ↦ h (hq.mono (Nat.le_succ index))
    rw [stepChildren]
    dsimp only
    split
    · exact panOrigin?_stepChildren rest path (index + 1) outcome r hlater
    · split
      · exact hchild
      · rw [panOrigin?_stepChildren rest path (index + 1) _ _ hlater, panOrigin?_latchIfDone,
          hchild]

end

/-! ### A step is a round -/

/-- The round over the leaves of an operation. -/
def round (op : Operation) (path : OpPath) (r : Reel) : Round :=
  Slot.playAll r.progress.tick (r.progress.slots op path) .done r.state

/-- The round over the leaves of the children of a block, where `outcome` sums up those before. -/
def roundFrom (children : List Operation) (path : OpPath) (index : Nat) (outcome : Outcome)
    (r : Reel) : Round :=
  Slot.playAll r.progress.tick (r.progress.slotsFrom children path index) outcome r.state

/-- A step does what the round over its leaves does, and leaves them the same if some are still
due. -/
structure IsRound (op : Operation) (path : OpPath) (r : Reel) : Prop where
  outcome : (step op path r).1 = (round op path r).outcome
  state : (step op path r).2.state = (round op path r).state
  slots : (step op path r).1.halt = none → (step op path r).1.advance = false →
    (step op path r).2.progress.slots op path = (round op path r).slots

/-- The same for the children of a block, whose latches show what is over. -/
structure AreRound (children : List Operation) (path : OpPath) (index : Nat) (before : Outcome)
    (r : Reel) : Prop where
  outcome : (stepChildren children path index before r).1 =
    (roundFrom children path index before r).outcome
  state : (stepChildren children path index before r).2.state =
    (roundFrom children path index before r).state
  slots : (stepChildren children path index before r).1.halt = none →
    (stepChildren children path index before r).2.progress.slotsFrom children path index =
      (roundFrom children path index before r).slots

theorem isRound_leaf (i : Instruction) (path : OpPath) (r : Reel) : IsRound (.leaf i) path r := by
  obtain ⟨houtcome, hstate, horigin⟩ := stepLeaf_congr i r
    (Slot.solo r.progress.tick (r.progress.panOrigin? path) r.state) path [] rfl
    (Slot.panOrigin?_solo _ _ _) rfl
  have hplay : (Slot.due i (r.progress.panOrigin? path)).play r.progress.tick r.state =
      ((stepLeaf i path r).1,
        if (stepLeaf i path r).1.advance then .ended
          else .due i ((stepLeaf i path r).2.progress.panOrigin? path),
        (stepLeaf i path r).2.state) := by
    rw [← houtcome, ← hstate, ← horigin]
    rfl
  have hstep : step (.leaf i) path r = stepLeaf i path r := by rw [step]
  cases hhalt : (stepLeaf i path r).1.halt with
  | some error =>
    have hslot : ((Slot.due i (r.progress.panOrigin? path)).play r.progress.tick r.state).1.halt =
        some error := by
      rw [hplay]
      exact hhalt
    have hround : round (.leaf i) path r = _ := Slot.playAll_cons_of_halt hslot
    rw [hplay] at hround
    refine ⟨by rw [hstep, hround], by rw [hstep, hround], fun hnone ↦ ?_⟩
    rw [hstep, hhalt] at hnone
    cases hnone
  | none =>
    have hslot : ((Slot.due i (r.progress.panOrigin? path)).play r.progress.tick r.state).1.halt =
        none := by
      rw [hplay]
      exact hhalt
    have hround : round (.leaf i) path r = _ := Slot.playAll_cons_of_step hslot
    rw [hplay] at hround
    refine ⟨?_, by rw [hstep, hround]; rfl, fun _ hadvance ↦ ?_⟩
    · rw [hstep, hround]
      exact (Outcome.done_both hhalt).symm
    · rw [hstep] at hadvance
      rw [hround, hstep, Progress.slots, hadvance]
      rfl

section

variable {child : Operation} {rest : List Operation} {path : OpPath} {index : Nat}
  {outcome : Outcome} {r : Reel}

theorem AreRound.skip (h : AreRound rest path (index + 1) outcome r)
    (houtcome : outcome.halt = none) (hlatched : r.progress.isLatched (path.child index) = true) :
    AreRound (child :: rest) path index outcome r := by
  have hkept := (keeps_stepChildren rest path (index + 1) outcome r).latches _
    (OpPath.not_fromChild_succ (List.prefix_refl (path.child index)))
  have hended := Slot.playAll_replicate_ended (t := r.progress.tick) (s := r.state) houtcome
    child.leaves.length
  have hround : roundFrom (child :: rest) path index outcome r =
      (roundFrom rest path (index + 1) outcome r).behind
        (List.replicate child.leaves.length .ended) := by
    rw [roundFrom, Progress.slotsFrom_of_latched hlatched,
      Slot.playAll_append_of_step (by rw [hended]; exact houtcome), hended]
    rfl
  have hstep : stepChildren (child :: rest) path index outcome r =
      stepChildren rest path (index + 1) outcome r :=
    stepChildren_of_latched hlatched
  refine ⟨?_, ?_, fun hhalt ↦ ?_⟩
  · rw [hstep, hround]
    exact h.outcome
  · rw [hstep, hround]
    exact h.state
  · rw [hstep] at hhalt ⊢
    rw [hround, Progress.slotsFrom_of_latched (hkept.trans hlatched), h.slots hhalt]
    rfl

theorem IsRound.halting {error : Error} (h : IsRound child (path.child index) r)
    (houtcome : outcome.halt = none)
    (hlatched : r.progress.isLatched (path.child index) = false)
    (hhalt : (step child (path.child index) r).1.halt = some error) :
    AreRound (child :: rest) path index outcome r := by
  have hchild : (round child (path.child index) r).outcome.halt = some error := by
    rw [← h.outcome, hhalt]
  have hafter : Slot.playAll r.progress.tick (r.progress.slots child (path.child index)) outcome
      r.state = round child (path.child index) r := by
    rw [Slot.playAll_eq_after houtcome, ← round, Round.after, if_pos (by simp [hchild])]
  have hround : roundFrom (child :: rest) path index outcome r =
      { round child (path.child index) r with
        slots := (round child (path.child index) r).slots ++
          r.progress.slotsFrom rest path (index + 1) } := by
    rw [roundFrom, Progress.slotsFrom_of_due hlatched,
      Slot.playAll_append_of_halt houtcome (by rw [hafter]; exact hchild), hafter]
  have hstep : stepChildren (child :: rest) path index outcome r =
      step child (path.child index) r :=
    stepChildren_of_halt hlatched hhalt
  refine ⟨?_, ?_, fun hnone ↦ ?_⟩
  · rw [hstep, hround]
    exact h.outcome
  · rw [hstep, hround]
    exact h.state
  · rw [hstep, hhalt] at hnone
    cases hnone

/-- Stepping a child and latching it changes nothing about its later siblings. -/
theorem agreesOn_latchIfDone (child : Operation) (path : OpPath) (index : Nat) (r : Reel)
    (result : Outcome) :
    Progress.AgreesOn (path.FromChild (index + 1)) r.progress
      ((step child (path.child index) r).2.latchIfDone (path.child index) result).progress := by
  intro q hq
  have hnotBelow (hbelow : path.child index <+: q) : False := OpPath.not_fromChild_succ hbelow hq
  have hkeeps := keeps_step child (path.child index) r
  have hlatch := keeps_latchIfDone (step child (path.child index) r).2 (path.child index) result
  constructor
  · rw [hlatch.latches q fun heq ↦ hnotBelow (heq ▸ List.prefix_refl _)]
    exact hkeeps.latches q fun hwithin ↦ hnotBelow (OpPath.child_le_of_isWithin hwithin)
  · rw [panOrigin?_latchIfDone, panOrigin?_step child (path.child index) r hnotBelow]

/-- Stepping later siblings changes nothing about a child. -/
theorem agreesOn_stepChildren (rest : List Operation) (path : OpPath) (index : Nat)
    (outcome : Outcome) (r : Reel) :
    Progress.AgreesOn (path.child index <+: ·) r.progress
      (stepChildren rest path (index + 1) outcome r).2.progress := by
  intro q hq
  exact ⟨(keeps_stepChildren rest path (index + 1) outcome r).latches q
      (OpPath.not_fromChild_succ hq),
    panOrigin?_stepChildren rest path (index + 1) outcome r (OpPath.not_fromChild_succ hq)⟩

/-- A child that is latched when it is done shows the leaves that its round leaves behind. -/
theorem IsRound.slotsFrom_cons {p : Progress} (h : IsRound child (path.child index) r)
    (hlatched : r.progress.isLatched (path.child index) = false)
    (hhalt : (step child (path.child index) r).1.halt = none)
    (hsame : Progress.AgreesOn (path.child index <+: ·)
      ((step child (path.child index) r).2.latchIfDone (path.child index)
        (step child (path.child index) r).1).progress p) :
    p.slotsFrom (child :: rest) path index =
      (round child (path.child index) r).slots ++ p.slotsFrom rest path (index + 1) := by
  have hself := (hsame _ (List.prefix_refl _)).1
  cases hadvance : (step child (path.child index) r).1.advance with
  | true =>
    rw [isLatched_latchIfDone_self hadvance] at hself
    rw [h.outcome] at hhalt hadvance
    have hended := (Slot.slots_of_done hhalt hadvance).2
    rw [← round, Progress.length_slots] at hended
    rw [Progress.slotsFrom_of_latched hself, hended]
  | false =>
    have hkept := (keeps_step child (path.child index) r).latches (path.child index)
      (by simp [OpPath.isWithin_self])
    have hreel : (step child (path.child index) r).2.latchIfDone (path.child index)
        (step child (path.child index) r).1 = (step child (path.child index) r).2 := by
      rw [latchIfDone, if_neg (by simp [hadvance])]
    rw [hreel] at hself hsame
    rw [hkept, hlatched] at hself
    rw [Progress.slotsFrom_of_due hself, Progress.slots_congr hsame, h.slots hhalt hadvance]

theorem IsRound.cons (h : IsRound child (path.child index) r)
    (houtcome : outcome.halt = none)
    (hlatched : r.progress.isLatched (path.child index) = false)
    (hhalt : (step child (path.child index) r).1.halt = none)
    (hrest : AreRound rest path (index + 1) (outcome.both (step child (path.child index) r).1)
      ((step child (path.child index) r).2.latchIfDone (path.child index)
        (step child (path.child index) r).1)) :
    AreRound (child :: rest) path index outcome r := by
  have hchild : (round child (path.child index) r).outcome.halt = none := by
    rw [← h.outcome, hhalt]
  have hafter : Slot.playAll r.progress.tick (r.progress.slots child (path.child index)) outcome
      r.state = { round child (path.child index) r with
        outcome := outcome.both (round child (path.child index) r).outcome } := by
    rw [Slot.playAll_eq_after houtcome, ← round, Round.after, if_neg (by simp [hchild])]
  have hsiblings := agreesOn_latchIfDone child path index r (step child (path.child index) r).1
  have htick : ((step child (path.child index) r).2.latchIfDone (path.child index)
      (step child (path.child index) r).1).progress.tick = r.progress.tick := by
    rw [(keeps_latchIfDone _ _ _).tick, (keeps_step _ _ _).tick]
  have hround : roundFrom (child :: rest) path index outcome r =
      (roundFrom rest path (index + 1) (outcome.both (step child (path.child index) r).1)
        ((step child (path.child index) r).2.latchIfDone (path.child index)
          (step child (path.child index) r).1)).behind
        (round child (path.child index) r).slots := by
    rw [roundFrom, Progress.slotsFrom_of_due hlatched,
      Slot.playAll_append_of_step (by rw [hafter]; rfl), hafter, roundFrom, htick,
      Progress.slotsFrom_congr hsiblings, state_latchIfDone, h.outcome, h.state]
  have hstep : stepChildren (child :: rest) path index outcome r =
      stepChildren rest path (index + 1) (outcome.both (step child (path.child index) r).1)
        ((step child (path.child index) r).2.latchIfDone (path.child index)
          (step child (path.child index) r).1) :=
    stepChildren_of_step hlatched hhalt
  refine ⟨?_, ?_, fun hnone ↦ ?_⟩
  · rw [hstep, hround]
    exact hrest.outcome
  · rw [hstep, hround]
    exact hrest.state
  · rw [hstep] at hnone ⊢
    rw [hround, Round.behind, ← hrest.slots hnone]
    exact h.slotsFrom_cons hlatched hhalt (agreesOn_stepChildren rest path index _ _)

end

mutual

theorem isRound_step : ∀ (op : Operation) (path : OpPath) (r : Reel), IsRound op path r
  | .leaf i, path, r => isRound_leaf i path r
  | .block childCount children, path, r => by
    have hchildren := areRound_stepChildren children path 0 .done r rfl
    have hround : round (.block childCount children) path r =
        roundFrom children path 0 .done r := by
      rw [round, Progress.slots, roundFrom]
    refine ⟨?_, ?_, fun hhalt hadvance ↦ ?_⟩
    · rw [outcome_step_block, hround, hchildren.outcome]
    · rw [state_step_block, hround, hchildren.state]
    · rw [outcome_step_block] at hhalt hadvance
      rw [hround, ← hchildren.slots hhalt, Progress.slots, step]
      dsimp only
      rw [hadvance]
      rfl

theorem areRound_stepChildren : ∀ (children : List Operation) (path : OpPath) (index : Nat)
    (outcome : Outcome) (r : Reel), outcome.halt = none →
      AreRound children path index outcome r
  | [], path, index, outcome, r, h => by
    have hround : roundFrom [] path index outcome r = ⟨outcome, [], r.state⟩ := by
      rw [roundFrom, Progress.slotsFrom, Slot.playAll]
    refine ⟨?_, ?_, fun _ ↦ ?_⟩
    · rw [hround, stepChildren]
    · rw [hround, stepChildren]
    · rw [hround, Progress.slotsFrom]
  | child :: rest, path, index, outcome, r, h => by
    cases hlatched : r.progress.isLatched (path.child index) with
    | true => exact (areRound_stepChildren rest path (index + 1) outcome r h).skip h hlatched
    | false =>
      have hchild := isRound_step child (path.child index) r
      cases hhalt : (step child (path.child index) r).1.halt with
      | some error => exact hchild.halting h hlatched hhalt
      | none =>
        exact hchild.cons h hlatched hhalt (areRound_stepChildren rest path (index + 1) _ _ rfl)

end

end Reel

end DemoReel.Playback
