import DemoReel.Proofs.Playback.Rounds
import DemoReel.Proofs.Program.Leaves

/-!
# Which leaves a step reaches

A block passes the tick on to the children that are not done, and so to some of the leaves below it.
The leaves that a step reaches account for everything it draws, and as long as the latches keep
count they are the leaves whose last tick has not gone by, each of them once and depth first.
-/

namespace DemoReel

namespace Operation

open Playback

mutual

/-- The leaves of an operation with their paths, depth first. -/
def leavesAt : Operation → OpPath → List (OpPath × Instruction)
  | leaf instruction, path => [(path, instruction)]
  | block _ children, path => leavesFrom children path 0

def leavesFrom : List Operation → OpPath → (index : Nat) → List (OpPath × Instruction)
  | [], _, _ => []
  | child :: rest, path, index =>
    leavesAt child (path.child index) ++ leavesFrom rest path (index + 1)

end

mutual

theorem prefix_of_mem_leavesAt {leaf : OpPath × Instruction} : ∀ {op : Operation} {path : OpPath},
    leaf ∈ op.leavesAt path → path <+: leaf.1
  | .leaf instruction, path, h => by
    rw [leavesAt, List.mem_singleton] at h
    subst h
    exact List.prefix_refl path
  | .block _ children, path, h => by
    obtain ⟨j, -, hj⟩ := fromChild_of_mem_leavesFrom h
    exact (List.prefix_append path [j]).trans hj

theorem fromChild_of_mem_leavesFrom {leaf : OpPath × Instruction} : ∀ {ops : List Operation}
    {path : OpPath} {index : Nat}, leaf ∈ leavesFrom ops path index →
      path.FromChild index leaf.1
  | [], _, _, h => by cases h
  | child :: rest, path, index, h => by
    rw [leavesFrom, List.mem_append] at h
    cases h with
    | inl hchild => exact ⟨index, Nat.le_refl index, prefix_of_mem_leavesAt hchild⟩
    | inr hrest => exact (fromChild_of_mem_leavesFrom hrest).mono (Nat.le_succ index)

end

mutual

/-- No two leaves have the same path. -/
theorem nodup_leavesAt : ∀ (op : Operation) (path : OpPath),
    ((op.leavesAt path).map Prod.fst).Nodup
  | .leaf _, _ => by
    rw [leavesAt]
    simp
  | .block _ children, path => nodup_leavesFrom children path 0

theorem nodup_leavesFrom : ∀ (ops : List Operation) (path : OpPath) (index : Nat),
    ((leavesFrom ops path index).map Prod.fst).Nodup
  | [], _, _ => List.nodup_nil
  | child :: rest, path, index => by
    rw [leavesFrom, List.map_append, List.nodup_append]
    refine ⟨nodup_leavesAt child _, nodup_leavesFrom rest path (index + 1), ?_⟩
    intro q hq q' hq' heq
    obtain ⟨leaf, hleaf, rfl⟩ := List.mem_map.1 hq
    obtain ⟨leaf', hleaf', rfl⟩ := List.mem_map.1 hq'
    have hlater := fromChild_of_mem_leavesFrom hleaf'
    rw [← heq] at hlater
    exact OpPath.not_fromChild_succ (prefix_of_mem_leavesAt hleaf) hlater

end

mutual

theorem map_snd_leavesAt : ∀ (op : Operation) (path : OpPath),
    (op.leavesAt path).map Prod.snd = op.leaves
  | .leaf _, _ => by
    rw [leavesAt, leaves, List.map_singleton]
  | .block _ children, path => by
    rw [leavesAt, leaves, map_snd_leavesFrom children path 0]

theorem map_snd_leavesFrom : ∀ (ops : List Operation) (path : OpPath) (index : Nat),
    (leavesFrom ops path index).map Prod.snd = leavesAll ops
  | [], _, _ => by
    rw [leavesFrom, leavesAll, List.map_nil]
  | child :: rest, path, index => by
    rw [leavesFrom, leavesAll, List.map_append, map_snd_leavesAt child,
      map_snd_leavesFrom rest path (index + 1)]

end

/-- The latest last tick among these leaves. -/
def lastOf (width : Nat) : List (OpPath × Instruction) → Nat
  | [] => 0
  | entry :: leaves => max (entry.2.lastTick width) (lastOf width leaves)

theorem lastOf_append (width : Nat) (leaves more : List (OpPath × Instruction)) :
    lastOf width (leaves ++ more) = max (lastOf width leaves) (lastOf width more) := by
  induction leaves with
  | nil => exact (Nat.zero_max _).symm
  | cons entry leaves ih => simp only [List.cons_append, lastOf, ih, Nat.max_assoc]

theorem lastTick_le_lastOf {width : Nat} {leaf : OpPath × Instruction}
    {leaves : List (OpPath × Instruction)} (h : leaf ∈ leaves) :
    leaf.2.lastTick width ≤ lastOf width leaves := by
  induction leaves with
  | nil => cases h
  | cons first leaves ih =>
    rw [lastOf]
    cases List.mem_cons.1 h with
    | inl hfirst =>
      rw [hfirst]
      exact Nat.le_max_left _ _
    | inr hrest => exact Nat.le_trans (ih hrest) (Nat.le_max_right _ _)

mutual

/-- An operation is done when the last of its leaves is. -/
theorem lastOf_leavesAt (width : Nat) : ∀ (op : Operation) (path : OpPath),
    lastOf width (op.leavesAt path) = op.lastTick width
  | .leaf instruction, path => by
    rw [leavesAt, lastOf, lastOf, Nat.max_zero, lastTick]
  | .block _ children, path => by
    rw [leavesAt, lastTick]
    exact lastOf_leavesFrom width children path 0

theorem lastOf_leavesFrom (width : Nat) : ∀ (ops : List Operation) (path : OpPath) (index : Nat),
    lastOf width (leavesFrom ops path index) = lastTickAll width ops
  | [], _, _ => by
    rw [leavesFrom, lastOf, lastTickAll]
  | child :: rest, path, index => by
    rw [leavesFrom, lastOf_append, lastOf_leavesAt width child, lastOf_leavesFrom width rest,
      lastTickAll]

end

mutual

theorem hasInstantLeaf_iff : ∀ (op : Operation) (path : OpPath),
    op.hasInstantLeaf = true ↔ ∃ leaf ∈ op.leavesAt path, leaf.2.isInstant = true
  | .leaf instruction, path => by
    rw [hasInstantLeaf, leavesAt]
    simp
  | .block _ children, path => by
    rw [hasInstantLeaf, leavesAt]
    exact hasInstantLeafAny_iff children path 0

theorem hasInstantLeafAny_iff : ∀ (ops : List Operation) (path : OpPath) (index : Nat),
    hasInstantLeafAny ops = true ↔
      ∃ leaf ∈ leavesFrom ops path index, leaf.2.isInstant = true
  | [], _, _ => by
    rw [hasInstantLeafAny, leavesFrom]
    simp
  | child :: rest, path, index => by
    rw [hasInstantLeafAny, Bool.or_eq_true, hasInstantLeaf_iff child (path.child index),
      hasInstantLeafAny_iff rest path (index + 1), leavesFrom]
    simp only [List.mem_append, or_and_right, exists_or]

end

end Operation

namespace Playback

/-! ## Visits -/

/-- A leaf that is stepped. -/
structure Visit where
  path : OpPath
  instruction : Instruction
  /-- The demo as the leaf finds it. -/
  reel : Reel

namespace Visit

def leaf (v : Visit) : OpPath × Instruction := (v.path, v.instruction)

def result (v : Visit) : Outcome × Reel := v.reel.stepLeaf v.instruction v.path

/-- The leaves take the one state to the other, each from where the one before it left off. -/
def Chained : State → List Visit → State → Prop
  | s, [], s' => s = s'
  | s, v :: visits, s' => v.reel.state = s ∧ Chained v.result.2.state visits s'

theorem Chained.append {s s' s'' : State} {visits more : List Visit} (h : Chained s visits s')
    (h' : Chained s' more s'') : Chained s (visits ++ more) s'' := by
  induction visits generalizing s with
  | nil =>
    cases h
    exact h'
  | cons v visits ih => exact ⟨h.1, ih h.2⟩

/-- What each of the leaves keeps is kept by all of them together. -/
theorem Chained.preserves {motive : State → Prop} {s s' : State} {visits : List Visit}
    (h : Chained s visits s')
    (hvisit : ∀ v ∈ visits, motive v.reel.state → motive v.result.2.state) (hs : motive s) :
    motive s' := by
  induction visits generalizing s with
  | nil =>
    cases h
    exact hs
  | cons v visits ih =>
    obtain ⟨rfl, hrest⟩ := h
    obtain ⟨hfirst, hlater⟩ := List.forall_mem_cons.1 hvisit
    exact ih hrest hlater (hfirst hs)

end Visit

namespace Reel

mutual

/-- The leaves that a step of the operation reaches, in their order. -/
def visits : Operation → OpPath → Reel → List Visit
  | .leaf instruction, path, r => [⟨path, instruction, r⟩]
  | .block _ children, path, r => visitsFrom children path 0 r

def visitsFrom : List Operation → OpPath → (index : Nat) → Reel → List Visit
  | [], _, _, _ => []
  | child :: rest, path, index, r =>
    if r.progress.isLatched (path.child index) then visitsFrom rest path (index + 1) r
    else
      let (result, r') := step child (path.child index) r
      let more := if result.halt.isSome then []
        else visitsFrom rest path (index + 1) (r'.latchIfDone (path.child index) result)
      visits child (path.child index) r ++ more

end

section

variable {child : Operation} {rest : List Operation} {path : OpPath} {index : Nat} {r : Reel}

theorem visitsFrom_of_latched (h : r.progress.isLatched (path.child index) = true) :
    visitsFrom (child :: rest) path index r = visitsFrom rest path (index + 1) r := by
  rw [visitsFrom, if_pos h]

theorem visitsFrom_of_halt {error : Error} (h : r.progress.isLatched (path.child index) = false)
    (hhalt : (step child (path.child index) r).1.halt = some error) :
    visitsFrom (child :: rest) path index r = visits child (path.child index) r := by
  rw [visitsFrom, if_neg (by simp [h])]
  dsimp only
  rw [if_pos (by simp [hhalt]), List.append_nil]

theorem visitsFrom_of_step (h : r.progress.isLatched (path.child index) = false)
    (hhalt : (step child (path.child index) r).1.halt = none) :
    visitsFrom (child :: rest) path index r = visits child (path.child index) r ++
      visitsFrom rest path (index + 1)
        ((step child (path.child index) r).2.latchIfDone (path.child index)
          (step child (path.child index) r).1) := by
  rw [visitsFrom, if_neg (by simp [h])]
  dsimp only
  rw [if_neg (by simp [hhalt])]

end

mutual

/-- Nothing is drawn but by the leaves that are reached. -/
theorem chained_visits : ∀ (op : Operation) (path : OpPath) (r : Reel),
    Visit.Chained r.state (visits op path r) (step op path r).2.state
  | .leaf instruction, path, r => by
    rw [visits, step]
    exact ⟨rfl, rfl⟩
  | .block childCount children, path, r => by
    rw [visits, state_step_block]
    exact chained_visitsFrom children path 0 .done r

theorem chained_visitsFrom : ∀ (children : List Operation) (path : OpPath) (index : Nat)
    (outcome : Outcome) (r : Reel),
    Visit.Chained r.state (visitsFrom children path index r)
      (stepChildren children path index outcome r).2.state
  | [], _, _, _, _ => rfl
  | child :: rest, path, index, outcome, r => by
    cases hlatched : r.progress.isLatched (path.child index) with
    | true =>
      rw [visitsFrom_of_latched hlatched, stepChildren_of_latched hlatched]
      exact chained_visitsFrom rest path (index + 1) outcome r
    | false =>
      have hchild := chained_visits child (path.child index) r
      cases hhalt : (step child (path.child index) r).1.halt with
      | some error =>
        rw [visitsFrom_of_halt hlatched hhalt, stepChildren_of_halt hlatched hhalt]
        exact hchild
      | none =>
        have hrest := chained_visitsFrom rest path (index + 1)
          (outcome.both (step child (path.child index) r).1)
          ((step child (path.child index) r).2.latchIfDone (path.child index)
            (step child (path.child index) r).1)
        rw [state_latchIfDone] at hrest
        rw [visitsFrom_of_step hlatched hhalt, stepChildren_of_step hlatched hhalt]
        exact hchild.append hrest

end

mutual

/-- A leaf that halts is the last one, and the step halts with it. -/
theorem halts_of_mem_visits {error : Error} {v : Visit} (hhalt : v.result.1.halt = some error) :
    ∀ {op : Operation} {path : OpPath} {r : Reel}, v ∈ visits op path r →
      (step op path r).1.halt = some error ∧ (visits op path r).getLast? = some v
  | .leaf instruction, path, r, hv => by
    rw [visits] at hv ⊢
    obtain rfl := List.mem_singleton.1 hv
    rw [step]
    exact ⟨hhalt, rfl⟩
  | .block childCount children, path, r, hv => by
    rw [visits] at hv ⊢
    rw [outcome_step_block]
    exact halts_of_mem_visitsFrom hhalt hv

theorem halts_of_mem_visitsFrom {error : Error} {v : Visit}
    (hhalt : v.result.1.halt = some error) : ∀ {children : List Operation} {path : OpPath}
    {index : Nat} {outcome : Outcome} {r : Reel}, v ∈ visitsFrom children path index r →
      (stepChildren children path index outcome r).1.halt = some error ∧
        (visitsFrom children path index r).getLast? = some v
  | [], _, _, _, _, hv => by
    rw [visitsFrom] at hv
    cases hv
  | child :: rest, path, index, outcome, r, hv => by
    cases hlatched : r.progress.isLatched (path.child index) with
    | true =>
      rw [visitsFrom_of_latched hlatched] at hv ⊢
      rw [stepChildren_of_latched hlatched]
      exact halts_of_mem_visitsFrom hhalt hv
    | false =>
      cases hchild : (step child (path.child index) r).1.halt with
      | some fault =>
        rw [visitsFrom_of_halt hlatched hchild] at hv ⊢
        rw [stepChildren_of_halt hlatched hchild]
        exact halts_of_mem_visits hhalt hv
      | none =>
        rw [visitsFrom_of_step hlatched hchild] at hv ⊢
        rw [stepChildren_of_step hlatched hchild]
        cases List.mem_append.1 hv with
        | inl hnow =>
          rw [(halts_of_mem_visits hhalt hnow).1] at hchild
          cases hchild
        | inr hlater =>
          obtain ⟨hround, hlast⟩ := halts_of_mem_visitsFrom hhalt hlater
          exact ⟨hround, by rw [List.getLast?_append, hlast, Option.some_or]⟩

end

/-- A step that does not halt halts at none of its leaves. -/
theorem running_visits {op : Operation} {path : OpPath} {r : Reel}
    (h : (step op path r).1.halt = none) : ∀ v ∈ visits op path r, v.result.1.halt = none := by
  refine fun v hv ↦ Option.eq_none_iff_forall_ne_some.2 fun error hhalt ↦ ?_
  rw [(halts_of_mem_visits hhalt hv).1] at h
  cases h

/-- The leaves that are reached are those whose last tick has not gone by, and each of them is on
time. -/
structure Due (width t : Nat) (leaves : List (OpPath × Instruction)) (visits : List Visit) :
    Prop where
  leaves : visits.map Visit.leaf = leaves.filter fun leaf ↦ decide (t ≤ leaf.2.lastTick width)
  onTime : ∀ v ∈ visits,
    v.result.1.OnTime t (v.instruction.lastTick width) v.instruction.isInstant

section

variable {width t : Nat} {leaves more : List (OpPath × Instruction)} {visited visited' : List Visit}

theorem Due.append (h : Due width t leaves visited) (h' : Due width t more visited') :
    Due width t (leaves ++ more) (visited ++ visited') where
  leaves := by rw [List.map_append, List.filter_append, h.leaves, h'.leaves]
  onTime := fun v hv ↦ (List.mem_append.1 hv).elim (h.onTime v) (h'.onTime v)

/-- Leaves that are done are not due. -/
theorem Due.skip (hdone : Operation.lastOf width leaves < t) (h : Due width t more visited) :
    Due width t (leaves ++ more) visited where
  leaves := by
    have hnone : leaves.filter (fun leaf ↦ decide (t ≤ leaf.2.lastTick width)) = [] := by
      rw [List.filter_eq_nil_iff]
      intro leaf hleaf hdue
      have hle := @Operation.lastTick_le_lastOf width _ _ hleaf
      have hlate := of_decide_eq_true hdue
      omega
    rw [List.filter_append, hnone, List.nil_append, h.leaves]
  onTime := h.onTime

mutual

/-- As long as the latches keep count, the leaves that are due are reached. -/
theorem due_visits (hwidth : width ≤ 2 ^ 30) : ∀ {op : Operation} {path : OpPath} {r : Reel},
    r.state.config.viewportWidth.toNat = width → r.progress.tick.toNat = t →
      t ≤ op.lastTick width → Tracked width t r.progress.isLatched op path →
        (step op path r).1.halt = none →
          Due width t (op.leavesAt path) (visits op path r)
  | .leaf i, path, r, hconfig, htick, ht, _, hhalt => by
    rw [Operation.lastTick] at ht
    rw [step] at hhalt
    rw [Operation.leavesAt, visits]
    subst hconfig htick
    refine ⟨?_, fun v hv ↦ ?_⟩
    · simp [Visit.leaf, ht]
    · obtain rfl := List.mem_singleton.1 hv
      exact onTime_stepLeaf hwidth ht hhalt
  | .block childCount children, path, r, hconfig, htick, _, htracked, hhalt => by
    rw [outcome_step_block] at hhalt
    rw [Operation.leavesAt, visits]
    exact due_visitsFrom hwidth hconfig htick htracked hhalt

theorem due_visitsFrom (hwidth : width ≤ 2 ^ 30) : ∀ {children : List Operation} {path : OpPath}
    {index : Nat} {outcome : Outcome} {r : Reel},
    r.state.config.viewportWidth.toNat = width → r.progress.tick.toNat = t →
      TrackedAll width t r.progress.isLatched children path index →
        (stepChildren children path index outcome r).1.halt = none →
          Due width t (Operation.leavesFrom children path index)
            (visitsFrom children path index r)
  | [], _, _, _, _, _, _, _, _ => by
    rw [Operation.leavesFrom, visitsFrom]
    exact ⟨rfl, by simp⟩
  | child :: rest, path, index, outcome, r, hconfig, htick, ⟨hchild, hrest⟩, hhalt => by
    rw [Operation.leavesFrom]
    split at hchild
    · next hdone =>
      rw [stepChildren_of_latched hchild] at hhalt
      rw [visitsFrom_of_latched hchild]
      apply Due.skip
      · rwa [Operation.lastOf_leavesAt]
      · exact due_visitsFrom hwidth hconfig htick hrest hhalt
    · next hdone =>
      obtain ⟨hunlatched, htracked⟩ := hchild
      cases hresult : (step child (path.child index) r).1.halt with
      | some error =>
        rw [stepChildren_of_halt hunlatched hresult] at hhalt
        cases hresult.symm.trans hhalt
      | none =>
        rw [stepChildren_of_step hunlatched hresult] at hhalt
        rw [visitsFrom_of_step hunlatched hresult]
        obtain ⟨hconfig', htick', hrest'⟩ := round_after child hconfig htick hrest
        apply Due.append
        · exact due_visits hwidth hconfig htick (Nat.le_of_not_lt hdone) htracked hresult
        · exact due_visitsFrom hwidth hconfig' htick' hrest' hhalt

end

end

end Reel

end Playback

end DemoReel
