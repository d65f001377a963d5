import DemoReel.Proofs.Playback.Slots
import DemoReel.Proofs.Playback.Visits

/-!
# Which leaves are awaited

A leaf is awaited as long as neither it nor a block around it is latched.  A step reaches only
leaves that are awaited, each of them once, and finds with each what the tables said about it before
the step.  When the step is over and the operation is not, the leaves still awaited are those that
were reached and did not become done.  None of this needs the latches to keep count.
-/

namespace DemoReel.Playback

namespace OpPath

/-- On the way down to something at or below a child everything is at or below that child. -/
theorem FromChild.of_prefix {path a q : OpPath} {index : Nat} (h : path.FromChild index q)
    (hwithin : a.isWithin path = true) (habove : a <+: q) : path.FromChild index a := by
  obtain ⟨i, -, hi⟩ := isWithin_iff_fromChild.1 hwithin
  obtain ⟨j, hj, hq⟩ := h
  obtain rfl := child_injective (hi.trans habove) hq
  exact ⟨i, hj, hi⟩

end OpPath

namespace Progress

/-- Nothing below `path` on the way down to `q` is done. -/
def Awaits (p : Progress) (path q : OpPath) : Prop :=
  ∀ a : OpPath, a.isWithin path = true → a <+: q → p.isLatched a = false

variable {p p' : Progress} {path q : OpPath} {index : Nat}

theorem AgreesOn.symm {paths : OpPath → Prop} (h : AgreesOn paths p p') : AgreesOn paths p' p :=
  fun q hq ↦ ⟨(h q hq).1.symm, (h q hq).2.symm⟩

theorem awaits_self (p : Progress) (path : OpPath) : p.Awaits path path := by
  intro a hwithin habove
  obtain ⟨hbelow, hne⟩ := OpPath.isWithin_iff.1 hwithin
  exact (hne (hbelow.eq_of_length_le habove.length_le).symm).elim

theorem Awaits.of_agreesOn {paths : OpPath → Prop} (h : p.Awaits path q)
    (hsame : AgreesOn paths p p')
    (hpaths : ∀ a : OpPath, a.isWithin path = true → a <+: q → paths a) : p'.Awaits path q :=
  fun a hwithin habove ↦ (hsame a (hpaths a hwithin habove)).1.trans (h a hwithin habove)

/-- What is at or below a child is awaited if the child is, and from there on. -/
theorem awaits_iff_child (hq : path.child index <+: q) :
    p.Awaits path q ↔ p.isLatched (path.child index) = false ∧ p.Awaits (path.child index) q := by
  have hself := OpPath.isWithin_iff_fromChild.2 ((path.fromChild_child index).mono index.zero_le)
  constructor
  · refine fun h ↦ ⟨h _ hself hq, fun a hwithin habove ↦ h a ?_ habove⟩
    have hbelow := OpPath.child_le_of_isWithin hwithin
    exact OpPath.isWithin_iff_fromChild.2 ⟨index, index.zero_le, hbelow⟩
  · rintro ⟨hchild, hbelow⟩ a hwithin habove
    obtain ⟨i, -, hi⟩ := OpPath.isWithin_iff_fromChild.1 hwithin
    obtain rfl := OpPath.child_injective (hi.trans habove) hq
    by_cases heq : a = path.child i
    · rwa [heq]
    · exact hbelow a (OpPath.isWithin_iff.2 ⟨hi, heq⟩) habove

end Progress

/-! ## Reached leaves -/

/-- The leaf below `path` is awaited before the step, and is reached with the tick of the step and
with the pan origin that was its own. -/
structure Visit.FoundBy (v : Visit) (r : Reel) (path : OpPath) : Prop where
  awaited : r.progress.Awaits path v.path
  tick : v.reel.progress.tick = r.progress.tick
  origin : v.reel.progress.panOrigin? v.path = r.progress.panOrigin? v.path

namespace Reel

mutual

/-- The leaves that are reached are leaves of the operation, each of them once. -/
theorem sublist_visits : ∀ (op : Operation) (path : OpPath) (r : Reel),
    ((visits op path r).map Visit.leaf).Sublist (op.leavesAt path)
  | .leaf instruction, path, r => by
    rw [visits, Operation.leavesAt]
    exact .refl _
  | .block _ children, path, r => by
    rw [visits, Operation.leavesAt]
    exact sublist_visitsFrom children path 0 r

theorem sublist_visitsFrom : ∀ (children : List Operation) (path : OpPath) (index : Nat) (r : Reel),
    ((visitsFrom children path index r).map Visit.leaf).Sublist
      (Operation.leavesFrom children path index)
  | [], _, _, _ => List.nil_sublist _
  | child :: rest, path, index, r => by
    rw [Operation.leavesFrom]
    cases hlatched : r.progress.isLatched (path.child index) with
    | true =>
      rw [visitsFrom_of_latched hlatched]
      exact (sublist_visitsFrom rest path (index + 1) r).trans (List.sublist_append_right _ _)
    | false =>
      have hchild := sublist_visits child (path.child index) r
      cases hhalt : (step child (path.child index) r).1.halt with
      | some error =>
        rw [visitsFrom_of_halt hlatched hhalt]
        exact hchild.trans (List.sublist_append_left _ _)
      | none =>
        rw [visitsFrom_of_step hlatched hhalt, List.map_append]
        exact hchild.append (sublist_visitsFrom rest path (index + 1) _)

end

theorem mem_leavesAt_of_mem_visits {op : Operation} {path : OpPath} {r : Reel} {v : Visit}
    (h : v ∈ visits op path r) : v.leaf ∈ op.leavesAt path :=
  (sublist_visits op path r).mem (List.mem_map_of_mem h)

mutual

theorem foundBy_of_mem_visits : ∀ {op : Operation} {path : OpPath} {r : Reel} {v : Visit},
    v ∈ visits op path r → v.FoundBy r path
  | .leaf instruction, path, r, v, hv => by
    rw [visits, List.mem_singleton] at hv
    subst hv
    exact ⟨r.progress.awaits_self path, rfl, rfl⟩
  | .block _ children, path, r, v, hv => by
    rw [visits] at hv
    exact foundBy_of_mem_visitsFrom hv

theorem foundBy_of_mem_visitsFrom : ∀ {children : List Operation} {path : OpPath} {index : Nat}
    {r : Reel} {v : Visit}, v ∈ visitsFrom children path index r → v.FoundBy r path
  | [], _, _, _, _, hv => by
    rw [visitsFrom] at hv
    cases hv
  | child :: rest, path, index, r, v, hv => by
    cases hlatched : r.progress.isLatched (path.child index) with
    | true =>
      rw [visitsFrom_of_latched hlatched] at hv
      exact foundBy_of_mem_visitsFrom hv
    | false =>
      have hchild (hv : v ∈ visits child (path.child index) r) : v.FoundBy r path := by
        have hfound := foundBy_of_mem_visits hv
        have hbelow : path.child index <+: v.path :=
          Operation.prefix_of_mem_leavesAt (mem_leavesAt_of_mem_visits hv)
        exact ⟨(Progress.awaits_iff_child hbelow).2 ⟨hlatched, hfound.awaited⟩, hfound.tick,
          hfound.origin⟩
      cases hhalt : (step child (path.child index) r).1.halt with
      | some error =>
        rw [visitsFrom_of_halt hlatched hhalt] at hv
        exact hchild hv
      | none =>
        rw [visitsFrom_of_step hlatched hhalt, List.mem_append] at hv
        refine hv.elim hchild fun hlater ↦ ?_
        have hfound := foundBy_of_mem_visitsFrom hlater
        have hfrom : path.FromChild (index + 1) v.path := Operation.fromChild_of_mem_leavesFrom
          ((sublist_visitsFrom rest path (index + 1) _).mem (List.mem_map_of_mem hlater))
        -- the siblings before it have left alone what the tables say about it
        have hsame := agreesOn_latchIfDone child path index r
          (step child (path.child index) r).1
        refine ⟨hfound.awaited.of_agreesOn hsame.symm fun _ ↦ hfrom.of_prefix, ?_,
          hfound.origin.trans (hsame _ hfrom).2⟩
        rw [hfound.tick, (keeps_latchIfDone _ _ _).tick, (keeps_step _ _ _).tick]

end

/-! ## Leaves that stay awaited -/

end Reel

/-- The leaf is not done, and the tables have kept the pan origin that it left. -/
structure Visit.LeftIn (v : Visit) (p : Progress) : Prop where
  advance : v.result.1.advance = false
  origin : p.panOrigin? v.path = v.result.2.progress.panOrigin? v.path

namespace Reel

/-- A block that is not done keeps its tables. -/
theorem step_block_of_wait {childCount : UInt8} {children : List Operation} {path : OpPath}
    {r : Reel} (h : (stepChildren children path 0 .done r).1.advance = false) :
    step (.block childCount children) path r = stepChildren children path 0 .done r := by
  rw [step]
  dsimp only
  rw [if_neg (by simp [h])]

theorem latchIfDone_of_wait {r : Reel} {path : OpPath} {outcome : Outcome}
    (h : outcome.advance = false) : r.latchIfDone path outcome = r := by
  rw [latchIfDone, if_neg (by simp [h])]

mutual

/-- A leaf that is still awaited after the step was reached by it. -/
theorem exists_visit_of_awaits : ∀ {op : Operation} {path : OpPath} {r : Reel}
    {leaf : OpPath × Instruction}, (step op path r).1.halt = none →
      (step op path r).1.advance = false → leaf ∈ op.leavesAt path →
        (step op path r).2.progress.Awaits path leaf.1 →
          ∃ v ∈ visits op path r, v.leaf = leaf ∧ v.LeftIn (step op path r).2.progress
  | .leaf instruction, path, r, leaf, _, hadvance, hleaf, _ => by
    rw [Operation.leavesAt, List.mem_singleton] at hleaf
    rw [step] at hadvance
    rw [visits, step]
    exact ⟨_, List.mem_singleton.2 rfl, hleaf.symm, hadvance, rfl⟩
  | .block childCount children, path, r, leaf, hhalt, hadvance, hleaf, hawaits => by
    rw [outcome_step_block] at hhalt hadvance
    rw [step_block_of_wait hadvance] at hawaits ⊢
    rw [Operation.leavesAt] at hleaf
    rw [visits]
    exact exists_visitFrom_of_awaits hhalt hleaf hawaits

theorem exists_visitFrom_of_awaits : ∀ {children : List Operation} {path : OpPath} {index : Nat}
    {outcome : Outcome} {r : Reel} {leaf : OpPath × Instruction},
    (stepChildren children path index outcome r).1.halt = none →
      leaf ∈ Operation.leavesFrom children path index →
        (stepChildren children path index outcome r).2.progress.Awaits path leaf.1 →
          ∃ v ∈ visitsFrom children path index r,
            v.leaf = leaf ∧ v.LeftIn (stepChildren children path index outcome r).2.progress
  | [], _, _, _, _, _, _, hleaf, _ => by
    rw [Operation.leavesFrom] at hleaf
    cases hleaf
  | child :: rest, path, index, outcome, r, leaf, hhalt, hleaf, hawaits => by
    rw [Operation.leavesFrom, List.mem_append] at hleaf
    cases hlatched : r.progress.isLatched (path.child index) with
    | true =>
      rw [stepChildren_of_latched hlatched] at hhalt hawaits ⊢
      rw [visitsFrom_of_latched hlatched]
      cases hleaf with
      | inr hrest => exact exists_visitFrom_of_awaits hhalt hrest hawaits
      | inl hchild =>
        -- a latched child stays latched, so nothing below it is awaited
        have hbelow := Operation.prefix_of_mem_leavesAt hchild
        have hopen := ((Progress.awaits_iff_child hbelow).1 hawaits).1
        rw [(agreesOn_stepChildren rest path index outcome r _ (List.prefix_refl _)).1,
          hlatched] at hopen
        cases hopen
    | false =>
      cases hstep : (step child (path.child index) r).1.halt with
      | some error =>
        rw [stepChildren_of_halt hlatched hstep, hstep] at hhalt
        cases hhalt
      | none =>
        rw [stepChildren_of_step hlatched hstep] at hhalt hawaits ⊢
        rw [visitsFrom_of_step hlatched hstep]
        cases hleaf with
        | inr hrest =>
          obtain ⟨v, hv, hfound⟩ := exists_visitFrom_of_awaits hhalt hrest hawaits
          exact ⟨v, List.mem_append_right _ hv, hfound⟩
        | inl hchild =>
          have hbelow := Operation.prefix_of_mem_leavesAt hchild
          obtain ⟨hopen, hchildAwaits⟩ := (Progress.awaits_iff_child hbelow).1 hawaits
          have hadvance : (step child (path.child index) r).1.advance = false := by
            rw [← Bool.not_eq_true]
            intro hdone
            rw [(agreesOn_stepChildren rest path index _ _ _ (List.prefix_refl _)).1,
              isLatched_latchIfDone_self hdone] at hopen
            cases hopen
          rw [latchIfDone_of_wait hadvance] at hchildAwaits ⊢
          have hsame := agreesOn_stepChildren rest path index
            (outcome.both (step child (path.child index) r).1) (step child (path.child index) r).2
          obtain ⟨v, hv, hleaf, hleft⟩ := exists_visit_of_awaits hstep hadvance hchild
            (hchildAwaits.of_agreesOn hsame.symm fun _ hwithin _ ↦
              OpPath.child_le_of_isWithin hwithin)
          have hpath : path.child index <+: v.path := by
            rw [← hleaf] at hbelow
            exact hbelow
          exact ⟨v, List.mem_append_left _ hv, hleaf, hleft.advance,
            (hsame _ hpath).2.trans hleft.origin⟩

end

mutual

/-- A step that leaves its operation undone leaves one of the leaves it reaches undone. -/
theorem exists_waiting_visit : ∀ {op : Operation} {path : OpPath} {r : Reel},
    (step op path r).1.halt = none → (step op path r).1.advance = false →
      ∃ v ∈ visits op path r, v.result.1.advance = false
  | .leaf instruction, path, r, _, hadvance => by
    rw [step] at hadvance
    rw [visits]
    exact ⟨_, List.mem_singleton.2 rfl, hadvance⟩
  | .block childCount children, path, r, hhalt, hadvance => by
    rw [outcome_step_block] at hhalt hadvance
    rw [visits]
    exact exists_waiting_visitFrom hhalt rfl hadvance

theorem exists_waiting_visitFrom : ∀ {children : List Operation} {path : OpPath} {index : Nat}
    {outcome : Outcome} {r : Reel}, (stepChildren children path index outcome r).1.halt = none →
      outcome.advance = true → (stepChildren children path index outcome r).1.advance = false →
        ∃ v ∈ visitsFrom children path index r, v.result.1.advance = false
  | [], _, _, _, _, _, hdone, hadvance => by
    rw [stepChildren, hdone] at hadvance
    cases hadvance
  | child :: rest, path, index, outcome, r, hhalt, hdone, hadvance => by
    cases hlatched : r.progress.isLatched (path.child index) with
    | true =>
      rw [stepChildren_of_latched hlatched] at hhalt hadvance
      rw [visitsFrom_of_latched hlatched]
      exact exists_waiting_visitFrom hhalt hdone hadvance
    | false =>
      cases hstep : (step child (path.child index) r).1.halt with
      | some error =>
        rw [stepChildren_of_halt hlatched hstep, hstep] at hhalt
        cases hhalt
      | none =>
        rw [stepChildren_of_step hlatched hstep] at hhalt hadvance
        rw [visitsFrom_of_step hlatched hstep]
        cases hchild : (step child (path.child index) r).1.advance with
        | false =>
          obtain ⟨v, hv, hwaits⟩ := exists_waiting_visit hstep hchild
          exact ⟨v, List.mem_append_left _ hv, hwaits⟩
        | true =>
          have hboth : (outcome.both (step child (path.child index) r).1).advance = true := by
            rw [Outcome.both, hdone, hchild]
            rfl
          obtain ⟨v, hv, hwaits⟩ := exists_waiting_visitFrom hhalt hboth hadvance
          exact ⟨v, List.mem_append_right _ hv, hwaits⟩

end

end Reel

end DemoReel.Playback
