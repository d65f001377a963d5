import DemoReel.Proofs.Playback.Slots
import DemoReel.Proofs.Playback.Visits

/-!
# Whose turn it is

In a step that does not halt every leaf that is due has its turn, in the tick that the step is for.
What is due is read off the tables alone, so that this holds of each state a demo can be in.
-/

namespace DemoReel.Playback

/-- The leaf that has yet to be done. -/
def Slot.instruction? : Slot → Option Instruction
  | ended => none
  | due instruction _ => some instruction

/-- The leaves that are due are stepped in tick `t`, from left to right. -/
structure TakeTurns (t : UInt32) (slots : List Slot) (visits : List Visit) : Prop where
  instructions : visits.map Visit.instruction = slots.filterMap Slot.instruction?
  tick : ∀ v ∈ visits, v.reel.progress.tick = t

namespace TakeTurns

variable {t : UInt32} {slots more : List Slot} {visits visits' : List Visit}

theorem nil (t : UInt32) : TakeTurns t [] [] := ⟨rfl, by simp⟩

theorem append (h : TakeTurns t slots visits) (h' : TakeTurns t more visits') :
    TakeTurns t (slots ++ more) (visits ++ visits') where
  instructions := by rw [List.map_append, List.filterMap_append, h.instructions, h'.instructions]
  tick v hv := (List.mem_append.1 hv).elim (h.tick v) (h'.tick v)

/-- Leaves that are done have no turn. -/
theorem skip (h : TakeTurns t slots visits) (count : Nat) :
    TakeTurns t (List.replicate count .ended ++ slots) visits where
  instructions := by
    rw [List.filterMap_append, List.filterMap_replicate_of_none rfl, List.nil_append,
      h.instructions]
  tick := h.tick

end TakeTurns

namespace Reel

mutual

theorem takeTurns_visits : ∀ {op : Operation} {path : OpPath} {r : Reel},
    (step op path r).1.halt = none →
      TakeTurns r.progress.tick (r.progress.slots op path) (visits op path r)
  | .leaf i, path, r, _ => by
    rw [Progress.slots, visits]
    exact ⟨rfl, by simp⟩
  | .block childCount children, path, r, hhalt => by
    rw [outcome_step_block] at hhalt
    rw [Progress.slots, visits]
    exact takeTurns_visitsFrom hhalt

theorem takeTurns_visitsFrom : ∀ {children : List Operation} {path : OpPath} {index : Nat}
    {outcome : Outcome} {r : Reel}, (stepChildren children path index outcome r).1.halt = none →
      TakeTurns r.progress.tick (r.progress.slotsFrom children path index)
        (visitsFrom children path index r)
  | [], _, _, _, _, _ => by
    rw [Progress.slotsFrom, visitsFrom]
    exact .nil _
  | child :: rest, path, index, outcome, r, hhalt => by
    cases hlatched : r.progress.isLatched (path.child index) with
    | true =>
      rw [stepChildren_of_latched hlatched] at hhalt
      rw [visitsFrom_of_latched hlatched, Progress.slotsFrom_of_latched hlatched]
      exact (takeTurns_visitsFrom hhalt).skip _
    | false =>
      cases hchild : (step child (path.child index) r).1.halt with
      | some error =>
        rw [stepChildren_of_halt hlatched hchild, hchild] at hhalt
        cases hhalt
      | none =>
        rw [stepChildren_of_step hlatched hchild] at hhalt
        rw [visitsFrom_of_step hlatched hchild, Progress.slotsFrom_of_due hlatched]
        have hrest := takeTurns_visitsFrom hhalt
        -- the later siblings find tick and tables as this child found them
        rw [Progress.slotsFrom_congr (agreesOn_latchIfDone child path index r _),
          (keeps_latchIfDone _ _ _).tick, (keeps_step _ _ _).tick] at hrest
        exact (takeTurns_visits hchild).append hrest

end

end Reel

end DemoReel.Playback
