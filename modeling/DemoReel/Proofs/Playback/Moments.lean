import DemoReel.Proofs.Playback.Schedule
import Mathlib.Data.List.Chain

/-!
# The moments of a run

A run steps top-level operations one after another: several of them in a tick when they leave the
frame, and the same one in tick after tick until it is done.  Its moments are the players right
before each of these steps.
-/

namespace DemoReel.Playback.Player

/-- The moments of a chain of at most `budget` operations. -/
def chainMoments : (budget : Nat) → Player → List Player
  | 0, _ => []
  | budget + 1, p => p :: if p.link.goesOn then chainMoments budget p.link.player else []

def tickMoments (p : Player) : List Player :=
  if p.halted.isSome then [] else chainMoments p.forest.size { p with ticks := p.ticks + 1 }

/-- The moments of the next `n` ticks. -/
def moments : (n : Nat) → Player → List Player
  | 0, _ => []
  | n + 1, p => p.tickMoments ++ moments n p.tick.2

/-- The player when its tick is over and the next one begins. -/
def resume (p : Player) : Player := { p.handOver with ticks := p.ticks + 1 }

/-- What comes of a step is found by the next one, in the same tick if the frame was left for it. -/
inductive Follows (p p' : Player) : Prop
  | link (goesOn : p.link.goesOn = true) (same : p' = p.link.player)
  | tick (resumed : p' = p.link.player.resume)

variable {p p' q : Player} {budget n : Nat}

/-! ## One moment after another -/

theorem head?_chainMoments (h : q ∈ (chainMoments budget p).head?) : q = p := by
  cases budget with
  | zero => cases h
  | succ budget => exact (Option.mem_some_iff.1 h).symm

/-- Within a tick each step finds what came of the one before. -/
theorem linked_chainMoments (budget : Nat) (p : Player) :
    (chainMoments budget p).IsChain fun q q' ↦ q.link.goesOn = true ∧ q' = q.link.player := by
  induction budget generalizing p with
  | zero => exact .nil
  | succ budget ih =>
    rw [chainMoments]
    split
    · next hgoesOn =>
      exact List.isChain_cons.2 ⟨fun q hq ↦ ⟨hgoesOn, head?_chainMoments hq⟩, ih _⟩
    · exact .singleton _

theorem isChain_chainMoments (budget : Nat) (p : Player) :
    (chainMoments budget p).IsChain Follows :=
  (linked_chainMoments budget p).imp fun _ _ h ↦ .link h.1 h.2

/-- A chain ends with what came of its last step. -/
theorem stepChain_eq_getLast? (budget : Nat) (p : Player) (looped : Bool) :
    (stepChain budget p looped).1 =
      ((chainMoments budget p).getLast?.map fun q ↦ q.link.player).getD p := by
  induction budget generalizing p looped with
  | zero => rfl
  | succ budget ih =>
    rw [stepChain_succ, chainMoments]
    cases p.link.goesOn with
    | false => rfl
    | true =>
      rw [if_pos rfl, if_pos rfl, ih, List.getLast?_cons]
      cases (chainMoments budget p.link.player).getLast? <;> rfl

/-- A step that halts is the last one of its chain. -/
theorem getLast?_chainMoments {error : Error} (hq : q ∈ chainMoments budget p)
    (h : q.link.player.halted = some error) : (chainMoments budget p).getLast? = some q := by
  induction budget generalizing p with
  | zero => cases hq
  | succ budget ih =>
    rw [chainMoments] at hq ⊢
    cases hgoesOn : p.link.goesOn with
    | true =>
      rw [hgoesOn, if_pos rfl] at hq
      rw [if_pos rfl, List.getLast?_cons]
      cases List.mem_cons.1 hq with
      | inl hfirst =>
        rw [hfirst, running_of_goesOn hgoesOn] at h
        cases h
      | inr hmore => rw [ih hmore, Option.getD_some]
    | false =>
      rw [hgoesOn, if_neg Bool.false_ne_true] at hq
      rw [if_neg Bool.false_ne_true, List.mem_singleton.1 hq, List.getLast?_singleton]

theorem tickMoments_of_halted {error : Error} (h : p.halted = some error) :
    p.tickMoments = [] := by
  rw [tickMoments, if_pos (by simp [h])]

theorem tickMoments_of_running (h : p.halted = none) :
    p.tickMoments = chainMoments p.forest.size { p with ticks := p.ticks + 1 } := by
  rw [tickMoments, if_neg (by simp [h])]

/-- The last step of a tick leads to the end of it. -/
theorem tick_of_getLast? (h : q ∈ p.tickMoments.getLast?) : p.tick.2 = q.link.player.handOver := by
  obtain hrun | ⟨error, hrun⟩ := Option.eq_none_or_eq_some p.halted
  · rw [tickMoments_of_running hrun, Option.mem_def] at h
    rw [tick_of_running hrun]
    dsimp only
    rw [chain, stepChain_eq_getLast?, h]
    rfl
  · rw [tickMoments_of_halted hrun] at h
    cases h

theorem forest_tick (p : Player) : p.tick.2.forest = p.forest := by
  cases hrun : p.halted with
  | some error => rw [tick_of_halted hrun]
  | none =>
    rw [tick_of_running hrun]
    exact p.forest_chain

theorem forest_run (n : Nat) (p : Player) : (p.run n).2.forest = p.forest := by
  induction n with
  | zero => rfl
  | succ n ih => rw [run_succ, forest_tick, ih]

/-- What every link keeps is kept up to each moment of a chain. -/
theorem chainMoments_preserves {motive : Player → Prop}
    (hlink : ∀ q, motive q → motive q.link.player) (h : motive p) :
    ∀ q ∈ chainMoments budget p, motive q := by
  induction budget generalizing p with
  | zero => exact List.forall_mem_nil _
  | succ budget ih =>
    rw [chainMoments]
    refine List.forall_mem_cons.2 ⟨h, ?_⟩
    split
    · exact ih (hlink p h)
    · exact List.forall_mem_nil _

theorem forest_of_mem_chainMoments (h : q ∈ chainMoments budget p) : q.forest = p.forest :=
  chainMoments_preserves (motive := fun q ↦ q.forest = p.forest)
    (fun q hq ↦ q.forest_link.trans hq) rfl q h

theorem forest_of_mem_moments (h : q ∈ moments n p) : q.forest = p.forest := by
  induction n generalizing p with
  | zero => cases h
  | succ n ih =>
    rw [moments, List.mem_append] at h
    cases h with
    | inr hlater => exact (ih hlater).trans p.forest_tick
    | inl hnow =>
      unfold tickMoments at hnow
      split at hnow
      · cases hnow
      · exact forest_of_mem_chainMoments (p := { p with ticks := p.ticks + 1 }) hnow

theorem halted_of_mem_chainMoments (hrun : p.halted = none) (h : q ∈ chainMoments budget p) :
    q.halted = none := by
  induction budget generalizing p with
  | zero => cases h
  | succ budget ih =>
    rw [chainMoments] at h
    cases List.mem_cons.1 h with
    | inl hfirst => rwa [hfirst]
    | inr hmore =>
      split at hmore
      · next hgoesOn => exact ih (running_of_goesOn hgoesOn) hmore
      · cases hmore

/-- Nothing is stepped once playback has halted. -/
theorem halted_of_mem_moments (h : q ∈ moments n p) : q.halted = none := by
  induction n generalizing p with
  | zero => cases h
  | succ n ih =>
    rw [moments, List.mem_append] at h
    refine h.elim (fun hnow ↦ ?_) ih
    obtain hrun | ⟨error, hrun⟩ := Option.eq_none_or_eq_some p.halted
    · rw [tickMoments_of_running hrun] at hnow
      exact halted_of_mem_chainMoments (p := { p with ticks := p.ticks + 1 }) hrun hnow
    · rw [tickMoments_of_halted hrun] at hnow
      cases hnow

theorem head?_moments (hforest : 0 < p.forest.size) (h : q ∈ (moments n p).head?) :
    q = { p with ticks := p.ticks + 1 } := by
  induction n generalizing p with
  | zero => cases h
  | succ n ih =>
    rw [moments] at h
    obtain hrun | ⟨error, hrun⟩ := Option.eq_none_or_eq_some p.halted
    · obtain ⟨size, hsize⟩ := Nat.exists_eq_succ_of_ne_zero (Nat.ne_of_gt hforest)
      rw [tickMoments_of_running hrun, hsize, chainMoments, List.cons_append] at h
      exact (Option.mem_some_iff.1 h).symm
    · rw [tickMoments_of_halted hrun, List.nil_append, tick_of_halted hrun] at h
      exact ih hforest h

theorem ticks_link (p : Player) : p.link.player.ticks = p.ticks := by
  cases p.linkCase with
  | idle active same | halt active halt same | wait active running advance same
  | next active running advance lt same | restart active running advance last same => rw [same]

theorem ticks_stepChain (budget : Nat) (p : Player) (looped : Bool) :
    (stepChain budget p looped).1.ticks = p.ticks :=
  stepChain_preserves (motive := fun q ↦ q.ticks = p.ticks)
    (fun q hq ↦ q.ticks_link.trans hq) rfl budget looped

theorem ticks_of_mem_chainMoments (h : q ∈ chainMoments budget p) : q.ticks = p.ticks :=
  chainMoments_preserves (motive := fun q ↦ q.ticks = p.ticks)
    (fun q hq ↦ q.ticks_link.trans hq) rfl q h

theorem tickMoments_ne_nil (hforest : 0 < p.forest.size) (hrun : p.halted = none) :
    p.tickMoments ≠ [] := by
  obtain ⟨size, hsize⟩ := Nat.exists_eq_succ_of_ne_zero (Nat.ne_of_gt hforest)
  rw [tickMoments_of_running hrun, hsize, chainMoments]
  exact List.cons_ne_nil _ _

/-- A run that does not halt has moments up to its last tick. -/
theorem ticks_of_getLast? (hforest : 0 < p.forest.size) (hrun : (p.run n).2.halted = none)
    (h : q ∈ (moments n p).getLast?) : q.ticks = p.ticks + n := by
  induction n generalizing p with
  | zero => cases h
  | succ n ih =>
    have htick : (p.run 1).2.halted = none := running_of_le (Nat.succ_le_succ n.zero_le) hrun
    have hnow := halted_eq_none_of_tick htick
    have hcount : p.tick.2.ticks = p.ticks + 1 := by
      rw [tick_of_running hnow]
      exact ticks_stepChain _ { p with ticks := p.ticks + 1 } _
    have hforest' : 0 < p.tick.2.forest.size := by
      rw [forest_tick]
      exact hforest
    rw [moments, List.getLast?_append, Option.mem_def, Option.or_eq_some_iff] at h
    cases h with
    | inl hlater =>
      calc
        q.ticks = p.tick.2.ticks + n := ih hforest' hrun hlater
        _ = p.ticks + (n + 1) := by omega
    | inr hlast =>
      obtain ⟨hnone, hlast⟩ := hlast
      cases n with
      | zero =>
        rw [tickMoments_of_running hnow] at hlast
        exact ticks_of_mem_chainMoments (List.mem_of_getLast? hlast)
      | succ n =>
        rw [moments, List.getLast?_eq_none_iff, List.append_eq_nil_iff] at hnone
        exact (tickMoments_ne_nil hforest' htick hnone.1).elim

theorem isChain_moments (hforest : 0 < p.forest.size) (n : Nat) :
    (moments n p).IsChain Follows := by
  induction n generalizing p with
  | zero => exact .nil
  | succ n ih =>
    rw [moments]
    refine List.isChain_append.2 ⟨?_, ih (p.forest_tick ▸ hforest), fun q hq q' hq' ↦ ?_⟩
    · unfold tickMoments
      split
      · exact .nil
      · exact isChain_chainMoments _ _
    · have hnext := head?_moments (p.forest_tick ▸ hforest) hq'
      rw [tick_of_getLast? hq] at hnext
      exact .tick hnext

theorem run_of_halted {error : Error} (h : p.halted = some error) (n : Nat) :
    (p.run n).2 = p ∧ moments n p = [] := by
  induction n with
  | zero => exact ⟨rfl, rfl⟩
  | succ n ih =>
    rw [run, moments, tick_of_halted h, tickMoments_of_halted h, List.nil_append]
    exact ih

/-- A step that halts is the last one of the run. -/
theorem halts_run {error : Error} (hq : q ∈ moments n p) (h : q.link.player.halted = some error) :
    (p.run n).2.halted = some error ∧ (moments n p).getLast? = some q := by
  induction n generalizing p with
  | zero => cases hq
  | succ n ih =>
    rw [moments, List.mem_append] at hq
    rw [moments]
    cases hq with
    | inl hnow =>
      have hlast : p.tickMoments.getLast? = some q := by
        cases hrun : p.halted with
        | some fault =>
          rw [tickMoments_of_halted hrun] at hnow
          cases hnow
        | none =>
          rw [tickMoments_of_running hrun] at hnow ⊢
          exact getLast?_chainMoments hnow h
      have htick : p.tick.2.halted = some error := by
        rw [tick_of_getLast? hlast]
        exact h
      obtain ⟨hrest, hnone⟩ := run_of_halted htick n
      rw [hnone, List.append_nil, run]
      exact ⟨hrest ▸ htick, hlast⟩
    | inr hlater =>
      obtain ⟨hrest, hlast⟩ := ih hlater
      exact ⟨hrest, by rw [List.getLast?_append, hlast, Option.some_or]⟩

theorem running_of_mem_moments (hrun : (p.run n).2.halted = none) (h : q ∈ moments n p) :
    q.link.player.halted = none := by
  refine Option.eq_none_iff_forall_ne_some.2 fun error hhalt ↦ ?_
  rw [(halts_run h hhalt).1] at hrun
  cases hrun

/-! ## Operations along the moments -/

variable {width : Nat} {op : Operation}

theorem Underway.resume (h : p.Underway width op) : p.resume.Underway width op :=
  h.handOver.count (p.ticks + 1)

/-- An operation that is not done yet is stepped again in the next tick, and not before. -/
theorem Underway.again (hwidth : width ≤ 2 ^ 30) (h : p.Underway width op)
    (hlt : p.reel.progress.tick.toNat < op.lastTick width) (hrun : p.link.player.halted = none)
    (hnext : p.Follows p') :
    p'.Underway width op ∧ p'.index = p.index ∧
      p'.reel.progress.tick.toNat = p.reel.progress.tick.toNat + 1 ∧ p'.ticks = p.ticks + 1 := by
  obtain ⟨hgoesOn, -, -, hindex, htick, hunderway⟩ := link_of_lt hwidth h hlt hrun
  cases hnext with
  | link goesOn same =>
    rw [hgoesOn] at goesOn
    cases goesOn
  | tick resumed =>
    rw [resumed]
    exact ⟨hunderway.resume, hindex, htick, congrArg (· + 1) p.ticks_link⟩

/-- After its last tick another one starts afresh. -/
theorem Underway.afresh (hwidth : width ≤ 2 ^ 30) (h : p.Underway width op)
    (hlast : p.reel.progress.tick.toNat = op.lastTick width) (hrun : p.link.player.halted = none)
    (hnext : p.Follows p') :
    (∃ op', p'.Underway width op') ∧ p'.reel.progress.tick = 0 := by
  obtain ⟨-, -, -, -, htick, hunderway⟩ := link_of_last hwidth h hlast hrun
  cases hnext with
  | link goesOn same =>
    rw [same]
    exact ⟨hunderway, htick⟩
  | tick resumed =>
    rw [resumed]
    exact ⟨hunderway.imp fun _ ↦ .resume, htick⟩

theorem follows_of_getElem? {k : Nat} (hforest : 0 < p.forest.size)
    (hq : (moments n p)[k]? = some q) (hnext : (moments n p)[k + 1]? = some p') : q.Follows p' := by
  obtain ⟨hk, rfl⟩ := List.getElem?_eq_some_iff.1 hnext
  obtain ⟨_, rfl⟩ := List.getElem?_eq_some_iff.1 hq
  exact List.isChain_iff_getElem.1 (isChain_moments hforest n) k hk

/-- The moments of a run that does not halt, one operation under way at each of them. -/
structure Smooth (width n : Nat) (p : Player) : Prop where
  width_le : width ≤ 2 ^ 30
  fresh : p.Fresh width
  running : (p.run n).2.halted = none

namespace Smooth

theorem forest_pos (h : p.Smooth width n) : 0 < p.forest.size := by
  obtain ⟨op, hunderway⟩ := h.fresh.underway
  exact Nat.zero_lt_of_lt hunderway.index_lt

theorem running_at (h : p.Smooth width n) {k : Nat} (hq : (moments n p)[k]? = some q) :
    q.link.player.halted = none :=
  running_of_mem_moments h.running (List.mem_of_getElem? hq)

theorem first (h : p.Smooth width n) (hq : (moments n p)[0]? = some q) :
    (∃ op, q.Underway width op) ∧ q.reel.progress.tick = 0 := by
  have hhead : q ∈ (moments n p).head? := by
    rw [List.head?_eq_getElem?]
    exact hq
  rw [head?_moments h.forest_pos hhead]
  exact ⟨h.fresh.underway.imp fun _ hop ↦ hop.count _, h.fresh.tick⟩

theorem underway (h : p.Smooth width n) {k : Nat} (hq : (moments n p)[k]? = some q) :
    ∃ op, q.Underway width op := by
  induction k generalizing q with
  | zero => exact (h.first hq).1
  | succ k ih =>
    have hk : k < (moments n p).length := Nat.lt_of_succ_lt (List.getElem?_eq_some_iff.1 hq).1
    have hbefore : (moments n p)[k]? = some (moments n p)[k] := List.getElem?_eq_getElem hk
    obtain ⟨op, hop⟩ := ih hbefore
    have hnext := follows_of_getElem? h.forest_pos hbefore hq
    obtain hlt | hlast := Nat.lt_or_eq_of_le hop.tick_le
    · exact ⟨op, (hop.again h.width_le hlt (h.running_at hbefore) hnext).1⟩
    · exact (hop.afresh h.width_le hlast (h.running_at hbefore) hnext).1

/-- Up to its last tick an operation is stepped in every tick, as long as the run goes on. -/
theorem exists_later (h : p.Smooth width n) {k : Nat} (hq : (moments n p)[k]? = some q)
    (hop : q.Underway width op) {j : Nat}
    (hj : q.reel.progress.tick.toNat + j ≤ op.lastTick width) (hn : q.ticks + j ≤ p.ticks + n) :
    ∃ p', (moments n p)[k + j]? = some p' ∧ p'.Underway width op ∧ p'.index = q.index ∧
      p'.reel.progress.tick.toNat = q.reel.progress.tick.toNat + j ∧ p'.ticks = q.ticks + j := by
  induction j with
  | zero => exact ⟨q, hq, hop, rfl, rfl, rfl⟩
  | succ j ih =>
    obtain ⟨before, hbefore, hop', hindex, htick, hticks⟩ := ih (by omega) (by omega)
    have hinside : k + j + 1 < (moments n p).length := by
      have hk := (List.getElem?_eq_some_iff.1 hbefore).1
      refine Nat.lt_of_le_of_ne hk fun hend ↦ ?_
      have hlast : before ∈ (moments n p).getLast? := by
        rw [List.getLast?_eq_getElem?, ← hend]
        exact hbefore
      have hticks' := ticks_of_getLast? h.forest_pos h.running hlast
      omega
    have hnext := List.getElem?_eq_getElem hinside
    have hfollows := follows_of_getElem? h.forest_pos hbefore hnext
    obtain ⟨hagain, hindex', htick', hticks'⟩ :=
      hop'.again h.width_le (by omega) (h.running_at hbefore) hfollows
    exact ⟨_, hnext, hagain, hindex'.trans hindex, by omega, by omega⟩

/-- The moment at which an operation was begun. -/
theorem exists_begun (h : p.Smooth width n) {k : Nat} (hq : (moments n p)[k]? = some q)
    (hop : q.Underway width op) :
    q.reel.progress.tick.toNat ≤ k ∧
      ∃ begun, (moments n p)[k - q.reel.progress.tick.toNat]? = some begun ∧
        begun.Underway width op ∧ begun.index = q.index ∧
        begun.reel.progress.tick.toNat = 0 ∧
        q.ticks = begun.ticks + q.reel.progress.tick.toNat := by
  induction k generalizing q op with
  | zero =>
    have htick : q.reel.progress.tick.toNat = 0 := by
      rw [(h.first hq).2]
      rfl
    rw [htick]
    exact ⟨Nat.le_refl 0, q, hq, hop, rfl, htick, rfl⟩
  | succ k ih =>
    obtain hzero | hpos := Nat.eq_zero_or_pos q.reel.progress.tick.toNat
    · rw [hzero]
      exact ⟨Nat.zero_le _, q, hq, hop, rfl, hzero, rfl⟩
    · have hk : k < (moments n p).length := Nat.lt_of_succ_lt (List.getElem?_eq_some_iff.1 hq).1
      have hbefore : (moments n p)[k]? = some (moments n p)[k] := List.getElem?_eq_getElem hk
      obtain ⟨op', hop'⟩ := h.underway hbefore
      have hnext := follows_of_getElem? h.forest_pos hbefore hq
      have hlt : (moments n p)[k].reel.progress.tick.toNat < op'.lastTick width := by
        refine Nat.lt_of_le_of_ne hop'.tick_le fun hlast ↦ ?_
        have hzero := (hop'.afresh h.width_le hlast (h.running_at hbefore) hnext).2
        rw [hzero] at hpos
        exact Nat.lt_irrefl 0 hpos
      obtain ⟨hagain, hindex, htick, hticks⟩ :=
        hop'.again h.width_le hlt (h.running_at hbefore) hnext
      obtain rfl : op' = op := Option.some.inj (hagain.active.symm.trans hop.active)
      obtain ⟨hle, begun, hbegun, hunderway, hindex', hzero, hticks'⟩ := ih hbefore hop'
      rw [htick, Nat.add_sub_add_right]
      exact ⟨Nat.succ_le_succ hle, begun, hbegun, hunderway, hindex'.trans hindex.symm, hzero,
        by omega⟩

end Smooth

end DemoReel.Playback.Player
