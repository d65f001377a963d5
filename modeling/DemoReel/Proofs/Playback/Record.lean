import DemoReel.Proofs.Playback.Invariants
import DemoReel.Proofs.Playback.Moments

/-!
# The record of a pass

What a demo shows goes back to the origin once in a pass, and is changed by the leaves that are
stepped from then on.  The record holds just these leaves.  A property that ties the demo to its
record and is kept by every link holds after every run, also after one that has halted.
-/

namespace DemoReel.Playback

/-- What each leaf keeps holds wherever a leaf is stepped. -/
theorem Visit.Chained.forall_visits {motive : State → Prop} {s s' : State} {visits : List Visit}
    (h : Visit.Chained s visits s')
    (hvisit : ∀ v ∈ visits, motive v.reel.state → motive v.result.2.state) (hs : motive s) :
    ∀ v ∈ visits, motive v.reel.state := by
  induction visits generalizing s with
  | nil => exact List.forall_mem_nil _
  | cons v visits ih =>
    obtain ⟨rfl, hrest⟩ := h
    obtain ⟨hfirst, hlater⟩ := List.forall_mem_cons.1 hvisit
    exact List.forall_mem_cons.2 ⟨hs, ih hrest hlater (hfirst hs)⟩

/-- Up to each leaf the leaves before it take the state to where it is found. -/
theorem Visit.Chained.exists_before {s s' : State} {visits : List Visit} {v : Visit}
    (h : Visit.Chained s visits s') (hv : v ∈ visits) :
    ∃ before after, visits = before ++ v :: after ∧ Visit.Chained s before v.reel.state := by
  induction visits generalizing s with
  | nil => cases hv
  | cons u visits ih =>
    obtain ⟨hfound, hrest⟩ := h
    cases List.mem_cons.1 hv with
    | inl hfirst =>
      rw [hfirst]
      exact ⟨[], visits, rfl, hfound.symm⟩
    | inr hlater =>
      obtain ⟨before, after, hsplit, hchained⟩ := ih hrest hlater
      exact ⟨u :: before, after, by rw [hsplit, List.cons_append], hfound, hchained⟩

namespace Player

/-- The leaves that stepping the active operation reaches. -/
def visits (p : Player) : List Visit :=
  match p.forest[p.index]? with
  | none => []
  | some op => Reel.visits op (.top p.index) p.reel

/-- Stepping the active operation ends the pass: the demo goes back to its origin, even if the stage
cannot be rendered there. -/
def endsPass (p : Player) : Bool :=
  match p.forest[p.index]? with
  | none => false
  | some op =>
    let (outcome, _) := Reel.step op (.top p.index) p.reel
    outcome.halt.isNone && outcome.advance && decide (p.forest.size ≤ p.index + 1)

/-- The record after one more moment. -/
def record (visited : List Visit) (p : Player) : List Visit :=
  if p.endsPass then [] else visited ++ p.visits

/-- The leaves stepped in the first `n` ticks since the demo last went back to its origin. -/
def visited (p : Player) (n : Nat) : List Visit := (moments n p).foldl record []

/-! ## A link -/

variable {p : Player} {op : Operation}

theorem visits_of_getElem? (h : p.forest[p.index]? = some op) :
    p.visits = Reel.visits op (.top p.index) p.reel := by
  rw [visits, h]

theorem exists_active_of_mem_visits {v : Visit} (h : v ∈ p.visits) :
    ∃ op, p.forest[p.index]? = some op ∧ v ∈ Reel.visits op (.top p.index) p.reel := by
  cases hop : p.forest[p.index]? with
  | none =>
    rw [visits, hop] at h
    cases h
  | some op => exact ⟨op, rfl, visits_of_getElem? hop ▸ h⟩

theorem endsPass_of_halt {error : Error} (h : p.forest[p.index]? = some op)
    (hhalt : (Reel.step op (.top p.index) p.reel).1.halt = some error) : p.endsPass = false := by
  simp [endsPass, h, hhalt]

theorem endsPass_of_wait (h : p.forest[p.index]? = some op)
    (hadvance : (Reel.step op (.top p.index) p.reel).1.advance = false) : p.endsPass = false := by
  simp [endsPass, h, hadvance]

theorem endsPass_of_advance (h : p.forest[p.index]? = some op)
    (hhalt : (Reel.step op (.top p.index) p.reel).1.halt = none)
    (hadvance : (Reel.step op (.top p.index) p.reel).1.advance = true) :
    p.endsPass = decide (p.forest.size ≤ p.index + 1) := by
  simp [endsPass, h, hhalt, hadvance]

theorem endsPass_of_next (h : p.forest[p.index]? = some op)
    (hhalt : (Reel.step op (.top p.index) p.reel).1.halt = none)
    (hadvance : (Reel.step op (.top p.index) p.reel).1.advance = true)
    (hlt : p.index + 1 < p.forest.size) : p.endsPass = false := by
  rw [endsPass_of_advance h hhalt hadvance, decide_eq_false (Nat.not_le_of_gt hlt)]

theorem endsPass_of_last (h : p.forest[p.index]? = some op)
    (hhalt : (Reel.step op (.top p.index) p.reel).1.halt = none)
    (hadvance : (Reel.step op (.top p.index) p.reel).1.advance = true)
    (hlast : p.index + 1 = p.forest.size) : p.endsPass = true := by
  rw [endsPass_of_advance h hhalt hadvance, decide_eq_true (Nat.le_of_eq hlast.symm)]

/-- A link draws what its leaves draw, and then goes back to the origin if it ends the pass. -/
theorem exists_chained_link (p : Player) :
    ∃ s, Visit.Chained p.reel.state p.visits s ∧
      p.link.player.reel.state = if p.endsPass then s.resetWorld.2 else s := by
  have hchained {op : Operation} (active : p.forest[p.index]? = some op) :
      Visit.Chained p.reel.state p.visits (Reel.step op (.top p.index) p.reel).2.state :=
    visits_of_getElem? active ▸ Reel.chained_visits op (.top p.index) p.reel
  cases p.linkCase with
  | idle none same =>
    exact ⟨p.reel.state, by rw [visits, none]; rfl, by rw [same, endsPass, none]; rfl⟩
  | halt active halt same =>
    exact ⟨_, hchained active, by rw [same, endsPass_of_halt active halt]; rfl⟩
  | wait active running advance same =>
    exact ⟨_, hchained active, by rw [same, endsPass_of_wait active advance]; rfl⟩
  | next active running advance lt same =>
    exact ⟨_, hchained active, by rw [same, endsPass_of_next active running advance lt]; rfl⟩
  | restart active running advance last same =>
    exact ⟨_, hchained active, by rw [same, endsPass_of_last active running advance last]; rfl⟩

/-! ## Runs -/

/-- A property of the record of a pass and the player, kept by all that can happen to it. -/
structure PassInvariant (motive : List Visit → Player → Prop) : Prop where
  link : ∀ {visited : List Visit} {p : Player}, p.halted = none → motive visited p →
    motive (record visited p) p.link.player
  count : ∀ {visited : List Visit} {p : Player} (ticks : Nat), motive visited p →
    motive visited { p with ticks }
  handOver : ∀ {visited : List Visit} {p : Player}, motive visited p → motive visited p.handOver

namespace PassInvariant

variable {motive : List Visit → Player → Prop} {visited : List Visit}

theorem stepChain (h : PassInvariant motive) (hrunning : p.halted = none) (hp : motive visited p)
    (budget : Nat) (looped : Bool) :
    motive ((chainMoments budget p).foldl record visited)
      (Player.stepChain budget p looped).1 := by
  induction budget generalizing p visited looped with
  | zero => exact hp
  | succ budget ih =>
    have hlink := h.link hrunning hp
    rw [stepChain_succ, chainMoments, List.foldl_cons]
    cases hgoesOn : p.link.goesOn with
    | false => exact hlink
    | true => exact ih (running_of_goesOn hgoesOn) hlink _

theorem tick (h : PassInvariant motive) (hp : motive visited p) :
    motive (p.tickMoments.foldl record visited) p.tick.2 := by
  cases hhalted : p.halted with
  | some error =>
    rw [tickMoments_of_halted hhalted, tick_of_halted hhalted]
    exact hp
  | none =>
    rw [tickMoments_of_running hhalted, tick_of_running hhalted]
    exact h.handOver (h.stepChain (p := { p with ticks := p.ticks + 1 }) hhalted
      (h.count _ hp) _ _)

theorem run_from (h : PassInvariant motive) (hp : motive visited p) (n : Nat) :
    motive ((moments n p).foldl record visited) (p.run n).2 := by
  induction n generalizing p visited with
  | zero => exact hp
  | succ n ih =>
    rw [moments, List.foldl_append]
    exact ih (h.tick hp)

theorem run (h : PassInvariant motive) (hp : motive [] p) (n : Nat) :
    motive (p.visited n) (p.run n).2 :=
  h.run_from hp n

theorem of_mem_chainMoments {budget : Nat} (h : PassInvariant motive) (hrunning : p.halted = none)
    (hp : motive visited p) : ∀ q ∈ chainMoments budget p, ∃ visited, motive visited q := by
  induction budget generalizing p visited with
  | zero => exact List.forall_mem_nil _
  | succ budget ih =>
    rw [chainMoments]
    refine List.forall_mem_cons.2 ⟨⟨visited, hp⟩, ?_⟩
    split
    · next hgoesOn => exact ih (running_of_goesOn hgoesOn) (h.link hrunning hp)
    · exact List.forall_mem_nil _

/-- At each moment of a run the property holds of some record. -/
theorem of_mem_moments {n : Nat} (h : PassInvariant motive) (hp : motive visited p) :
    ∀ q ∈ moments n p, ∃ visited, motive visited q := by
  induction n generalizing p visited with
  | zero => exact List.forall_mem_nil _
  | succ n ih =>
    rw [moments]
    refine List.forall_mem_append.2 ⟨?_, ih (h.tick hp)⟩
    cases hhalted : p.halted with
    | some error =>
      rw [tickMoments_of_halted hhalted]
      exact List.forall_mem_nil _
    | none =>
      rw [tickMoments_of_running hhalted]
      exact h.of_mem_chainMoments (p := { p with ticks := p.ticks + 1 }) hhalted (h.count _ hp)

end PassInvariant

end Player

end DemoReel.Playback
