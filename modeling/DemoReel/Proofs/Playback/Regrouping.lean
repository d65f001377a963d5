import DemoReel.Proofs.Playback.Chain
import DemoReel.Proofs.Playback.Slots

/-!
# Blocks within blocks

A block inside a block may as well give its children to the outer one, and a block around a single
operation may as well not be there: the leaves are the same, and nobody can tell the demos apart.
-/

namespace DemoReel

/-- Somewhere inside the operation a block gives its children to the block around it. -/
inductive Operation.Regroups : Operation → Operation → Prop
  | dissolve (outer inner whole : UInt8) (a b c : List Operation) :
      Regroups (.block outer (a ++ .block inner b :: c)) (.block whole (a ++ b ++ c))
  | inside (count count' : UInt8) (a c : List Operation) {op op' : Operation}
      (regroups : Regroups op op') :
      Regroups (.block count (a ++ op :: c)) (.block count' (a ++ op' :: c))

/-- Inside one of the operations a block is dissolved, or a block is put around one of them. -/
inductive Forest.Regroups : List Operation → List Operation → Prop
  | dissolve (before after : List Operation) {op op' : Operation} (regroups : op.Regroups op') :
      Regroups (before ++ op :: after) (before ++ op' :: after)
  | enclose (count : UInt8) (before after : List Operation) (op : Operation) :
      Regroups (before ++ op :: after) (before ++ .block count [op] :: after)

theorem Operation.Regroups.leaves_eq {op op' : Operation} (h : op.Regroups op') :
    op'.leaves = op.leaves := by
  induction h with
  | dissolve outer inner whole a b c =>
    simp only [Operation.leaves, Operation.leavesAll_append, Operation.leavesAll, List.append_assoc]
  | inside count count' a c _ ih =>
    simp only [Operation.leaves, Operation.leavesAll_append, Operation.leavesAll, ih]

theorem Forest.Regroups.leaves_eq {forest forest' : List Operation}
    (h : Forest.Regroups forest forest') :
    forest'.map Operation.leaves = forest.map Operation.leaves := by
  cases h with
  | dissolve before after regroups =>
    rw [List.map_append, List.map_append, List.map_cons, List.map_cons, regroups.leaves_eq]
  | enclose count before after op =>
    simp [Operation.leaves, Operation.leavesAll]

namespace Playback

/-! ## One step -/

/-- What a step does depends on the leaves alone, not on the blocks they are in. -/
theorem Reel.step_eq_of_slots {op op' : Operation} {path path' : OpPath} {r r' : Reel}
    (hslots : r'.progress.slots op' path' = r.progress.slots op path)
    (htick : r'.progress.tick = r.progress.tick) (hstate : r'.state = r.state) :
    (step op' path' r').1 = (step op path r).1 ∧
      (step op' path' r').2.state = (step op path r).2.state ∧
      ((step op path r).1.halt = none → (step op path r).1.advance = false →
        (step op' path' r').2.progress.slots op' path' =
          (step op path r).2.progress.slots op path) := by
  have hround : round op' path' r' = round op path r := by
    rw [round, hslots, htick, hstate, round]
  have hstep := isRound_step op path r
  have hstep' := isRound_step op' path' r'
  have houtcome : (step op' path' r').1 = (step op path r).1 := by
    rw [hstep'.outcome, hround, hstep.outcome]
  refine ⟨houtcome, ?_, fun hhalt hadvance ↦ ?_⟩
  · rw [hstep'.state, hround, hstep.state]
  · rw [hstep'.slots (houtcome ▸ hhalt) (houtcome ▸ hadvance), hround, hstep.slots hhalt hadvance]

namespace Player

/-- The operations have the same leaves, and the demos are in the same tick of the same one, in the
same state. -/
structure SameCourse (p p' : Player) : Prop where
  forest : p'.forest.toList.map Operation.leaves = p.forest.toList.map Operation.leaves
  halted : p'.halted = p.halted
  ticks : p'.ticks = p.ticks
  index : p'.index = p.index
  tick : p'.reel.progress.tick = p.reel.progress.tick
  state : p'.reel.state = p.reel.state

/-- Besides, the same leaves of the active operation are still due. -/
structure Regrouped (p p' : Player) : Prop extends p.SameCourse p' where
  slots : p.halted = none → ∀ op op', p.forest[p.index]? = some op →
    p'.forest[p.index]? = some op' →
      p'.reel.progress.slots op' (.top p.index) = p.reel.progress.slots op (.top p.index)

variable {p p' : Player}

theorem SameCourse.size_forest (h : p.SameCourse p') : p'.forest.size = p.forest.size := by
  simpa using congrArg List.length h.forest

theorem SameCourse.getElem?_forest (h : p.SameCourse p') (i : Nat) :
    p'.forest[i]?.map Operation.leaves = p.forest[i]?.map Operation.leaves := by
  have hleaves := congrArg (·[i]?) h.forest
  simpa using hleaves

/-- An operation that starts afresh has all its leaves due, whatever blocks they are in. -/
theorem SameCourse.afresh (h : p.SameCourse p') (hprogress : p'.reel.progress = p.reel.progress)
    (hlatched : ∀ q, p.reel.progress.isLatched q = false)
    (horigins : ∀ q, p.reel.progress.panOrigin? q = none) : p.Regrouped p' := by
  refine ⟨h, fun _ op op' hop hop' ↦ ?_⟩
  have hleaves := h.getElem?_forest p.index
  rw [hop, hop', Option.map_some, Option.map_some, Option.some.injEq] at hleaves
  rw [hprogress, Progress.slots_of_fresh hlatched horigins,
    Progress.slots_of_fresh hlatched horigins, hleaves]

theorem SameCourse.advance (h : p.SameCourse p') :
    p'.advance.2 = p.advance.2 ∧ p.advance.1.Regrouped p'.advance.1 := by
  have hprogress : p'.reel.progress.advance = p.reel.progress.advance :=
    congrArg (fun index ↦ { Progress.start with index := index + 1 }) h.index
  rw [advance_eq, advance_eq, h.size_forest, h.index]
  split
  · refine ⟨rfl, SameCourse.afresh ?_ hprogress Progress.isLatched_start Progress.panOrigin?_start⟩
    exact ⟨h.forest, h.halted, h.ticks, congrArg Progress.index hprogress, rfl, h.state⟩
  · have hrestart : p'.restart.halted = p.restart.halted := by rw [restart, restart, h.state]
    refine ⟨congrArg Option.isNone hrestart,
      SameCourse.afresh ?_ rfl Progress.isLatched_start Progress.panOrigin?_start⟩
    refine ⟨h.forest, hrestart, h.ticks, rfl, rfl, ?_⟩
    rw [restart, restart, h.state]

theorem SameCourse.wait {index : Nat} {op op' : Operation} (h : p.SameCourse p')
    (hindex : p.index = index) (hop : p.forest[index]? = some op)
    (hop' : p'.forest[index]? = some op')
    (hslots : p'.reel.progress.slots op' (.top index) = p.reel.progress.slots op (.top index)) :
    Regrouped { p with reel := { p.reel with progress := p.reel.progress.wait } }
      { p' with reel := { p'.reel with progress := p'.reel.progress.wait } } := by
  subst hindex
  refine ⟨⟨h.forest, h.halted, h.ticks, h.index, congrArg (· + 1) h.tick, h.state⟩,
    fun _ child child' hchild hchild' ↦ ?_⟩
  obtain rfl : op = child := Option.some.inj (hop.symm.trans hchild)
  obtain rfl : op' = child' := Option.some.inj (hop'.symm.trans hchild')
  exact (Progress.slots_wait _ _ _).trans (hslots.trans (Progress.slots_wait _ _ _).symm)

/-- Two links do the same. -/
structure LinksRegrouped (link link' : Link) : Prop where
  player : link.player.Regrouped link'.player
  restarted : link'.restarted = link.restarted
  goesOn : link'.goesOn = link.goesOn

theorem Regrouped.link (h : p.Regrouped p') (hrun : p.halted = none) :
    LinksRegrouped p.link p'.link := by
  have hleaves := h.getElem?_forest p.index
  cases hop : p.forest[p.index]? with
  | none =>
    have hop' : p'.forest[p'.index]? = none := by
      rw [hop, Option.map_none, Option.map_eq_none_iff] at hleaves
      rw [h.index, hleaves]
    rw [Player.link, hop, Player.link, hop']
    exact ⟨h, rfl, rfl⟩
  | some op =>
    rw [hop, Option.map_some] at hleaves
    obtain ⟨op', hop', -⟩ := Option.map_eq_some_iff.1 hleaves
    have hslots := h.slots hrun op op' hop hop'
    obtain ⟨houtcome, hstate, hnext⟩ := Reel.step_eq_of_slots hslots h.tick h.state
    have hkeeps := Reel.keeps_step op (.top p.index) p.reel
    have hkeeps' := Reel.keeps_step op' (.top p.index) p'.reel
    have hstepped : SameCourse { p with reel := (Reel.step op (.top p.index) p.reel).2 }
        { p' with reel := (Reel.step op' (.top p.index) p'.reel).2 } := by
      refine ⟨h.forest, h.halted, h.ticks, ?_, ?_, hstate⟩
      · exact hkeeps'.index.trans (h.index.trans hkeeps.index.symm)
      · exact hkeeps'.tick.trans (h.tick.trans hkeeps.tick.symm)
    rw [link_of_getElem? hop, link_of_getElem? (h.index ▸ hop'), h.index, houtcome]
    cases hhalt : (Reel.step op (.top p.index) p.reel).1.halt with
    | some error =>
      rw [settle_of_halt hhalt, settle_of_halt hhalt]
      exact ⟨⟨⟨h.forest, rfl, h.ticks, hstepped.index, hstepped.tick, hstate⟩,
        fun hnone ↦ (Option.some_ne_none error hnone).elim⟩, rfl, rfl⟩
    | none =>
      cases hadvance : (Reel.step op (.top p.index) p.reel).1.advance with
      | false =>
        rw [settle_of_wait hhalt hadvance, settle_of_wait hhalt hadvance]
        exact ⟨hstepped.wait hkeeps.index hop hop' (hnext hhalt hadvance), rfl, rfl⟩
      | true =>
        obtain ⟨hrestarted, hplayer⟩ := hstepped.advance
        rw [settle_of_advance hhalt hadvance, settle_of_advance hhalt hadvance]
        refine ⟨hplayer, hrestarted, ?_⟩
        dsimp only
        rw [hplayer.halted]

theorem Regrouped.stepChain (h : p.Regrouped p') (hrun : p.halted = none) (budget : Nat)
    (looped : Bool) :
    (Player.stepChain budget p' looped).2 = (Player.stepChain budget p looped).2 ∧
      (Player.stepChain budget p looped).1.Regrouped (Player.stepChain budget p' looped).1 := by
  induction budget generalizing p p' looped with
  | zero => exact ⟨rfl, h⟩
  | succ budget ih =>
    have hlink := h.link hrun
    rw [stepChain_succ, stepChain_succ, hlink.goesOn, hlink.restarted]
    split
    · next hgoesOn => exact ih hlink.player (running_of_goesOn hgoesOn) _
    · exact ⟨rfl, hlink.player⟩

theorem regrouped_tick (h : p.Regrouped p') :
    p'.tick.1 = p.tick.1 ∧ p.tick.2.Regrouped p'.tick.2 := by
  cases hhalted : p.halted with
  | some error =>
    rw [tick_of_halted hhalted, tick_of_halted (h.halted.trans hhalted)]
    exact ⟨rfl, h⟩
  | none =>
    have hcounted : Regrouped { p with ticks := p.ticks + 1 } { p' with ticks := p'.ticks + 1 } :=
      ⟨⟨h.forest, h.halted, congrArg (· + 1) h.ticks, h.index, h.tick, h.state⟩, h.slots⟩
    obtain ⟨hlooped, hchain⟩ := hcounted.stepChain hhalted p.forest.size false
    rw [tick_of_running hhalted, tick_of_running (h.halted.trans hhalted), chain, chain,
      h.size_forest, hlooped, status, hchain.halted, hchain.state, ← status]
    have hstate := congrArg (fun s ↦ s.finishTick.2) hchain.state
    exact ⟨rfl, ⟨hchain.forest, hchain.halted, hchain.ticks, hchain.index, hchain.tick, hstate⟩,
      hchain.slots⟩

theorem regrouped_run (h : p.Regrouped p') (n : Nat) :
    (p'.run n).1 = (p.run n).1 ∧ (p.run n).2.Regrouped (p'.run n).2 := by
  induction n with
  | zero => exact ⟨rfl, h⟩
  | succ n ih =>
    obtain ⟨hreport, hnext⟩ := regrouped_tick ih.2
    rw [run_succ, run_succ, ih.1, hreport]
    exact ⟨rfl, hnext⟩

variable {forest forest' : List Operation} {state : State}

theorem start_of_leaves_eq (h : forest'.map Operation.leaves = forest.map Operation.leaves)
    (state : State) :
    start forest' state =
      (start forest state).map fun p ↦ { p with forest := forest'.toArray } := by
  have hempty : forest'.isEmpty = forest.isEmpty := by
    rw [← List.isEmpty_map (f := Operation.leaves), h, List.isEmpty_map]
  rw [start, start, hempty]
  split
  · rfl
  · split <;> rfl

theorem regrouped_start (h : forest'.map Operation.leaves = forest.map Operation.leaves)
    (hstart : start forest state = .ok p) : p.Regrouped { p with forest := forest'.toArray } := by
  obtain ⟨-, -, rfl⟩ := start_eq_ok hstart
  exact SameCourse.afresh ⟨h, rfl, rfl, rfl, rfl, rfl⟩ rfl Progress.isLatched_start
    Progress.panOrigin?_start

/-- Dissolving a block in another one, and putting a block around an operation, cannot be noticed.
The demo fails to start with the same error, or every tick gives the same report and ends with the
same operation active, as many ticks into it, and in the same state. -/
theorem regrouping_is_invisible (h : Forest.Regroups forest forest') (state : State) :
    (∀ error, start forest' state = .error error ↔ start forest state = .error error) ∧
      ∀ p, start forest state = .ok p → ∃ p', start forest' state = .ok p' ∧ ∀ n,
        (p'.run n).1 = (p.run n).1 ∧ (p'.run n).2.halted = (p.run n).2.halted ∧
          (p'.run n).2.reel.state = (p.run n).2.reel.state ∧
          (p'.run n).2.index = (p.run n).2.index ∧
          (p'.run n).2.reel.progress.tick = (p.run n).2.reel.progress.tick := by
  rw [start_of_leaves_eq h.leaves_eq state]
  refine ⟨fun error ↦ ?_, fun p hstart ↦ ?_⟩
  · cases start forest state <;> simp [Except.map]
  · refine ⟨{ p with forest := forest'.toArray }, by rw [hstart]; rfl, fun n ↦ ?_⟩
    obtain ⟨hreports, hrun⟩ := regrouped_run (regrouped_start h.leaves_eq hstart) n
    exact ⟨hreports, hrun.halted, hrun.state, hrun.index, hrun.tick⟩

/-- A pan and a blink in a block of their own, which is over before the walk beside it. -/
theorem regrouping_is_invisible_of_pan :
    ∃ p p',
      start [.block 2 [.leaf (.delay 3), .block 1 [.leaf (.moveCamera 4 5 6),
          .leaf (.screenBlink 1 ⟨1, 2, 3⟩)], .leaf (.playerMove .up)]]
        (.initial { viewportWidth := 4, viewportHeight := 3 } blankStage (.solid 1 1 0) ∅) = .ok p ∧
      start [.block 4 [.leaf (.delay 3), .leaf (.moveCamera 4 5 6),
          .leaf (.screenBlink 1 ⟨1, 2, 3⟩), .leaf (.playerMove .up)]]
        (.initial { viewportWidth := 4, viewportHeight := 3 } blankStage (.solid 1 1 0) ∅) =
          .ok p' ∧
      ∀ n, (p'.run n).1 = (p.run n).1 := by
  have hregroups : Forest.Regroups
      [.block 2 [.leaf (.delay 3), .block 1 [.leaf (.moveCamera 4 5 6),
        .leaf (.screenBlink 1 ⟨1, 2, 3⟩)], .leaf (.playerMove .up)]]
      [.block 4 [.leaf (.delay 3), .leaf (.moveCamera 4 5 6),
        .leaf (.screenBlink 1 ⟨1, 2, 3⟩), .leaf (.playerMove .up)]] :=
    .dissolve [] [] (.dissolve 2 1 4 [.leaf (.delay 3)]
      [.leaf (.moveCamera 4 5 6), .leaf (.screenBlink 1 ⟨1, 2, 3⟩)] [.leaf (.playerMove .up)])
  obtain ⟨p, hstart⟩ : ∃ p, start [.block 2 [.leaf (.delay 3), .block 1 [.leaf (.moveCamera 4 5 6),
      .leaf (.screenBlink 1 ⟨1, 2, 3⟩)], .leaf (.playerMove .up)]]
      (.initial { viewportWidth := 4, viewportHeight := 3 } blankStage (.solid 1 1 0) ∅) = .ok p :=
    ⟨_, rfl⟩
  obtain ⟨p', hstart', hruns⟩ := (regrouping_is_invisible hregroups _).2 p hstart
  exact ⟨p, p', hstart, hstart', fun n ↦ (hruns n).1⟩

end Player

end Playback

end DemoReel
