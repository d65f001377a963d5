import DemoReel.Proofs.Playback.Record
import Mathlib.Data.List.Nodup
import Mathlib.Data.Nat.ModEq

/-!
# The work of a tick

A tick goes from one top-level operation to the next only past instant ones, around the end of the
forest if need be.  The operations it steps are therefore neighbours on a circle, and the bound on
their number is met only after a whole turn.
-/

namespace DemoReel.Playback.Player

variable {p q : Player} {budget j : Nat}

/-- What the active operation says when it is stepped. -/
def outcome? (p : Player) : Option Outcome :=
  p.forest[p.index]?.map fun op ↦ (Reel.step op (.top p.index) p.reel).1

/-! ## The index -/

theorem index_of_goesOn (h : p.link.goesOn = true) :
    p.link.player.index = (p.index + 1) % p.forest.size := by
  cases p.linkCase with
  | idle active same | halt active halt same | wait active running advance same =>
    rw [same] at h
    cases h
  | next active running advance lt same =>
    rw [same, Nat.mod_eq_of_lt lt]
    rfl
  | restart active running advance last same =>
    rw [same, last, Nat.mod_self]
    rfl

/-- No step leads out of the forest, whether or not it halts. -/
theorem index_link_lt (h : p.index < p.forest.size) :
    p.link.player.index < p.link.player.forest.size := by
  rw [forest_link]
  cases p.linkCase with
  | idle active same => rwa [same]
  | halt active halt same =>
    rw [same]
    exact (Reel.keeps_step _ _ _).index.trans_lt h
  | wait active running advance same =>
    rw [same]
    exact (Reel.keeps_step _ _ _).index.trans_lt h
  | next active running advance lt same => rwa [same]
  | restart active running advance last same =>
    rw [same]
    exact Nat.zero_lt_of_lt h

theorem passInvariant_index : PassInvariant fun _ p ↦ p.index < p.forest.size where
  link _ h := index_link_lt h
  count _ h := h
  handOver h := h

theorem index_start_lt {forest : List Operation} {state : State}
    (hstart : start forest state = .ok p) : p.index < p.forest.size := by
  obtain ⟨hforest, -, rfl⟩ := start_eq_ok hstart
  exact List.length_pos_iff.2 hforest

/-- A chain steps the operations in the order of the forest, and after the last one the first. -/
theorem index_of_getElem? (h : p.index < p.forest.size)
    (hq : (chainMoments budget p)[j]? = some q) : q.index = (p.index + j) % p.forest.size := by
  induction budget generalizing p j with
  | zero => cases hq
  | succ budget ih =>
    rw [chainMoments] at hq
    cases j with
    | zero =>
      obtain rfl : p = q := Option.some.inj hq
      exact (Nat.mod_eq_of_lt h).symm
    | succ j =>
      rw [List.getElem?_cons_succ] at hq
      split at hq
      · next hgoesOn =>
        have hnext := ih (index_link_lt h) hq
        rw [hnext, forest_link, index_of_goesOn hgoesOn, Nat.mod_add_mod, Nat.add_right_comm,
          Nat.add_assoc]
      · cases hq

theorem length_chainMoments_le (budget : Nat) (p : Player) :
    (chainMoments budget p).length ≤ budget := by
  induction budget generalizing p with
  | zero => exact Nat.le_refl 0
  | succ budget ih =>
    rw [chainMoments, List.length_cons]
    split
    · exact Nat.succ_le_succ (ih _)
    · exact Nat.succ_le_succ (Nat.zero_le budget)

theorem index_lt_of_mem_chainMoments (h : p.index < p.forest.size)
    (hq : q ∈ chainMoments budget p) : q.index < p.forest.size := by
  obtain ⟨j, hj, rfl⟩ := List.getElem_of_mem hq
  rw [index_of_getElem? h (List.getElem?_eq_getElem hj)]
  exact Nat.mod_lt _ (Nat.zero_lt_of_lt h)

/-- Less than a whole turn meets no operation twice. -/
theorem nodup_index_chainMoments (h : p.index < p.forest.size)
    (hbudget : budget ≤ p.forest.size) : ((chainMoments budget p).map index).Nodup := by
  have hlength := length_chainMoments_le budget p
  rw [List.Nodup, List.pairwise_map, List.pairwise_iff_getElem]
  intro i j hi hj hij hsame
  rw [index_of_getElem? h (List.getElem?_eq_getElem hi),
    index_of_getElem? h (List.getElem?_eq_getElem hj)] at hsame
  have heq := (Nat.ModEq.add_left_cancel' p.index hsame).eq_of_lt_of_lt (by omega) (by omega)
  omega

/-- A whole turn meets every operation. -/
theorem exists_mem_chainMoments (h : p.index < p.forest.size)
    (hlength : (chainMoments budget p).length = p.forest.size) {i : Nat} (hi : i < p.forest.size) :
    ∃ q ∈ chainMoments budget p, q.index = i := by
  -- how far the operation is ahead of the one that the chain begins with
  obtain ⟨j, hj, hmod⟩ : ∃ j < p.forest.size, (p.index + j) % p.forest.size = i := by
    obtain hlt | hle := Nat.lt_or_ge i p.index
    · refine ⟨i + p.forest.size - p.index, by omega, ?_⟩
      rw [Nat.add_sub_cancel' (by omega), Nat.add_mod_right, Nat.mod_eq_of_lt hi]
    · refine ⟨i - p.index, by omega, ?_⟩
      rw [Nat.add_sub_cancel' hle, Nat.mod_eq_of_lt hi]
  have hq : (chainMoments budget p)[j]? = some _ := List.getElem?_eq_getElem (hlength ▸ hj)
  exact ⟨_, List.mem_of_getElem? hq, (index_of_getElem? h hq).trans hmod⟩

/-! ## Starting over -/

theorem index_of_endsPass (hlt : p.index < p.forest.size) (h : p.endsPass = true) :
    p.index + 1 = p.forest.size := by
  unfold endsPass at h
  split at h
  · cases h
  · rw [Bool.and_eq_true, decide_eq_true_eq] at h
    omega

theorem endsPass_of_restarted (h : p.link.restarted = true) :
    p.endsPass = true := by
  cases p.linkCase with
  | idle active same | halt active halt same | wait active running advance same
  | next active running advance lt same =>
    rw [same] at h
    cases h
  | restart active running advance last same => exact endsPass_of_last active running advance last

theorem chainRestarts_le (budget : Nat) (p : Player) :
    chainRestarts budget p ≤ (chainMoments budget p).countP endsPass := by
  induction budget generalizing p with
  | zero => exact Nat.le_refl 0
  | succ budget ih =>
    have hone : p.link.restarted.toNat ≤ if p.endsPass then 1 else 0 := by
      cases hrestarted : p.link.restarted with
      | false => exact Nat.zero_le _
      | true => rw [endsPass_of_restarted hrestarted, if_pos rfl, Bool.toNat_true]
    rw [chainRestarts, chainMoments, List.countP_cons, Nat.add_comm]
    refine Nat.add_le_add ?_ hone
    split
    · exact ih _
    · exact Nat.zero_le _

/-- Only the last operation ends the pass, and it is met once at most. -/
theorem countP_endsPass_le_one (h : p.index < p.forest.size)
    (hbudget : budget ≤ p.forest.size) : (chainMoments budget p).countP endsPass ≤ 1 := by
  calc
    _ ≤ (chainMoments budget p).countP fun q ↦ q.index == p.forest.size - 1 :=
      List.countP_mono_left fun q hq hends ↦ by
        have hforest := forest_of_mem_chainMoments hq
        have hlt := index_lt_of_mem_chainMoments h hq
        have hlast := index_of_endsPass (hforest ▸ hlt) hends
        rw [beq_iff_eq, ← hforest, ← hlast, Nat.add_sub_cancel]
    _ = ((chainMoments budget p).map index).count (p.forest.size - 1) := by
      rw [List.count, List.countP_map]
      rfl
    _ ≤ 1 := List.nodup_iff_count_le_one.1 (nodup_index_chainMoments h hbudget) _

/-! ## Where a chain ends -/

/-- The frame is left to the next operation by an instant one only. -/
theorem outcome?_of_goesOn (h : p.link.goesOn = true) :
    p.outcome? = some .instant := by
  have hinstant {outcome : Outcome} (hhalt : outcome.halt = none)
      (hadvance : outcome.advance = true) (hconsumes : outcome.consumesTick = false) :
      outcome = .instant := by
    obtain ⟨advance, consumesTick, halt⟩ := outcome
    obtain rfl : advance = true := hadvance
    obtain rfl : consumesTick = false := hconsumes
    obtain rfl : halt = none := hhalt
    rfl
  cases p.linkCase with
  | idle active same | halt active halt same | wait active running advance same =>
    rw [same] at h
    cases h
  | next active running advance lt same | restart active running advance last same =>
    rw [same] at h
    simp only [Bool.not_or, Bool.and_eq_true, Bool.not_eq_true'] at h
    rw [outcome?, active, Option.map_some, hinstant running advance h.2]

/-- What ends a chain short of its bound. -/
theorem spent_of_not_goesOn (hrun : p.halted = none) (hlt : p.index < p.forest.size)
    (h : p.link.goesOn = false) : p.link.player.halted.isSome = true ∨
      ∃ outcome ∈ p.outcome?, outcome.advance = false ∨ outcome.consumesTick = true := by
  cases p.linkCase with
  | idle active same =>
    rw [Array.getElem?_eq_none_iff] at active
    omega
  | halt active halt same =>
    rw [same]
    exact .inl rfl
  | wait active running advance same =>
    rw [outcome?, active]
    exact .inr ⟨_, rfl, .inl advance⟩
  | next active running advance lt same =>
    rw [same] at h
    rw [outcome?, active]
    exact .inr ⟨_, rfl, .inr (by simpa [hrun] using h)⟩
  | restart active running advance last same =>
    rw [same] at h ⊢
    rw [outcome?, active]
    simp only [Bool.not_eq_false', Bool.or_eq_true] at h
    exact h.imp id fun hconsumes ↦ ⟨_, rfl, .inr hconsumes⟩

/-- All moments of a chain but the last leave the frame to the next one, and the last one too if the
chain ends at its bound only. -/
theorem goesOn_of_mem_chainMoments (hq : q ∈ chainMoments budget p) :
    q ∈ (chainMoments budget p).getLast? ∨ q.link.goesOn = true := by
  induction budget generalizing p with
  | zero => cases hq
  | succ budget ih =>
    rw [chainMoments] at hq ⊢
    cases hgoesOn : p.link.goesOn with
    | false =>
      rw [hgoesOn] at hq
      obtain rfl := List.mem_singleton.1 hq
      exact .inl rfl
    | true =>
      rw [hgoesOn, if_pos rfl] at hq
      cases List.mem_cons.1 hq with
      | inl hfirst => exact .inr (hfirst ▸ hgoesOn)
      | inr hmore =>
        rw [if_pos rfl, List.getLast?_cons]
        refine (ih hmore).imp (fun hlast ↦ ?_) id
        rw [Option.mem_def] at hlast
        rw [hlast]
        rfl

theorem not_goesOn_of_length_lt (h : (chainMoments budget p).length < budget) :
    ∃ q ∈ (chainMoments budget p).getLast?, q.link.goesOn = false := by
  induction budget generalizing p with
  | zero => cases h
  | succ budget ih =>
    rw [chainMoments] at h ⊢
    cases hgoesOn : p.link.goesOn with
    | false => exact ⟨p, rfl, hgoesOn⟩
    | true =>
      rw [hgoesOn, if_pos rfl] at h
      obtain ⟨q, hq, hspent⟩ := ih (Nat.lt_of_succ_lt_succ h)
      rw [Option.mem_def] at hq
      rw [if_pos rfl, List.getLast?_cons, hq]
      exact ⟨q, rfl, hspent⟩

/-! ## Ticks -/

/-- The work of the next tick is bounded. -/
structure BoundedWork (q : Player) : Prop where
  /-- The index is one of the forest before, during and after the tick. -/
  before : q.index < q.forest.size
  during : ∀ moment ∈ q.tickMoments, moment.index < q.forest.size
  after : q.tick.2.index < q.forest.size
  /-- A demo that has halted is left alone. -/
  idle : ∀ error, q.halted = some error → q.tickMoments = [] ∧ q.tick.2 = q
  /-- A tick is one link after another, as long as they leave the frame. -/
  first : ∀ moment ∈ q.tickMoments.head?, moment = { q with ticks := q.ticks + 1 }
  links : q.tickMoments.IsChain fun moment moment' ↦
    moment.link.goesOn = true ∧ moment' = moment.link.player
  last : ∀ moment ∈ q.tickMoments.getLast?, q.tick.2 = moment.link.player.handOver
  /-- No operation is stepped twice. -/
  length : q.tickMoments.length ≤ q.forest.size
  once : (q.tickMoments.map index).Nodup
  /-- The demo goes back to its origin once at most, also if that fails. -/
  passes : q.tickMoments.countP endsPass ≤ 1
  restarts : q.tickRestarts ≤ 1
  /-- A tick that is shorter ends with an operation that halted or took the frame. -/
  spent : q.halted = none → q.tickMoments.length < q.forest.size →
    ∃ moment ∈ q.tickMoments.getLast?, moment.link.player.halted.isSome = true ∨
      ∃ outcome ∈ moment.outcome?, outcome.advance = false ∨ outcome.consumesTick = true
  /-- If the last operation still leaves the frame, every operation has just been instant. -/
  cut : ∀ moment ∈ q.tickMoments.getLast?, moment.link.goesOn = true →
    (∀ i < q.forest.size, ∃ moment' ∈ q.tickMoments, moment'.index = i) ∧
      ∀ moment' ∈ q.tickMoments, moment'.outcome? = some .instant

theorem index_tick_lt (h : q.index < q.forest.size) : q.tick.2.index < q.forest.size := by
  have hafter : q.tick.2.index < q.tick.2.forest.size := passInvariant_index.run h 1
  rwa [forest_tick] at hafter

theorem boundedWork_of_halted {error : Error} (hindex : q.index < q.forest.size)
    (h : q.halted = some error) : q.BoundedWork := by
  have hmoments := tickMoments_of_halted h
  constructor
  case before => exact hindex
  case after => exact index_tick_lt hindex
  case idle => exact fun _ _ ↦ ⟨hmoments, by rw [tick_of_halted h]⟩
  case restarts =>
    rw [tickRestarts, if_pos (by simp [h])]
    exact Nat.zero_le 1
  case spent =>
    intro hrun
    cases h.symm.trans hrun
  all_goals
    rw [hmoments]
    simp

theorem boundedWork_of_running (hindex : q.index < q.forest.size) (hrun : q.halted = none) :
    q.BoundedWork := by
  let begun : Player := { q with ticks := q.ticks + 1 }
  have hrun' : begun.halted = none := hrun
  have hindex' : begun.index < begun.forest.size := hindex
  have hmoments : q.tickMoments = chainMoments q.forest.size begun := tickMoments_of_running hrun
  have hpasses : (chainMoments q.forest.size begun).countP endsPass ≤ 1 :=
    countP_endsPass_le_one hindex (Nat.le_refl _)
  constructor
  case before => exact hindex
  case after => exact index_tick_lt hindex
  case idle =>
    intro error h
    cases hrun.symm.trans h
  case last => exact fun moment ↦ tick_of_getLast?
  case restarts =>
    rw [tickRestarts_of_running hrun]
    exact (chainRestarts_le _ _).trans hpasses
  all_goals rw [hmoments]
  case during => exact fun moment ↦ index_lt_of_mem_chainMoments hindex
  case first => exact fun moment ↦ head?_chainMoments
  case links => exact linked_chainMoments _ _
  case length => exact length_chainMoments_le _ _
  case once => exact nodup_index_chainMoments hindex (Nat.le_refl _)
  case passes => exact hpasses
  case spent =>
    intro _ hshort
    obtain ⟨moment, hlast, hspent⟩ := not_goesOn_of_length_lt hshort
    have hmem := List.mem_of_getLast? hlast
    have hlt := index_lt_of_mem_chainMoments hindex' hmem
    rw [← forest_of_mem_chainMoments hmem] at hlt
    exact ⟨moment, hlast,
      spent_of_not_goesOn (halted_of_mem_chainMoments hrun' hmem) hlt hspent⟩
  case cut =>
    intro last hlast hgoesOn
    -- were there fewer, the last one would have taken the frame
    have hfull : (chainMoments q.forest.size begun).length = q.forest.size := by
      refine Nat.le_antisymm (length_chainMoments_le _ _) (Nat.le_of_not_lt fun hshort ↦ ?_)
      obtain ⟨moment, hlast', hspent⟩ := not_goesOn_of_length_lt hshort
      obtain rfl : last = moment := Option.some.inj (hlast.symm.trans hlast')
      cases hgoesOn.symm.trans hspent
    refine ⟨fun i hi ↦ exists_mem_chainMoments hindex' hfull hi, fun moment hmoment ↦ ?_⟩
    apply outcome?_of_goesOn
    refine (goesOn_of_mem_chainMoments hmoment).elim (fun hlast' ↦ ?_) id
    obtain rfl : last = moment := Option.some.inj (hlast.symm.trans hlast')
    exact hgoesOn

/-- Whatever the forest, its assets and its renderer, and whether or not playback has halted, the
next tick steps each operation once at most and goes back to the origin once at most, and the index
never leaves the forest.  Only an operation that takes the frame or halts ends a tick before all
have been stepped. -/
theorem tick_does_bounded_work {forest : List Operation} {state : State}
    (hstart : start forest state = .ok p) (n : Nat) :
    (p.run n).2.forest = forest.toArray ∧ (p.run n).2.BoundedWork := by
  have hindex := passInvariant_index.run (index_start_lt hstart) n
  constructor
  · obtain ⟨-, -, rfl⟩ := start_eq_ok hstart
    exact forest_run n _
  · obtain hrun | ⟨error, hhalted⟩ := Option.eq_none_or_eq_some (p.run n).2.halted
    · exact boundedWork_of_running hindex hrun
    · exact boundedWork_of_halted hindex hhalted

/-- Three instant operations: each tick is cut after one turn, and has gone back to the origin
once. -/
theorem tick_does_bounded_work_of_instants :
    ∃ p, start [.leaf (.setBlockLong 9 9 7), .leaf (.setBlockShort 9 9 7 1),
        .block 1 [.leaf (.setBlockLong 8 8 1)]] (.initial {} blankStage (.solid 24 30 0) ∅) = .ok p ∧
      (p.run 2).2.tickMoments.map index = [0, 1, 2] ∧ (p.run 2).2.tickRestarts = 1 ∧
      ∀ moment ∈ (p.run 2).2.tickMoments, moment.outcome? = some .instant := by
  obtain ⟨p, hstart, hindices, hrestarts, hlast⟩ : ∃ p,
      start [.leaf (.setBlockLong 9 9 7), .leaf (.setBlockShort 9 9 7 1),
        .block 1 [.leaf (.setBlockLong 8 8 1)]] (.initial {} blankStage (.solid 24 30 0) ∅) = .ok p ∧
      (p.run 2).2.tickMoments.map index = [0, 1, 2] ∧ (p.run 2).2.tickRestarts = 1 ∧
      ((p.run 2).2.tickMoments.getLast?.map fun moment ↦ moment.link.goesOn) = some true :=
    ⟨_, rfl, by decide +kernel, by decide +kernel, by decide +kernel⟩
  obtain ⟨moment, hmoment, hgoesOn⟩ := Option.map_eq_some_iff.1 hlast
  have hwork := (tick_does_bounded_work hstart 2).2
  exact ⟨p, hstart, hindices, hrestarts, (hwork.cut moment hmoment hgoesOn).2⟩

end DemoReel.Playback.Player
