import DemoReel.Proofs.Playback.Elements
import DemoReel.Proofs.Playback.Invariants
import DemoReel.Proofs.Playback.Schedule

/-!
# Overlays come and go

Chat, hint, decoration and blink overlay are put up by instructions that take them away in their
last tick.  Several leaves of a block may share one of them, so an overlay that is on show in the
middle of a block is due to be taken away by some leaf that has ticks left, and when the block is
done there is no such leaf.  Stage, hero and portrait stay for good.
-/

namespace DemoReel.Playback

/-! ## The last tick of an instruction takes its overlay away -/

namespace State

theorem get?_blink_of_done {s : State} {id : String} {t : UInt32} {blinkCount : UInt8}
    (h : (s.blink id t blinkCount).1.advance = true) :
    (s.blink id t blinkCount).2.scene.get? id = none := by
  have hover : decide (blinkCount.toUInt32 * 2 * blinkInterval ≤ t) = true := h
  rw [blink, hover, if_pos rfl, Scene.get?_remove, if_pos rfl]

theorem get?_paintChat_of_done {s : State} {t : UInt32} {offsetY : UInt16} {text : DemoText}
    (h : (s.paintChat t offsetY text).1.advance = true) :
    (s.paintChat t offsetY text).2.scene.get? ElementId.chat = none := by
  unfold paintChat at h ⊢
  dsimp only [Outcome.ticking] at h ⊢
  rw [if_pos h, Scene.get?_remove, if_pos rfl]

theorem get?_paintHint_of_done {s : State} {t : UInt32} {text : DemoText}
    (h : (s.paintHint t text).1.advance = true) :
    (s.paintHint t text).2.scene.get? ElementId.hint = none := by
  unfold paintHint at h ⊢
  dsimp only [Outcome.ticking] at h ⊢
  rw [if_pos h, Scene.get?_remove, if_pos rfl]

theorem get?_showDecoSymbol_of_done {s : State} {t : UInt32} {frameIndex : UInt16}
    {blinkCount : UInt8} (h : (s.showDecoSymbol t frameIndex blinkCount).1.advance = true) :
    (s.showDecoSymbol t frameIndex blinkCount).2.scene.get? ElementId.decoration = none := by
  revert h
  unfold showDecoSymbol
  dsimp only
  split
  · exact get?_blink_of_done
  · split
    · exact nofun
    · exact get?_blink_of_done

end State

theorem Reel.get?_stepLeaf_of_done {i : Instruction} {path : OpPath} {r : Reel} {id : String}
    (hputs : id ∈ i.puts) (hoverlay : id ∈ ElementId.overlays)
    (hdone : (stepLeaf i path r).1.advance = true) :
    (stepLeaf i path r).2.state.scene.get? id = none := by
  cases i with
  | paintChat lineCount offsetY text =>
    obtain rfl := List.mem_singleton.1 hputs
    exact State.get?_paintChat_of_done hdone
  | paintHint text =>
    obtain rfl := List.mem_singleton.1 hputs
    exact State.get?_paintHint_of_done hdone
  | showDecoSymbol frameIndex blinkCount =>
    obtain rfl := List.mem_singleton.1 hputs
    exact State.get?_showDecoSymbol_of_done hdone
  | screenBlink blinkCount color =>
    obtain rfl := List.mem_singleton.1 hputs
    exact State.get?_blink_of_done hdone
  | setDemoSprite heroSprite backgroundAnim =>
    obtain rfl := List.mem_singleton.1 hputs
    exact absurd hoverlay (by decide)
  | setBlockShort blockX blockY blockId specialData =>
    obtain rfl := List.mem_singleton.1 hputs
    exact absurd hoverlay (by decide)
  | setBlockLong blockX blockY blockId =>
    obtain rfl := List.mem_singleton.1 hputs
    exact absurd hoverlay (by decide)
  | _ => cases hputs

/-- Where all the leaves that put an overlay up are in their last tick, the overlay is gone after
them, whichever of them come first. -/
theorem Visit.Chained.get?_eq_none {width t : Nat} {s s' : State} {visits : List Visit}
    {id : String} (h : Chained s visits s') (hoverlay : id ∈ ElementId.overlays)
    (honTime : ∀ v ∈ visits,
      v.result.1.OnTime t (v.instruction.lastTick width) v.instruction.isInstant)
    (hlast : ∀ v ∈ visits, id ∈ v.instruction.puts → v.instruction.lastTick width = t)
    (hbegin : s.scene.get? id = none ∨ ∃ v ∈ visits, id ∈ v.instruction.puts) :
    s'.scene.get? id = none := by
  induction visits generalizing s with
  | nil =>
    cases h
    exact hbegin.resolve_right (by simp)
  | cons v visits ih =>
    obtain ⟨rfl, hrest⟩ := h
    obtain ⟨hfirst, hlater⟩ := List.forall_mem_cons.1 hlast
    obtain ⟨honTimeFirst, honTimeLater⟩ := List.forall_mem_cons.1 honTime
    apply ih hrest honTimeLater hlater
    by_cases hputs : id ∈ v.instruction.puts
    · have hdone : v.result.1.advance = true := by
        rw [honTimeFirst.advance, hfirst hputs, decide_eq_true rfl]
      exact .inl (Reel.get?_stepLeaf_of_done hputs hoverlay hdone)
    · cases hbegin with
      | inl habsent =>
        exact .inl ((Reel.evolvesIn_stepLeaf _ _ _).get?_eq_none hputs habsent)
      | inr hsome =>
        obtain ⟨w, hw, hwputs⟩ := hsome
        cases List.mem_cons.1 hw with
        | inl heq => exact (hputs (heq ▸ hwputs)).elim
        | inr hmem => exact .inr ⟨w, hmem, hwputs⟩

namespace Player

variable {width : Nat} {p : Player} {op : Operation}

/-- Every overlay on show will be taken away: some leaf of the operation that puts it up has this
tick left, and the operation has begun. -/
def OverlaysDue (width : Nat) (p : Player) (op : Operation) : Prop :=
  ∀ id ∈ ElementId.overlays, p.reel.state.scene.get? id ≠ none →
    0 < p.reel.progress.tick.toNat ∧
      ∃ leaf ∈ op.leavesAt (.top p.index), id ∈ leaf.2.puts ∧
        p.reel.progress.tick.toNat ≤ leaf.2.lastTick width

/-- An overlay that is on show after a step is put up by a leaf that has ticks left then. -/
theorem Underway.exists_leaf_of_overlay (hwidth : width ≤ 2 ^ 30) (h : p.Underway width op)
    (hdue : p.OverlaysDue width op) (hrun : p.link.player.halted = none) (id : String)
    (hoverlay : id ∈ ElementId.overlays)
    (hshown : (Reel.step op (.top p.index) p.reel).2.state.scene.get? id ≠ none) :
    ∃ leaf ∈ op.leavesAt (.top p.index), id ∈ leaf.2.puts ∧
      p.reel.progress.tick.toNat < leaf.2.lastTick width := by
  obtain ⟨hhalt, -⟩ := h.onTime hwidth hrun
  have hvisits := Reel.due_visits hwidth h.config rfl h.tick_le h.tracked hhalt
  have hmem {leaf : OpPath × Instruction} :
      leaf ∈ (Reel.visits op (.top p.index) p.reel).map Visit.leaf ↔
        leaf ∈ op.leavesAt (.top p.index) ∧
          p.reel.progress.tick.toNat ≤ leaf.2.lastTick width := by
    rw [hvisits.leaves, List.mem_filter, decide_eq_true_eq]
  refine Classical.byContradiction fun hnone ↦ ?_
  refine hshown ((Reel.chained_visits op _ _).get?_eq_none hoverlay hvisits.onTime ?_ ?_)
  · intro v hv hputs
    obtain ⟨hleaf, hle⟩ := hmem.1 (List.mem_map_of_mem hv)
    refine Nat.le_antisymm (Nat.le_of_not_lt fun hlt ↦ ?_) hle
    exact hnone ⟨v.leaf, hleaf, hputs, hlt⟩
  · by_cases hbefore : p.reel.state.scene.get? id = none
    · exact .inl hbefore
    · obtain ⟨-, leaf, hleaf, hputs, hle⟩ := hdue id hoverlay hbefore
      obtain ⟨v, hv, rfl⟩ := List.mem_map.1 (hmem.2 ⟨hleaf, hle⟩)
      exact .inr ⟨v, hv, hputs⟩

theorem Underway.overlaysDue_link (hwidth : width ≤ 2 ^ 30) (h : p.Underway width op)
    (hdue : p.OverlaysDue width op) (hrun : p.link.player.halted = none) :
    ∃ op', p.link.player.Underway width op' ∧ p.link.player.OverlaysDue width op' := by
  have hleaf := h.exists_leaf_of_overlay hwidth hdue hrun
  have hstate := p.state_settle (Reel.step op (.top p.index) p.reel).1
    (Reel.step op (.top p.index) p.reel).2
  rw [← link_of_getElem? h.active] at hstate
  have hevolves : (Reel.step op (.top p.index) p.reel).2.state.scene.EvolvesIn
      [ElementId.stage, ElementId.hero] [ElementId.hero] p.link.player.reel.state.scene := by
    obtain hsame | ⟨hreset, -⟩ := hstate
    · exact hsame ▸ .refl _ _ _
    · exact hreset ▸ State.evolvesIn_resetWorld _
  -- neither waiting nor starting over puts an overlay up
  have hshown {id : String} (hoverlay : id ∈ ElementId.overlays)
      (hafter : p.link.player.reel.state.scene.get? id ≠ none) :
      (Reel.step op (.top p.index) p.reel).2.state.scene.get? id ≠ none := by
    have hother : ∀ id ∈ ElementId.overlays, id ∉ [ElementId.stage, ElementId.hero] := by decide
    exact fun habsent ↦ hafter (hevolves.get?_eq_none (hother id hoverlay) habsent)
  obtain hlt | hlast := Nat.lt_or_eq_of_le h.tick_le
  · obtain ⟨-, -, -, hindex, htick, hunderway⟩ := link_of_lt hwidth h hlt hrun
    refine ⟨op, hunderway, fun id hoverlay hafter ↦ ?_⟩
    obtain ⟨leaf, hmem, hputs, hleft⟩ := hleaf id hoverlay (hshown hoverlay hafter)
    rw [htick, hindex]
    exact ⟨Nat.succ_pos _, leaf, hmem, hputs, hleft⟩
  · obtain ⟨-, -, -, -, -, op', hunderway⟩ := link_of_last hwidth h hlast hrun
    refine ⟨op', hunderway, fun id hoverlay hafter ↦ ?_⟩
    obtain ⟨leaf, hmem, -, hleft⟩ := hleaf id hoverlay (hshown hoverlay hafter)
    have hle := @Operation.lastTick_le_lastOf width _ _ hmem
    rw [Operation.lastOf_leavesAt] at hle
    omega

/-- Along a run that does not halt an operation is under way, and the overlays on show are due. -/
theorem invariant_overlaysDue (hwidth : width ≤ 2 ^ 30) :
    Invariant fun _ q ↦ ∃ op, q.Underway width op ∧ q.OverlaysDue width op where
  link := fun ⟨_, hunderway, hdue⟩ hrun ↦ hunderway.overlaysDue_link hwidth hdue hrun
  count := fun ticks ⟨op, hunderway, hdue⟩ ↦ ⟨op, hunderway.count ticks, hdue⟩
  handOver := fun ⟨op, hunderway, hdue⟩ ↦ ⟨op, hunderway.handOver, hdue⟩

/-! ## What stays -/

/-- What every call of playback keeps is kept by a link. -/
theorem scene_link {motive : Scene → Prop}
    (hcall : ∀ (s : Scene) (call : SceneCall), call.About ElementId.all ElementId.all → motive s →
      motive (s.call call)) (h : motive p.reel.state.scene) :
    motive p.link.player.reel.state.scene := by
  cases hop : p.forest[p.index]? with
  | none =>
    rw [link, hop]
    exact h
  | some op =>
    have hstep : motive (Reel.step op (.top p.index) p.reel).2.state.scene := by
      refine (Reel.chained_visits op (.top p.index) p.reel).preserves
        (motive := fun s ↦ motive s.scene) (fun v _ hv ↦ ?_) h
      exact ((Reel.evolvesIn_stepLeaf _ _ _).mono v.instruction.puts_subset_all
        v.instruction.draws_subset_all).preserves hcall hv
    rw [link_of_getElem? hop]
    obtain hstate | ⟨hstate, -⟩ := p.state_settle
      (Reel.step op (.top p.index) p.reel).1 (Reel.step op (.top p.index) p.reel).2
    · exact hstate ▸ hstep
    · rw [hstate]
      exact ((State.evolvesIn_resetWorld _).mono (by decide) (by decide)).preserves hcall hstep

/-- What calls and drains keep is kept from one tick to any later one, whether playback halts or
not. -/
theorem scene_run {motive : Scene → Prop}
    (hcall : ∀ (s : Scene) (call : SceneCall), call.About ElementId.all ElementId.all → motive s →
      motive (s.call call))
    (hdrain : ∀ s, motive s → motive s.drain.2) {m n : Nat} (hle : m ≤ n)
    (h : motive (p.run m).2.reel.state.scene) : motive (p.run n).2.reel.state.scene := by
  induction hle with
  | refl => exact h
  | @step n _ ih =>
    rw [run_succ]
    cases hhalted : (p.run n).2.halted with
    | some error =>
      rw [tick_of_halted hhalted]
      exact ih
    | none =>
      rw [tick_of_running hhalted]
      exact hdrain _ (stepChain_preserves (motive := fun q ↦ motive q.reel.state.scene)
        (fun _ hq ↦ scene_link hcall hq) (p := { (p.run n).2 with ticks := (p.run n).2.ticks + 1 })
        ih _ _)

theorem isSome_run {id : String} (hoverlay : id ∉ ElementId.overlays) {m n : Nat} (hle : m ≤ n)
    (h : ((p.run m).2.reel.state.scene.get? id).isSome) :
    ((p.run n).2.reel.state.scene.get? id).isSome :=
  scene_run (motive := fun s ↦ (s.get? id).isSome)
    (fun _ _ habout ↦ Scene.isSome_get?_call habout hoverlay) (fun _ hs ↦ hs) hle h

theorem absent_run {id : String} (hid : id ∉ ElementId.all) (n : Nat)
    (h : p.reel.state.scene.get? id = none) : (p.run n).2.reel.state.scene.get? id = none :=
  scene_run (motive := fun s ↦ s.get? id = none)
    (fun _ _ habout ↦ Scene.get?_call_eq_none habout hid) (fun _ hs ↦ hs) (Nat.zero_le n) h

variable {forest : List Operation} {config : Config} {stage : Stage} {hero : Raster}
  {sprites : SpriteCache}

theorem elements_start (hstart : start forest (.initial config stage hero sprites) = .ok p) :
    (p.reel.state.scene.get? ElementId.hero).isSome ∧
      (p.reel.state.scene.get? ElementId.stage).isSome ∧
      ∀ id, id ≠ ElementId.hero → id ≠ ElementId.stage → p.reel.state.scene.get? id = none := by
  obtain ⟨-, hstage, rfl⟩ := start_eq_ok hstart
  refine ⟨State.isSome_hero_resetWorld _, Std.ExtTreeMap.mem_iff_isSome_getElem?.1 hstage, ?_⟩
  intro id hhero hshown
  exact (State.evolvesIn_resetWorld _).get?_eq_none (by simp [hhero, hshown]) rfl

/-- At the start there is nothing to take away. -/
theorem overlaysDue_start (hstart : start forest (.initial config stage hero sprites) = .ok p)
    (op : Operation) : p.OverlaysDue width op := by
  obtain ⟨-, -, hothers⟩ := elements_start hstart
  intro id hoverlay hshown
  have hother : ∀ id ∈ ElementId.overlays, id ≠ ElementId.hero ∧ id ≠ ElementId.stage := by decide
  exact (hshown (hothers id (hother id hoverlay).1 (hother id hoverlay).2)).elim

/-- An operation that is done, and a demo that starts over, leave none of the four overlays on show.
Hero and stage are on show from the start, the portrait stays once it is there, and no other element
is ever put up. -/
theorem overlays_end_with_operations
    (hstart : start forest (.initial config stage hero sprites) = .ok p) (n : Nat) :
    let scene := (p.run n).2.reel.state.scene
    (config.viewportWidth.toNat ≤ 2 ^ 30 → (p.run n).2.halted = none →
      (p.run n).2.reel.progress.tick = 0 →
        ∀ id ∈ ElementId.overlays, scene.contains id = false) ∧
      scene.contains ElementId.hero = true ∧ scene.contains ElementId.stage = true ∧
      (∀ m ≤ n, (p.run m).2.reel.state.scene.contains ElementId.demoSprite = true →
        scene.contains ElementId.demoSprite = true) ∧
      ∀ id, scene.contains id = true → id ∈ ElementId.all := by
  intro scene
  obtain ⟨hhero, hstage, hothers⟩ := elements_start hstart
  simp only [Scene.contains_eq_isSome]
  refine ⟨fun hwidth hrun htick id hoverlay ↦ ?_, isSome_run (by decide) (Nat.zero_le n) hhero,
    isSome_run (by decide) (Nat.zero_le n) hstage, fun m hle ↦ isSome_run (by decide) hle,
    fun id hsome ↦ ?_⟩
  · obtain ⟨op, hunderway⟩ := (fresh_start hstart).2.underway
    obtain ⟨op', -, hdue'⟩ := (invariant_overlaysDue hwidth).run
      ⟨op, hunderway, overlaysDue_start hstart op⟩ hrun
    rw [Option.isSome_eq_false_iff, Option.isNone_iff_eq_none]
    refine Classical.byContradiction fun hshown ↦ ?_
    have hbegun := (hdue' id hoverlay hshown).1
    rw [htick] at hbegun
    exact Nat.lt_irrefl 0 hbegun
  · refine Classical.byContradiction fun hid ↦ ?_
    have habsent : p.reel.state.scene.get? id = none := by
      apply hothers
      · rintro rfl
        exact hid (by decide)
      · rintro rfl
        exact hid (by decide)
    rw [absent_run hid n habsent] at hsome
    cases hsome

/-- Two blinks of different length share the overlay; the short one takes it away in the eleventh
tick, the long one shows it again and takes it away in the last. -/
theorem overlays_end_with_operations_of_blinks :
    ∃ p, start [.block 2 [.leaf (.screenBlink 2 ⟨1, 2, 3⟩), .leaf (.screenBlink 1 ⟨4, 5, 6⟩)],
        .leaf (.delay 2)] (.initial { viewportWidth := 4, viewportHeight := 3 } blankStage
          (.solid 1 1 0) ∅) = .ok p ∧
      (p.run 21).2.halted = none ∧ (p.run 21).2.reel.progress.tick = 0 ∧
      (p.run 20).2.reel.state.scene.contains ElementId.blinkOverlay = true ∧
      (p.run 21).2.reel.state.scene.contains ElementId.blinkOverlay = false := by
  obtain ⟨p, hstart, hrun, htick, hshown⟩ : ∃ p,
      start [.block 2 [.leaf (.screenBlink 2 ⟨1, 2, 3⟩), .leaf (.screenBlink 1 ⟨4, 5, 6⟩)],
        .leaf (.delay 2)] (.initial { viewportWidth := 4, viewportHeight := 3 } blankStage
          (.solid 1 1 0) ∅) = .ok p ∧
      (p.run 21).2.halted = none ∧ (p.run 21).2.reel.progress.tick = 0 ∧
      (p.run 20).2.reel.state.scene.contains ElementId.blinkOverlay = true :=
    ⟨_, rfl, by decide +kernel, by decide +kernel, by decide +kernel⟩
  have hclear := (overlays_end_with_operations hstart 21).1 (by decide) hrun htick
  exact ⟨p, hstart, hrun, htick, hshown, hclear _ (by decide)⟩

end Player

end DemoReel.Playback
