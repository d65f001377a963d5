import DemoReel.Proofs.Playback.Passes
import DemoReel.Proofs.Playback.Record
import DemoReel.Proofs.Stage.Cells

/-!
# The blocks a demo has written

Two instructions write blocks; nothing else but starting over touches the layers.  So at any time,
also after a halt, the layers are the snapshot with the blocks that the record of the pass asks for,
one after another, and every place that is written is in the layers.
-/

namespace DemoReel

/-- The block that an instruction writes.  Of the wide form of a number only the low byte is
kept. -/
def Instruction.blockWrite? : Instruction → Option BlockWrite
  | .setBlockShort blockX blockY blockId specialData =>
    some ⟨blockX, blockY, blockId, some specialData⟩
  | .setBlockLong blockX blockY blockId =>
    some ⟨blockX, blockY, .ofNat (blockId.toNat % 256), none⟩
  | _ => none

namespace Playback

/-- The blocks that these leaves write, in their order. -/
def Visit.writes (visits : List Visit) : List BlockWrite :=
  visits.filterMap fun v ↦ v.instruction.blockWrite?

namespace State

/-- The block is written even if the stage cannot be rendered then. -/
theorem layers_setBlock (s : State) (w : BlockWrite) :
    (s.setBlock w.x w.y w.player w.foreground).2.stage.layers = s.stage.layers.write w := by
  rw [setBlock, Stage.setBlock, StageLayers.write]
  cases s.stage.layers.setBlock w.x w.y w.player w.foreground with
  | none => rfl
  | some layers =>
    have hrender := layers_renderStage { s with stage := { s.stage with layers } }
    dsimp only [Option.map_some]
    split
    · next h => rwa [h] at hrender
    · next h => rwa [h] at hrender

end State

/-- A leaf writes its block, if it has one, and leaves the layers alone otherwise. -/
theorem Reel.layers_stepLeaf (i : Instruction) (path : OpPath) (r : Reel) :
    (stepLeaf i path r).2.state.stage.layers =
      i.blockWrite?.elim r.state.stage.layers r.state.stage.layers.write := by
  by_cases hdraws : ElementId.stage ∈ i.draws
  · cases i with
    | setBlockShort blockX blockY blockId specialData =>
      exact r.state.layers_setBlock ⟨blockX, blockY, blockId, some specialData⟩
    | setBlockLong blockX blockY blockId =>
      have hlow : blockId.toUInt8 = .ofNat (blockId.toNat % 256) :=
        UInt8.toNat_inj.1 (by simp)
      rw [Instruction.blockWrite?, ← hlow]
      exact r.state.layers_setBlock ⟨blockX, blockY, blockId.toUInt8, none⟩
    | _ => exact absurd hdraws (by dsimp only [Instruction.draws, Instruction.puts]; decide)
  · rw [(stage_stepLeaf hdraws path r).1]
    cases i with
    | setBlockShort blockX blockY blockId specialData =>
      exact (hdraws (List.mem_singleton_self _)).elim
    | setBlockLong blockX blockY blockId => exact (hdraws (List.mem_singleton_self _)).elim
    | _ => rfl

section

variable {snapshot : StageLayers} {writes : List BlockWrite} {s s' : State} {visits : List Visit}

theorem written_stepLeaf {r : Reel} (i : Instruction) (path : OpPath)
    (h : snapshot.Written writes r.state.stage.layers) :
    snapshot.Written (writes ++ i.blockWrite?.toList)
      (r.stepLeaf i path).2.state.stage.layers := by
  rw [Reel.layers_stepLeaf]
  cases i.blockWrite? with
  | none => exact (List.append_nil writes).symm ▸ h
  | some w => exact h.write w

/-- Leaves stepped one after another write their blocks one after another. -/
theorem Visit.Chained.written (hchained : Visit.Chained s visits s')
    (h : snapshot.Written writes s.stage.layers) :
    snapshot.Written (writes ++ Visit.writes visits) s'.stage.layers := by
  induction visits generalizing s writes with
  | nil =>
    obtain rfl : s = s' := hchained
    exact (List.append_nil writes).symm ▸ h
  | cons v visits ih =>
    obtain ⟨rfl, hrest⟩ := hchained
    have hnext := ih hrest (written_stepLeaf v.instruction v.path h)
    have hwrites : Visit.writes (v :: visits) =
        v.instruction.blockWrite?.toList ++ Visit.writes visits := by
      rw [Visit.writes, List.filterMap_cons]
      cases v.instruction.blockWrite? <;> rfl
    rwa [hwrites, ← List.append_assoc]

end

namespace Player

variable {forest : List Operation} {p : Player} {snapshot : StageLayers}

/-- The layers are the snapshot with the blocks of the record. -/
structure KeepsBlocks (snapshot : StageLayers) (visited : List Visit) (p : Player) : Prop where
  kept : p.reel.state.stage.snapshot = snapshot
  written : snapshot.Written (Visit.writes visited) p.reel.state.stage.layers

theorem keepsBlocks_link {visited : List Visit} (hformed : snapshot.WellFormed)
    (h : p.KeepsBlocks snapshot visited) :
    p.link.player.KeepsBlocks snapshot (record visited p) := by
  obtain ⟨s, hchained, hstate⟩ := p.exists_chained_link
  refine ⟨p.redraws_link.snapshot.trans h.kept, ?_⟩
  rw [record]
  cases hends : p.endsPass with
  | true =>
    -- the record is given up together with the layers it is about
    have hrestored : p.link.player.reel.state.stage.layers = snapshot := by
      have hsame : s.stage.snapshot = p.reel.state.stage.snapshot :=
        hchained.preserves (motive := fun s ↦ s.stage.snapshot = p.reel.state.stage.snapshot)
          (fun v _ hv ↦ (Reel.redraws_stepLeaf _ _ _).snapshot.trans hv) rfl
      rw [hstate, hends, if_pos rfl, State.layers_resetWorld, hsame, h.kept]
    rw [hrestored]
    exact .nil hformed
  | false =>
    rw [hstate, hends, if_neg Bool.false_ne_true, if_neg Bool.false_ne_true, Visit.writes,
      List.filterMap_append]
    exact hchained.written h.written

theorem passInvariant_keepsBlocks (hformed : snapshot.WellFormed) :
    PassInvariant fun visited p ↦ p.KeepsBlocks snapshot visited where
  link _ h := keepsBlocks_link hformed h
  count _ h := ⟨h.kept, h.written⟩
  handOver h := ⟨h.kept, h.written⟩

theorem keepsBlocks_start {state : State} (hstart : start forest state = .ok p)
    (hformed : state.stage.snapshot.WellFormed) : p.KeepsBlocks state.stage.snapshot [] := by
  obtain ⟨-, -, rfl⟩ := start_eq_ok hstart
  refine ⟨state.redraws_resetWorld.snapshot, ?_⟩
  rw [State.layers_resetWorld]
  exact .nil hformed

/-- Well-formed layers stay well-formed wherever a leaf is stepped. -/
theorem wellFormed_of_mem_visits {visited : List Visit} (h : p.KeepsBlocks snapshot visited)
    {v : Visit} (hv : v ∈ p.visits) : v.reel.state.stage.layers.WellFormed := by
  obtain ⟨s, hchained, -⟩ := p.exists_chained_link
  refine hchained.forall_visits (motive := fun s ↦ s.stage.layers.WellFormed) ?_
    h.written.wellFormed v hv
  intro v _ hformed
  exact (written_stepLeaf v.instruction v.path (.nil hformed)).wellFormed

/-- At any time of a run, halted or not, the layers are the snapshot of the start in which the
blocks written since the demo last went back to its origin overwrite their places, one after
another; size and background stay what they were.  Whenever a leaf is stepped each place of the
stage has its cell in every layer, no two places share one, and no cell is without a place.  The
places of the stage are those within its width and height, counted row by row, and no others have a
block. -/
theorem layers_are_snapshot_with_written_blocks {state : State}
    (hstart : start forest state = .ok p) (hformed : state.stage.snapshot.WellFormed) (n : Nat) :
    let stage := (p.run n).2.reel.state.stage
    stage.snapshot = state.stage.snapshot ∧
      state.stage.snapshot.Written (Visit.writes (p.visited n)) stage.layers ∧
      (∀ q ∈ moments n p, ∀ v ∈ q.visits, ∀ x y index,
        v.reel.state.stage.layers.index? x y = some index →
          ∀ layer, index < (v.reel.state.stage.layers.cells layer).size) ∧
      (∀ x y x' y' index, stage.layers.index? x y = some index →
        stage.layers.index? x' y' = some index → x = x' ∧ y = y') ∧
      (∀ index < stage.layers.area, ∃ x y, stage.layers.index? x y = some index) ∧
      (∀ x y index, stage.layers.index? x y = some index ↔
        (x < stage.layers.width ∧ y < stage.layers.height) ∧
          x.toNat + y.toNat * stage.layers.width.toNat = index) ∧
      ∀ layer x y, (stage.layers.cell? layer x y).isSome = true ↔
        x < stage.layers.width ∧ y < stage.layers.height := by
  have hbegun := keepsBlocks_start hstart hformed
  have hkept := passInvariant_keepsBlocks hformed
  have hnow := hkept.run hbegun n
  refine ⟨hnow.kept, hnow.written, fun q hq v hv x y index hindex layer ↦ ?_,
    fun x y x' y' index ↦ StageLayers.eq_of_index?, fun index ↦ StageLayers.exists_index?,
    fun x y index ↦ StageLayers.index?_eq_some_iff,
    fun layer x y ↦ hnow.written.wellFormed.isSome_cell?_iff⟩
  obtain ⟨visited, hthen⟩ := hkept.of_mem_moments hbegun q hq
  exact (wellFormed_of_mem_visits hthen hv).lt_size hindex layer

/-- A stage that cannot be rendered for the third time. -/
def failingStage : Stage :=
  .ofLayers ⟨1, 0, 0, 0, 0⟩ (.zeroed 4 3) fun call _ _ _ ↦
    if call = 3 then none else some ⟨.solid 4 3 0, []⟩

/-- The second block lies outside the stage, and the third one halts the demo when it has been
written already. -/
theorem layers_are_snapshot_with_written_blocks_of_halt :
    ∃ p, start [.block 2 [.leaf (.setBlockLong 1 1 263), .leaf (.setBlockShort 9 9 7 1)],
        .leaf (.setBlockShort 2 0 5 6)] (.initial {} failingStage (.solid 24 30 0) ∅) = .ok p ∧
      failingStage.snapshot.WellFormed ∧
      (p.run 1).2.halted = some (.missingStageRender 0 0) ∧
      (p.run 1).2.reel.state.stage.layers.player = #[0, 0, 5, 0, 0, 7, 0, 0, 0, 0, 0, 0] ∧
      failingStage.snapshot.Written [⟨1, 1, 7, none⟩, ⟨9, 9, 7, some 1⟩, ⟨2, 0, 5, some 6⟩]
        (p.run 1).2.reel.state.stage.layers := by
  have hformed : failingStage.snapshot.WellFormed := by
    constructor <;> decide
  obtain ⟨p, hstart, hhalted, hlayers, hwrites⟩ : ∃ p,
      start [.block 2 [.leaf (.setBlockLong 1 1 263), .leaf (.setBlockShort 9 9 7 1)],
        .leaf (.setBlockShort 2 0 5 6)] (.initial {} failingStage (.solid 24 30 0) ∅) = .ok p ∧
      (p.run 1).2.halted = some (.missingStageRender 0 0) ∧
      (p.run 1).2.reel.state.stage.layers.player = #[0, 0, 5, 0, 0, 7, 0, 0, 0, 0, 0, 0] ∧
      Visit.writes (p.visited 1) = [⟨1, 1, 7, none⟩, ⟨9, 9, 7, some 1⟩, ⟨2, 0, 5, some 6⟩] :=
    ⟨_, rfl, by decide +kernel, by decide +kernel, by decide +kernel⟩
  refine ⟨p, hstart, hformed, hhalted, hlayers, hwrites ▸ ?_⟩
  exact (layers_are_snapshot_with_written_blocks hstart hformed 1).2.1

end Player

end Playback

end DemoReel
