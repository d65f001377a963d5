import DemoReel.Proofs.Playback.Redraw

/-!
# The elements of a scene

A call changes the element that it names and no other.  Each instruction makes calls about elements
of its own: it puts up at most one, takes away none but overlays, and leaves alone all that it does
not draw.
-/

namespace DemoReel.Playback

namespace ElementId

/-- The elements that an operation shows only while it runs. -/
def overlays : List String := [decoration, chat, hint, blinkOverlay]

/-- Every element of playback. -/
def all : List String := stage :: hero :: demoSprite :: overlays

end ElementId

namespace Scene

/-! ## What a call changes -/

section

variable (s : Scene) (id q : String)

theorem contains_eq_isSome : s.contains id = (s.get? id).isSome :=
  Std.ExtTreeMap.contains_eq_isSome_getElem?

theorem get?_upsert (element : Element) :
    (s.upsert id element).get? q = if id = q then some element else s.get? q := by
  simp [get?, upsert, Std.ExtTreeMap.getElem?_insert]

theorem get?_remove : (s.remove id).get? q = if id = q then none else s.get? q := by
  unfold remove
  split
  · simp [get?, Std.ExtTreeMap.getElem?_erase]
  · next habsent =>
    rw [contains_eq_isSome, Bool.not_eq_true, Option.isSome_eq_false_iff,
      Option.isNone_iff_eq_none] at habsent
    split
    · next hid => rw [← hid, habsent]
    · rfl

theorem get?_setVisible (visible : Bool) :
    (s.setVisible id visible).get? q =
      if id = q then (s.get? q).map fun element ↦ { element with visible } else s.get? q := by
  unfold setVisible
  split
  · next habsent =>
    split
    · next hid => rw [← hid, habsent, Option.map_none]
    · rfl
  · next element helement =>
    split
    · next hsame =>
      split
      · next hid => rw [← hid, helement, ← hsame, Option.map_some]
      · rfl
    · rw [get?, Std.ExtTreeMap.getElem?_insert]
      simp only [Std.LawfulEqOrd.compare_eq_iff_eq]
      split
      · next hid => rw [← hid, helement, Option.map_some]
      · rfl

theorem get?_setPosition (x y : Int32) :
    (s.setPosition id x y).get? q =
      if id = q then (s.get? q).map fun element ↦ { element with x, y } else s.get? q := by
  unfold setPosition
  split
  · next habsent =>
    split
    · next hid => rw [← hid, habsent, Option.map_none]
    · rfl
  · next element helement =>
    split
    · next hsame =>
      split
      · next hid => rw [← hid, helement, ← hsame.1, ← hsame.2, Option.map_some]
      · rfl
    · rw [get?, Std.ExtTreeMap.getElem?_insert]
      simp only [Std.LawfulEqOrd.compare_eq_iff_eq]
      split
      · next hid => rw [← hid, helement, Option.map_some]
      · rfl

end

end Scene

/-- A call about the elements that may be put up and those that may be changed; none but an overlay
is taken away. -/
inductive SceneCall.About (puts draws : List String) : SceneCall → Prop
  | upsert {id : String} {element : Element} (put : id ∈ puts) :
      About puts draws (.upsert id element)
  | remove {id : String} (drawn : id ∈ draws) (overlay : id ∈ ElementId.overlays) :
      About puts draws (.remove id)
  | setVisible {id : String} {visible : Bool} (drawn : id ∈ draws) :
      About puts draws (.setVisible id visible)
  | setPosition {id : String} {x y : Int32} (drawn : id ∈ draws) :
      About puts draws (.setPosition id x y)

namespace Scene

section

variable {puts draws : List String} {s : Scene} {call : SceneCall} {id : String}

theorem get?_call_of_not_mem (h : call.About puts draws) (hputs : id ∉ puts) (hdraws : id ∉ draws) :
    (s.call call).get? id = s.get? id := by
  cases h with
  | upsert put =>
    rw [Scene.call, get?_upsert, if_neg]
    rintro rfl
    exact hputs put
  | remove drawn overlay =>
    rw [Scene.call, get?_remove, if_neg]
    rintro rfl
    exact hdraws drawn
  | setVisible drawn =>
    rw [Scene.call, get?_setVisible, if_neg]
    rintro rfl
    exact hdraws drawn
  | setPosition drawn =>
    rw [Scene.call, get?_setPosition, if_neg]
    rintro rfl
    exact hdraws drawn

/-- What is not put up does not appear. -/
theorem get?_call_eq_none (h : call.About puts draws) (hputs : id ∉ puts)
    (habsent : s.get? id = none) : (s.call call).get? id = none := by
  cases h with
  | upsert put =>
    rw [Scene.call, get?_upsert, if_neg, habsent]
    rintro rfl
    exact hputs put
  | remove drawn overlay => rw [Scene.call, get?_remove, habsent, ite_self]
  | setVisible drawn => rw [Scene.call, get?_setVisible, habsent, Option.map_none, ite_self]
  | setPosition drawn => rw [Scene.call, get?_setPosition, habsent, Option.map_none, ite_self]

/-- What is no overlay does not disappear. -/
theorem isSome_get?_call (h : call.About puts draws) (hoverlay : id ∉ ElementId.overlays)
    (hsome : (s.get? id).isSome) : ((s.call call).get? id).isSome := by
  cases h with
  | upsert put =>
    rw [Scene.call, get?_upsert]
    split
    · rfl
    · exact hsome
  | remove drawn overlay =>
    rw [Scene.call, get?_remove, if_neg]
    · exact hsome
    · rintro rfl
      exact hoverlay overlay
  | setVisible drawn =>
    rw [Scene.call, get?_setVisible]
    split
    · rwa [Option.isSome_map]
    · exact hsome
  | setPosition drawn =>
    rw [Scene.call, get?_setPosition]
    split
    · rwa [Option.isSome_map]
    · exact hsome

end

/-! ## Calls one after another -/

/-- The scene becomes the other one by calls about these elements alone. -/
def EvolvesIn (puts draws : List String) (s s' : Scene) : Prop :=
  ∃ calls : List SceneCall, (∀ call ∈ calls, call.About puts draws) ∧ calls.foldl call s = s'

namespace EvolvesIn

variable {puts draws : List String} {s s' : Scene}

theorem refl (puts draws : List String) (s : Scene) : s.EvolvesIn puts draws s := ⟨[], nofun, rfl⟩

theorem trans {s'' : Scene} (h : s.EvolvesIn puts draws s') (h' : s'.EvolvesIn puts draws s'') :
    s.EvolvesIn puts draws s'' := by
  obtain ⟨calls, habout, rfl⟩ := h
  obtain ⟨more, habout', rfl⟩ := h'
  exact ⟨calls ++ more, fun call hcall ↦
    (List.mem_append.1 hcall).elim (habout call) (habout' call), List.foldl_append⟩

theorem single {call : SceneCall} (h : call.About puts draws) :
    s.EvolvesIn puts draws (s.call call) :=
  ⟨[call], by simpa using h, rfl⟩

theorem upsert {id : String} (h : id ∈ puts) (element : Element) :
    s.EvolvesIn puts draws (s.upsert id element) :=
  single (.upsert h)

theorem remove {id : String} (h : id ∈ draws) (hoverlay : id ∈ ElementId.overlays) :
    s.EvolvesIn puts draws (s.remove id) :=
  single (.remove h hoverlay)

theorem setVisible {id : String} (h : id ∈ draws) (visible : Bool) :
    s.EvolvesIn puts draws (s.setVisible id visible) :=
  single (.setVisible h)

theorem setPosition {id : String} (h : id ∈ draws) (x y : Int32) :
    s.EvolvesIn puts draws (s.setPosition id x y) :=
  single (.setPosition h)

theorem mono {puts' draws' : List String} (h : s.EvolvesIn puts draws s') (hputs : puts ⊆ puts')
    (hdraws : draws ⊆ draws') : s.EvolvesIn puts' draws' s' := by
  obtain ⟨calls, habout, rfl⟩ := h
  refine ⟨calls, fun call hcall ↦ ?_, rfl⟩
  cases habout call hcall with
  | upsert put => exact .upsert (hputs put)
  | remove drawn overlay => exact .remove (hdraws drawn) overlay
  | setVisible drawn => exact .setVisible (hdraws drawn)
  | setPosition drawn => exact .setPosition (hdraws drawn)

/-- What every such call keeps is kept by all of them together. -/
theorem preserves {motive : Scene → Prop} (h : s.EvolvesIn puts draws s')
    (hcall : ∀ (s : Scene) (call : SceneCall), call.About puts draws → motive s →
      motive (s.call call)) (hs : motive s) : motive s' := by
  obtain ⟨calls, habout, rfl⟩ := h
  induction calls generalizing s with
  | nil => exact hs
  | cons call calls ih =>
    obtain ⟨hfirst, hrest⟩ := List.forall_mem_cons.1 habout
    exact ih (hcall s call hfirst hs) hrest

variable {id : String}

theorem get?_eq (h : s.EvolvesIn puts draws s') (hputs : id ∉ puts) (hdraws : id ∉ draws) :
    s'.get? id = s.get? id :=
  h.preserves (motive := fun t ↦ t.get? id = s.get? id)
    (fun _ _ habout ht ↦ (get?_call_of_not_mem habout hputs hdraws).trans ht) rfl

theorem get?_eq_none (h : s.EvolvesIn puts draws s') (hputs : id ∉ puts)
    (habsent : s.get? id = none) : s'.get? id = none :=
  h.preserves (motive := fun t ↦ t.get? id = none)
    (fun _ _ habout ht ↦ get?_call_eq_none habout hputs ht) habsent

end EvolvesIn

end Scene

end DemoReel.Playback

/-! ## What an instruction draws -/

namespace DemoReel

open Playback

/-- The element that an instruction puts up when it is not there. -/
def Instruction.puts : Instruction → List String
  | paintChat _ _ _ => [ElementId.chat]
  | paintHint _ => [ElementId.hint]
  | setDemoSprite _ _ => [ElementId.demoSprite]
  | showDecoSymbol _ _ => [ElementId.decoration]
  | screenBlink _ _ => [ElementId.blinkOverlay]
  | setBlockShort _ _ _ _ => [ElementId.stage]
  | setBlockLong _ _ _ => [ElementId.stage]
  | _ => []

/-- The elements that an instruction may change. -/
def Instruction.draws : Instruction → List String
  | playerMove _ => [ElementId.hero]
  | setPosAndShow _ _ => [ElementId.demoSprite]
  | hideDemoSprite => [ElementId.demoSprite, ElementId.decoration]
  | hideDecoSymbol _ _ => [ElementId.decoration]
  | i => i.puts

theorem Instruction.puts_subset_all (i : Instruction) : i.puts ⊆ ElementId.all := by
  have hsubset (ids : List String) (h : ∀ id ∈ ids, id ∈ ElementId.all) : ids ⊆ ElementId.all := h
  cases i <;> exact hsubset _ (by dsimp only [puts]; decide)

theorem Instruction.draws_subset_all (i : Instruction) : i.draws ⊆ ElementId.all := by
  have hsubset (ids : List String) (h : ∀ id ∈ ids, id ∈ ElementId.all) : ids ⊆ ElementId.all := h
  cases i <;> exact hsubset _ (by dsimp only [draws, puts]; decide)

theorem Instruction.draws_of_puts (i : Instruction) {id : String} (h : id ∈ i.puts) :
    id ∈ i.draws := by
  cases i with
  | playerMove direction => cases h
  | setPosAndShow x y => cases h
  | hideDemoSprite => cases h
  | hideDecoSymbol unused needHide => cases h
  | _ => exact h

namespace Playback

namespace State

theorem evolvesIn_placeText (s : State) {id : String} (text : String) (x y : Int32) :
    s.scene.EvolvesIn [id] [id] (s.placeText id text x y).scene := by
  unfold placeText
  dsimp only
  split
  · exact .setPosition (by simp) _ _
  · exact .upsert (by simp) _

theorem evolvesIn_blink (s : State) (id : String) (hoverlay : id ∈ ElementId.overlays)
    (t : UInt32) (blinkCount : UInt8) :
    s.scene.EvolvesIn [id] [id] (s.blink id t blinkCount).2.scene := by
  have hid : id ∈ [id] := List.mem_singleton_self id
  have hvisible : s.scene.EvolvesIn [id] [id] (s.scene.setVisible id _) :=
    .setVisible hid ((t / blinkInterval) % 2 == 0)
  refine hvisible.trans ?_
  unfold blink
  dsimp only
  split
  · exact .remove hid hoverlay
  · exact .refl _ _ _

/-- Text is taken away when it has been on show long enough. -/
theorem evolvesIn_dismiss (s : State) {id : String} (hoverlay : id ∈ ElementId.overlays)
    (gone : Bool) :
    s.scene.EvolvesIn [id] [id]
      (if gone then { s with scene := s.scene.remove id } else s).scene := by
  split
  · exact .remove (by simp) hoverlay
  · exact .refl _ _ _

theorem evolvesIn_paintChat (s : State) (t : UInt32) (offsetY : UInt16) (text : DemoText) :
    s.scene.EvolvesIn [ElementId.chat] [ElementId.chat] (s.paintChat t offsetY text).2.scene := by
  unfold paintChat
  exact .trans (s.evolvesIn_placeText _ _ _) (evolvesIn_dismiss _ (by decide) _)

theorem evolvesIn_paintHint (s : State) (t : UInt32) (text : DemoText) :
    s.scene.EvolvesIn [ElementId.hint] [ElementId.hint] (s.paintHint t text).2.scene := by
  unfold paintHint
  exact .trans (s.evolvesIn_placeText _ _ _) (evolvesIn_dismiss _ (by decide) _)

theorem evolvesIn_setDemoSprite (s : State) (heroSprite backgroundAnim : UInt16) :
    s.scene.EvolvesIn [ElementId.demoSprite] [ElementId.demoSprite]
      (s.setDemoSprite heroSprite backgroundAnim).2.scene := by
  unfold setDemoSprite
  dsimp only
  split
  · exact .refl _ _ _
  · exact .refl _ _ _
  · exact .upsert (by simp) _

theorem evolvesIn_setPosAndShow (s : State) (x y : UInt16) :
    s.scene.EvolvesIn [] [ElementId.demoSprite] (s.setPosAndShow x y).2.scene :=
  .trans (.setPosition (by simp) _ _) (.setVisible (by simp) _)

theorem evolvesIn_hideDemoSprite (s : State) :
    s.scene.EvolvesIn [] [ElementId.demoSprite, ElementId.decoration] s.hideDemoSprite.2.scene :=
  .trans (.setVisible (by simp) _) (.remove (by simp) (by decide))

theorem evolvesIn_showDecoSymbol (s : State) (t : UInt32) (frameIndex : UInt16)
    (blinkCount : UInt8) :
    s.scene.EvolvesIn [ElementId.decoration] [ElementId.decoration]
      (s.showDecoSymbol t frameIndex blinkCount).2.scene := by
  unfold showDecoSymbol
  dsimp only
  split
  · exact s.evolvesIn_blink _ (by decide) _ _
  · split
    · exact .refl _ _ _
    · refine .trans ?_ (evolvesIn_blink _ _ (by decide) _ _)
      exact .upsert (List.mem_singleton_self _) _

theorem evolvesIn_screenBlink (s : State) (t : UInt32) (blinkCount : UInt8) (color : Rgb) :
    s.scene.EvolvesIn [ElementId.blinkOverlay] [ElementId.blinkOverlay]
      (s.screenBlink t blinkCount color).2.scene := by
  unfold screenBlink
  dsimp only
  refine .trans ?_ (evolvesIn_blink _ _ (by decide) _ _)
  split
  · exact .refl _ _ _
  · exact .upsert (List.mem_singleton_self _) _

theorem evolvesIn_renderStage (s : State) :
    s.scene.EvolvesIn [ElementId.stage] [] s.renderStage.2.scene := by
  unfold renderStage
  split
  · exact .refl _ _ _
  · exact .upsert (by simp) _

theorem evolvesIn_setBlock (s : State) (x y : UInt16) (player : UInt8)
    (foreground : Option UInt8) :
    s.scene.EvolvesIn [ElementId.stage] [] (s.setBlock x y player foreground).2.scene := by
  unfold setBlock
  cases s.stage.setBlock x y player foreground with
  | none => exact .refl _ _ _
  | some stage =>
    have hrender := evolvesIn_renderStage { s with stage }
    dsimp only
    split
    · next h => rwa [h] at hrender
    · next h => rwa [h] at hrender

theorem evolvesIn_walkHero (s : State) (direction : Direction) :
    s.scene.EvolvesIn [] [ElementId.hero] (s.walkHero direction).scene := by
  unfold walkHero
  dsimp only
  split
  · exact .refl _ _ _
  · exact .setPosition (by simp) _ _

theorem evolvesIn_resetWorld (s : State) :
    s.scene.EvolvesIn [ElementId.stage, ElementId.hero] [ElementId.hero] s.resetWorld.2.scene := by
  unfold resetWorld
  refine .trans ?_ ((evolvesIn_renderStage _).mono (by simp) (by simp))
  dsimp only
  split
  · exact .setPosition (by simp) _ _
  · exact .upsert (by simp) _

/-- Going back to the origin puts the hero at his place there, wherever he was and if he was not
there at all. -/
theorem get?_hero_resetWorld (s : State) :
    s.resetWorld.2.scene.get? ElementId.hero = some
      { (s.scene.get? ElementId.hero).getD (.image [s.hero] 0 0 Depth.hero) with
        x := s.heroOrigin.x
        y := s.heroOrigin.y } := by
  have hother : ElementId.hero ∉ [ElementId.stage] := by decide
  unfold resetWorld
  rw [(evolvesIn_renderStage _).get?_eq hother (by simp)]
  dsimp only
  rw [Scene.contains_eq_isSome]
  cases hget : s.scene.get? ElementId.hero with
  | none =>
    rw [if_neg (by simp), Scene.get?_upsert, if_pos rfl]
    rfl
  | some hero =>
    rw [if_pos Option.isSome_some, Scene.get?_setPosition, if_pos rfl, hget]
    rfl

theorem isSome_hero_resetWorld (s : State) :
    (s.resetWorld.2.scene.get? ElementId.hero).isSome := by
  rw [get?_hero_resetWorld]
  rfl

end State

theorem Reel.evolvesIn_stepLeaf (i : Instruction) (path : OpPath) (r : Reel) :
    r.state.scene.EvolvesIn i.puts i.draws (stepLeaf i path r).2.state.scene := by
  cases i with
  | paintChat lineCount offsetY text => exact r.state.evolvesIn_paintChat _ _ _
  | playerMove direction => exact r.state.evolvesIn_walkHero _
  | setDemoSprite heroSprite backgroundAnim => exact r.state.evolvesIn_setDemoSprite _ _
  | setPosAndShow x y => exact r.state.evolvesIn_setPosAndShow _ _
  | hideDemoSprite => exact r.state.evolvesIn_hideDemoSprite
  | showDecoSymbol frameIndex blinkCount => exact r.state.evolvesIn_showDecoSymbol _ _ _
  | hideDecoSymbol unused needHide =>
    exact .remove (List.mem_singleton_self _) (List.mem_cons_self)
  | screenBlink blinkCount color => exact r.state.evolvesIn_screenBlink _ _ _
  | setBlockShort blockX blockY blockId specialData =>
    exact (r.state.evolvesIn_setBlock _ _ _ _).mono (List.Subset.refl _) (List.nil_subset _)
  | setBlockLong blockX blockY blockId =>
    exact (r.state.evolvesIn_setBlock _ _ _ _).mono (List.Subset.refl _) (List.nil_subset _)
  | paintHint text => exact r.state.evolvesIn_paintHint _ _
  | moveCamera blockX blockY frameCount => exact .refl _ _ _
  | delay frameCount => exact .refl _ _ _
  | unknown opcode => exact .refl _ _ _

end Playback

end DemoReel
