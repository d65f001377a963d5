import DemoReel.Proofs.Playback.Elements
import DemoReel.Proofs.Playback.Lockstep

/-!
# The portrait from pass to pass

The portrait is the one element that a demo leaves behind when it starts over.  What it looks like,
where it stands and whether it is shown are set one by one, and what a pass sets does not depend on
what the portrait was before.  So a second pass over the same portrait changes nothing any more.
-/

namespace DemoReel.Playback

namespace Scene

/-! ## Scenes with the same elements -/

/-- The same elements are on show; what is pending may differ. -/
def SameElements (s s' : Scene) : Prop := ∀ id, s'.get? id = s.get? id

theorem SameElements.symm {s s' : Scene} (h : s.SameElements s') : s'.SameElements s :=
  fun id ↦ (h id).symm

theorem SameElements.trans {s s' s'' : Scene} (h : s.SameElements s') (h' : s'.SameElements s'') :
    s.SameElements s'' :=
  fun id ↦ (h' id).trans (h id)

theorem similarity_sameElements : Similarity SameElements where
  contains id h _ := by rw [contains_eq_isSome, contains_eq_isSome, h id]
  hero h := h _
  upsert id element h _ _ q := by rw [get?_upsert, get?_upsert, h q]
  remove id h _ q := by rw [get?_remove, get?_remove, h q]
  setVisible id visible h q := by rw [get?_setVisible, get?_setVisible, h q]
  setPosition id x y h q := by rw [get?_setPosition, get?_setPosition, h q]
  rebuilt kind h q := by rw [get?_upsert, get?_upsert, h q, rebuilt, rebuilt, h]
  symbol raster h q := by rw [get?_upsert, get?_upsert, h q, symbol, symbol, h]

/-! ## Scenes that differ in the portrait -/

variable {kept : Option Element → Option Element → Prop}

/-- The portraits are related, and the decorations beside them are there in both or in none; all
other elements are the same. -/
structure Besides (kept : Option Element → Option Element → Prop) (s s' : Scene) : Prop where
  others : ∀ id, id ≠ ElementId.demoSprite → id ≠ ElementId.decoration → s'.get? id = s.get? id
  decoration : (s'.get? ElementId.decoration).isSome = (s.get? ElementId.decoration).isSome
  portrait : kept (s.get? ElementId.demoSprite) (s'.get? ElementId.demoSprite)

/-- A relation between portraits that is kept when the same is done to both. -/
structure KeepsPortraits (kept : Option Element → Option Element → Prop) : Prop where
  redrawn {old old' : Option Element} (kind : ElementKind) : kept old old' →
    kept (some (.redrawn old kind)) (some (.redrawn old' kind))
  setVisible {old old' : Option Element} (visible : Bool) : kept old old' →
    kept (old.map fun element ↦ { element with visible })
      (old'.map fun element ↦ { element with visible })
  setPosition {old old' : Option Element} (x y : Int32) : kept old old' →
    kept (old.map fun element ↦ { element with x, y })
      (old'.map fun element ↦ { element with x, y })

theorem keepsPortraits_eq : KeepsPortraits (· = ·) where
  redrawn _ h := h ▸ rfl
  setVisible _ h := h ▸ rfl
  setPosition _ _ h := h ▸ rfl

namespace Besides

variable {s s' t t' : Scene}

/-- An element put into both scenes may differ where the scenes may. -/
theorem upsert {id : String} {element element' : Element} (h : Besides kept s s')
    (hsame : id ≠ ElementId.demoSprite → id ≠ ElementId.decoration → element' = element)
    (hportrait : id = ElementId.demoSprite → kept (some element) (some element')) :
    Besides kept (s.upsert id element) (s'.upsert id element') := by
  refine ⟨fun q hq hq' ↦ ?_, ?_, ?_⟩
  · rw [get?_upsert, get?_upsert]
    split
    · next hid => rw [hsame (hid ▸ hq) (hid ▸ hq')]
    · exact h.others q hq hq'
  · rw [get?_upsert, get?_upsert]
    split
    · rfl
    · exact h.decoration
  · rw [get?_upsert, get?_upsert]
    split
    · next hid => exact hportrait hid
    · exact h.portrait

/-- The same is done to an element of both scenes, if it is there. -/
theorem modify {id : String} {change : Element → Element} (h : Besides kept s s')
    (hchange : ∀ q, t.get? q = if id = q then (s.get? q).map change else s.get? q)
    (hchange' : ∀ q, t'.get? q = if id = q then (s'.get? q).map change else s'.get? q)
    (hkept : kept ((s.get? ElementId.demoSprite).map change)
      ((s'.get? ElementId.demoSprite).map change)) :
    Besides kept t t' := by
  refine ⟨fun q hq hq' ↦ ?_, ?_, ?_⟩
  · rw [hchange, hchange', h.others q hq hq']
  · rw [hchange, hchange']
    split
    · rw [Option.isSome_map, Option.isSome_map, h.decoration]
    · exact h.decoration
  · rw [hchange, hchange']
    split
    · exact hkept
    · exact h.portrait

end Besides

theorem similarity_besides (hkept : KeepsPortraits kept) : Similarity (Besides kept) where
  contains id h hportrait := by
    rw [contains_eq_isSome, contains_eq_isSome]
    by_cases hid : id = ElementId.decoration
    · rw [hid, h.decoration]
    · rw [h.others id hportrait hid]
  hero h := h.others _ (by decide) (by decide)
  upsert id element h hportrait _ :=
    h.upsert (fun _ _ ↦ rfl) fun hid ↦ (hportrait hid).elim
  remove id h hportrait := by
    refine ⟨fun q hq hq' ↦ ?_, ?_, ?_⟩
    · rw [get?_remove, get?_remove, h.others q hq hq']
    · rw [get?_remove, get?_remove]
      split
      · rfl
      · exact h.decoration
    · rw [get?_remove, get?_remove, if_neg hportrait, if_neg hportrait]
      exact h.portrait
  setVisible id visible h :=
    h.modify (get?_setVisible _ id · visible) (get?_setVisible _ id · visible)
      (hkept.setVisible visible h.portrait)
  setPosition id x y h :=
    h.modify (get?_setPosition _ id · x y) (get?_setPosition _ id · x y)
      (hkept.setPosition x y h.portrait)
  rebuilt kind h :=
    h.upsert (fun hid _ ↦ (hid rfl).elim) fun _ ↦ hkept.redrawn kind h.portrait
  symbol raster h :=
    h.upsert (fun _ hid ↦ (hid rfl).elim) fun hid ↦ absurd hid (by decide)

end Scene

/-! ## A portrait settles -/

/-- As to this part of them, two portraits agree, or nothing has been done to either since they were
these two. -/
def Element.Settles {α : Type} (part : Element → α) (first first' now now' : Element) : Prop :=
  part now' = part now ∨ part now = part first ∧ part now' = part first'

/-- Each part of two portraits agrees, or is as it was at first. -/
structure Element.Settling (first first' now now' : Element) : Prop where
  look : Settles (fun element ↦ (element.kind, element.z)) first first' now now'
  place : Settles (fun element ↦ (element.x, element.y)) first first' now now'
  visible : Settles Element.visible first first' now now'

namespace Element.Settling

variable {first first' now now' : Element}

theorem refl (first first' : Element) : Settling first first' first first' :=
  ⟨.inr ⟨rfl, rfl⟩, .inr ⟨rfl, rfl⟩, .inr ⟨rfl, rfl⟩⟩

/-- What comes next is the same if the second of the two was where the first one is now. -/
theorem eq (h : Settling first now now now') : now' = now := by
  have hpart {α : Type} {part : Element → α} (hsettles : Settles part first now now now') :
      part now' = part now :=
    hsettles.elim id And.right
  have hlook := hpart h.look
  have hplace := hpart h.place
  have hvisible := hpart h.visible
  cases now
  cases now'
  simp_all

end Element.Settling

theorem Scene.keepsPortraits_settling (first first' : Element) :
    KeepsPortraits (Option.Rel (Element.Settling first first')) where
  redrawn kind h := by
    cases h with
    | some h => exact .some ⟨.inl rfl, h.place, h.visible⟩
    | none => exact .some ⟨.inl rfl, .inl rfl, .inl rfl⟩
  setVisible visible h := by
    cases h with
    | some h => exact .some ⟨h.look, h.place, .inl rfl⟩
    | none => exact .none
  setPosition x y h := by
    cases h with
    | some h => exact .some ⟨h.look, .inl rfl, h.visible⟩
    | none => exact .none

end DemoReel.Playback
