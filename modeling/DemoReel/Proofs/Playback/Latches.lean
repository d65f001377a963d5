import DemoReel.Playback.Step

/-!
# Latches along the paths of a forest

The children of a block are latched at their own paths, below the path of the block.  What happens
to a child is therefore seen at and below its path only, and siblings do not disturb one another.
-/

namespace DemoReel.Playback

namespace OpPath

/-- The path leads to a child at this position or a later one, or to something below such a
child. -/
def FromChild (path : OpPath) (index : Nat) (q : OpPath) : Prop :=
  ∃ j, index ≤ j ∧ path.child j <+: q

theorem child_injective {path q : OpPath} {i j : Nat} (hi : path.child i <+: q)
    (hj : path.child j <+: q) : i = j := by
  have hlength : (path.child i).length = (path.child j).length := by simp [child]
  have heq := List.append_inj_right (List.IsPrefix.eq_of_length
    (List.prefix_of_prefix_length_le hi hj (Nat.le_of_eq hlength)) hlength) rfl
  exact List.singleton_inj.1 heq

theorem isWithin_self (path : OpPath) : path.isWithin path = false := by
  rw [← Bool.not_eq_true, isWithin_iff]
  exact fun h ↦ h.2 rfl

theorem child_le_of_isWithin {path q : OpPath} {i : Nat} (h : q.isWithin (path.child i) = true) :
    path.child i <+: q :=
  (isWithin_iff.1 h).1

theorem isWithin_iff_fromChild {path q : OpPath} : q.isWithin path = true ↔ path.FromChild 0 q := by
  rw [isWithin_iff]
  constructor
  · rintro ⟨⟨rest, rfl⟩, hne⟩
    cases rest with
    | nil => exact (hne (List.append_nil path)).elim
    | cons j rest => exact ⟨j, Nat.zero_le j, rest, by simp [child]⟩
  · rintro ⟨j, -, rest, rfl⟩
    refine ⟨⟨j :: rest, by simp [child]⟩, fun heq ↦ ?_⟩
    have hlength := congrArg List.length heq
    simp only [child, List.length_append, List.length_singleton] at hlength
    omega

theorem FromChild.mono {path q : OpPath} {i j : Nat} (h : path.FromChild j q) (hij : i ≤ j) :
    path.FromChild i q :=
  h.imp fun _ hk ↦ ⟨Nat.le_trans hij hk.1, hk.2⟩

theorem FromChild.below {path q : OpPath} {i : Nat} (h : path.FromChild i q) : path <+: q := by
  obtain ⟨j, -, rest, rfl⟩ := h
  exact ⟨j :: rest, by simp [child]⟩

theorem fromChild_child (path : OpPath) (index : Nat) :
    path.FromChild index (path.child index) :=
  ⟨index, Nat.le_refl index, List.prefix_refl _⟩

theorem not_fromChild_succ {path q : OpPath} {index : Nat} (h : path.child index <+: q) :
    ¬path.FromChild (index + 1) q := by
  rintro ⟨j, hj, hq⟩
  have := child_injective h hq
  omega

end OpPath

namespace Progress

theorem isLatched_start (q : OpPath) : start.isLatched q = false := by
  simp [isLatched, start]

theorem isLatched_latch (p : Progress) (path q : OpPath) :
    (p.latch path).isLatched q = (decide (path = q) || p.isLatched q) := by
  simp [isLatched, latch, Std.ExtTreeSet.contains_insert, Bool.beq_eq_decide_eq]

/-- Clearing a block forgets nothing outside of it. -/
theorem isLatched_clearWithin {p : Progress} {block q : OpPath} (h : q.isWithin block = false) :
    (p.clearWithin block).isLatched q = p.isLatched q := by
  rw [Bool.eq_iff_iff]
  simp [isLatched, clearWithin, Std.ExtTreeSet.mem_filter, h]

/-- Of what lies below it, clearing a block leaves neither a latch nor the origin of a pan. -/
theorem clearWithin_of_isWithin {p : Progress} {block q : OpPath} (h : q.isWithin block = true) :
    (p.clearWithin block).isLatched q = false ∧ (p.clearWithin block).panOrigin? q = none := by
  constructor
  · rw [← Bool.not_eq_true]
    simp [isLatched, clearWithin, Std.ExtTreeSet.mem_filter, h]
  · simp [panOrigin?, clearWithin, h]

end Progress

end DemoReel.Playback
