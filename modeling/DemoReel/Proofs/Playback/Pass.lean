import Mathlib.Algebra.GroupWithZero.Nat

/-!
# The frames of a pass

A demo goes through its top-level operations again and again.  How many frames each of them takes
says where the cursor stands after any number of frames: an operation that takes none is passed over
in the frame in which the next one is stepped.
-/

namespace DemoReel.Playback

/-- The cursor after the first `used` frames of a pass, at least one: inside the operation that the
last of them went to, or right behind it if that was its last frame. -/
def cursorAfter : (frames : List Nat) → (used : Nat) → Nat × Nat
  | [], _ => (0, 0)
  | f :: frames, used =>
    if used < f then (0, used)
    else if used = f then (1, 0)
    else
      let (index, tick) := cursorAfter frames (used - f)
      (index + 1, tick)

/-- The cursor after `n` ticks of passes with these frames.  Behind the last operation it is back at
the first one. -/
def cursorAt (frames : List Nat) (n : Nat) : Nat × Nat :=
  if n = 0 ∨ frames.sum = 0 then (0, 0)
  else
    let (index, tick) := cursorAfter frames ((n - 1) % frames.sum + 1)
    if index < frames.length then (index, tick) else (0, 0)

/-- The frames that the operations before this one take in a pass. -/
def framesBefore (frames : List Nat) (index : Nat) : Nat := (frames.take index).sum

/-- The operation stepped before the one at this position. -/
def previous (frames : List Nat) (index : Nat) : Nat :=
  if index = 0 then frames.length - 1 else index - 1

variable {frames : List Nat}

theorem framesBefore_succ (frames : List Nat) (index : Nat) :
    framesBefore frames (index + 1) = framesBefore frames index + frames.getD index 0 := by
  rw [framesBefore, List.take_add_one, List.sum_append, List.getD_eq_getElem?_getD]
  cases frames[index]? <;> simp [framesBefore]

theorem framesBefore_length (frames : List Nat) :
    framesBefore frames frames.length = frames.sum := by
  rw [framesBefore, List.take_length]

theorem framesBefore_cons_succ (f : Nat) (frames : List Nat) (index : Nat) :
    framesBefore (f :: frames) (index + 1) = f + framesBefore frames index := by
  simp [framesBefore]

theorem framesBefore_mono {i j : Nat} (h : i ≤ j) :
    framesBefore frames i ≤ framesBefore frames j := by
  induction h with
  | refl => exact Nat.le_refl _
  | step _ ih =>
    rw [framesBefore_succ]
    exact Nat.le_trans ih (Nat.le_add_right _ _)

theorem framesBefore_le_sum {index : Nat} (h : index ≤ frames.length) :
    framesBefore frames index ≤ frames.sum := by
  calc
    framesBefore frames index ≤ framesBefore frames frames.length := framesBefore_mono h
    _ = frames.sum := framesBefore_length frames

/-- Inside an operation, or right behind one that takes frames, the frames used say where. -/
theorem cursorAfter_framesBefore {index tick : Nat}
    (h : 0 < tick ∧ tick < frames.getD index 0 ∨
      tick = 0 ∧ 0 < index ∧ 0 < frames.getD (index - 1) 0) :
    cursorAfter frames (framesBefore frames index + tick) = (index, tick) := by
  induction frames generalizing index with
  | nil => simp at h
  | cons f frames ih =>
    cases index with
    | zero =>
      have htick : tick < f := by
        simp only [List.getD_cons_zero] at h
        omega
      rw [framesBefore, List.take_zero, List.sum_nil, Nat.zero_add, cursorAfter, if_pos htick]
    | succ index =>
      rw [framesBefore_cons_succ, cursorAfter, if_neg (by omega)]
      simp only [List.getD_cons_succ, Nat.add_sub_cancel] at h
      by_cases hlast : f + framesBefore frames index + tick = f
      · -- right behind the first operation
        rw [if_pos hlast]
        cases index with
        | zero => rw [show tick = 0 by omega]
        | succ index =>
          have hprevious := framesBefore_succ frames index
          simp only [List.getD_cons_succ] at h
          omega
      · have hused : f + framesBefore frames index + tick - f =
            framesBefore frames index + tick := by
          omega
        have hrest : 0 < tick ∧ tick < frames.getD index 0 ∨
            tick = 0 ∧ 0 < index ∧ 0 < frames.getD (index - 1) 0 := by
          cases index with
          | zero =>
            have hzero : framesBefore frames 0 = 0 := by simp [framesBefore]
            omega
          | succ index =>
            simp only [List.getD_cons_succ] at h
            simpa using h
        rw [if_neg hlast, hused, ih hrest]

theorem mod_add_one {n restarts used pass : Nat} (hcount : restarts * pass + used = n)
    (hpos : 0 < used) (hle : used ≤ pass) : (n - 1) % pass + 1 = used := by
  have hn : n - 1 = used - 1 + restarts * pass := by omega
  calc
    (n - 1) % pass + 1 = (used - 1) % pass + 1 := by rw [hn, Nat.add_mul_mod_self_right]
    _ = used - 1 + 1 := by rw [Nat.mod_eq_of_lt (by omega)]
    _ = used := Nat.sub_add_cancel hpos

/-- After `n` ticks the demo has started over so many times and the cursor is at this place.  The
last frame went to the operation under the cursor, or to the one stepped before it. -/
structure Placed (frames : List Nat) (n restarts index tick : Nat) : Prop where
  inside : index < frames.length
  tick_lt : tick = 0 ∨ tick < frames.getD index 0
  count : restarts * frames.sum + framesBefore frames index + tick = n
  lastFrame : n = 0 ∧ index = 0 ∧ tick = 0 ∨ 0 < tick ∨ 0 < frames.getD (previous frames index) 0

namespace Placed

variable {n restarts index tick : Nat}

theorem zero (h : 0 < frames.length) : Placed frames 0 0 0 0 :=
  ⟨h, .inl rfl, by simp [framesBefore], .inl ⟨rfl, rfl, rfl⟩⟩

/-- The frames used in this pass are at most all of them. -/
theorem used_le (h : Placed frames n restarts index tick) :
    framesBefore frames index + tick ≤ frames.sum := by
  have hnext := framesBefore_succ frames index
  have hle : framesBefore frames (index + 1) ≤ frames.sum := framesBefore_le_sum h.inside
  have htick := h.tick_lt
  omega

/-- With frames left for the last operation, not all frames of this pass are used. -/
theorem used_lt (h : Placed frames n restarts index tick)
    (hlast : 0 < frames.getD (frames.length - 1) 0) :
    framesBefore frames index + tick < frames.sum := by
  have hinside := h.inside
  have hle : framesBefore frames index ≤ framesBefore frames (frames.length - 1) :=
    framesBefore_mono (by omega)
  have htotal := framesBefore_succ frames (frames.length - 1)
  rw [show frames.length - 1 + 1 = frames.length by omega, framesBefore_length] at htotal
  obtain htick | htick := h.tick_lt
  · omega
  · have hnext := framesBefore_succ frames index
    have hnextLe : framesBefore frames (index + 1) ≤ frames.sum := framesBefore_le_sum hinside
    omega

/-- Away from the start some frame of this pass is used. -/
theorem used_pos (h : Placed frames n restarts index tick) (hplace : ¬(index = 0 ∧ tick = 0)) :
    0 < framesBefore frames index + tick := by
  obtain ⟨-, hindex, htick⟩ | htick | hprevious := h.lastFrame
  · exact (hplace ⟨hindex, htick⟩).elim
  · omega
  · by_cases hindex : index = 0
    · omega
    · have hbefore := framesBefore_succ frames (index - 1)
      rw [show index - 1 + 1 = index by omega] at hbefore
      rw [previous, if_neg hindex] at hprevious
      omega

/-- At the start of a later pass the last operation took the frame before. -/
theorem last_pos (h : Placed frames n restarts 0 0) (hn : 0 < n) :
    0 < frames.getD (frames.length - 1) 0 := by
  have hlast := h.lastFrame
  rw [previous, if_pos rfl] at hlast
  omega

theorem cursorAt_eq (h : Placed frames n restarts index tick) (hsum : 0 < frames.sum) :
    cursorAt frames n = (index, tick) := by
  have hcount := h.count
  by_cases hplace : index = 0 ∧ tick = 0
  · obtain ⟨rfl, rfl⟩ := hplace
    by_cases hn : n = 0
    · rw [cursorAt, if_pos (.inl hn)]
    · have hlast := h.last_pos (Nat.pos_of_ne_zero hn)
      have hzero : framesBefore frames 0 = 0 := by simp [framesBefore]
      have hrestarts : restarts ≠ 0 := by
        rintro rfl
        omega
      obtain ⟨passed, rfl⟩ := Nat.exists_eq_add_one_of_ne_zero hrestarts
      have hcount' : passed * frames.sum + frames.sum = n := by
        rw [Nat.succ_mul] at hcount
        omega
      have hmod : (n - 1) % frames.sum + 1 = framesBefore frames frames.length + 0 := by
        rw [framesBefore_length]
        exact mod_add_one hcount' hsum (Nat.le_refl _)
      rw [cursorAt, if_neg (by omega), hmod,
        cursorAfter_framesBefore (.inr ⟨rfl, h.inside, hlast⟩)]
      simp
  · have hpos := h.used_pos hplace
    have hle := h.used_le
    have hcount' : restarts * frames.sum + (framesBefore frames index + tick) = n := by omega
    have hmod := mod_add_one hcount' hpos hle
    have hin : 0 < tick ∧ tick < frames.getD index 0 ∨
        tick = 0 ∧ 0 < index ∧ 0 < frames.getD (index - 1) 0 := by
      have hlastFrame := h.lastFrame
      obtain rfl | htick := h.tick_lt
      · have hindex : index ≠ 0 := fun hindex ↦ hplace ⟨hindex, rfl⟩
        rw [previous, if_neg hindex] at hlastFrame
        omega
      · by_cases hzero : tick = 0
        · have hindex : index ≠ 0 := fun hindex ↦ hplace ⟨hindex, hzero⟩
          rw [previous, if_neg hindex] at hlastFrame
          omega
        · omega
    rw [cursorAt, if_neg (by omega), hmod, cursorAfter_framesBefore hin]
    simp [h.inside]

/-- Once it has begun, the cursor is at the same place of the next pass when as many frames are used
as a pass takes. -/
theorem next_pass {restarts' index' tick' : Nat} (h : Placed frames n restarts index tick)
    (h' : Placed frames (n + frames.sum) restarts' index' tick') (hn : 0 < n)
    (hsum : 0 < frames.sum) : index' = index ∧ tick' = tick ∧ restarts' = restarts + 1 := by
  have hcursor : cursorAt frames (n + frames.sum) = cursorAt frames n := by
    have hback : n + frames.sum - 1 = n - 1 + frames.sum := by omega
    rw [cursorAt, cursorAt, if_neg (by omega), if_neg (by omega), hback, Nat.add_mod_right]
  rw [h.cursorAt_eq hsum, h'.cursorAt_eq hsum, Prod.mk.injEq] at hcursor
  obtain ⟨rfl, rfl⟩ := hcursor
  have hcount := h.count
  have hcount' := h'.count
  refine ⟨rfl, rfl, Nat.eq_of_mul_eq_mul_right hsum ?_⟩
  rw [Nat.add_mul]
  omega

/-- The demo has started over `k` times once all frames of `k` passes are used, or one tick later if
the last operation takes no frame. -/
theorem le_restarts_iff (h : Placed frames n restarts index tick) (hsum : 0 < frames.sum) {k : Nat}
    (hk : 0 < k) :
    k ≤ restarts ↔
      k * frames.sum + (if frames.getD (frames.length - 1) 0 = 0 then 1 else 0) ≤ n := by
  have hcount := h.count
  constructor
  · intro hle
    have hmul := Nat.mul_le_mul_right frames.sum hle
    split
    · next hlast =>
      -- the restart after all these frames waits for the next tick
      have hused : 0 < framesBefore frames index + tick := by
        apply h.used_pos
        rintro ⟨rfl, rfl⟩
        have hpass : 0 < k * frames.sum := Nat.mul_pos hk hsum
        exact Nat.ne_of_gt (h.last_pos (by omega)) hlast
      omega
    · omega
  · intro hle
    apply Nat.le_of_not_lt
    intro hlt
    have hmul := Nat.mul_le_mul_right frames.sum (Nat.succ_le_of_lt hlt)
    rw [Nat.succ_mul] at hmul
    split at hle
    · have hused := h.used_le
      omega
    · next hlast =>
      have hused := h.used_lt (Nat.pos_of_ne_zero hlast)
      omega

end Placed

/-! ## The next operation that takes a frame -/

/-- The position behind this one, and behind the last one the first. -/
def following (frames : List Nat) (index : Nat) : Nat :=
  if index + 1 < frames.length then index + 1 else 0

/-- From this position on, one of the next `budget` operations takes a frame. -/
def FrameWithin (frames : List Nat) (index budget : Nat) : Prop :=
  ∃ j, j < frames.length ∧ 0 < frames.getD j 0 ∧
    (index ≤ j ∧ j < index + budget ∨ j < index ∧ frames.length + j < index + budget)

theorem previous_following {index : Nat} (h : index < frames.length) :
    previous frames (following frames index) = index := by
  unfold following previous
  split
  · rw [if_neg (Nat.succ_ne_zero index), Nat.add_sub_cancel]
  · rw [if_pos rfl]
    omega

theorem not_frameWithin_zero {index : Nat} (h : index < frames.length) :
    ¬FrameWithin frames index 0 := by
  rintro ⟨j, hj, -, hwithin⟩
  omega

/-- Passing over an operation that takes no frame. -/
theorem FrameWithin.following {index budget : Nat} (h : FrameWithin frames index (budget + 1))
    (hindex : index < frames.length) (hzero : frames.getD index 0 = 0) :
    FrameWithin frames (following frames index) budget := by
  obtain ⟨j, hj, hpos, hwithin⟩ := h
  have hne : j ≠ index := by
    rintro rfl
    omega
  refine ⟨j, hj, hpos, ?_⟩
  unfold Playback.following
  split <;> omega

/-- If frames are taken at all, all operations together include one that takes them. -/
theorem frameWithin_length {index : Nat} (hsum : 0 < frames.sum) :
    FrameWithin frames index frames.length := by
  obtain ⟨f, hmem, hpos⟩ := List.sum_pos_iff_exists_pos_nat.1 hsum
  obtain ⟨j, hj, rfl⟩ := List.getElem_of_mem hmem
  refine ⟨j, hj, ?_, by omega⟩
  rwa [List.getD_eq_getElem?_getD, List.getElem?_eq_getElem hj]

end DemoReel.Playback
