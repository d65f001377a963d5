import DemoReel.Playback.Step
import Mathlib.Algebra.GroupWithZero.Nat

/-!
# How long operations last

Every instruction is done in a tick that its fields and the width of the viewport determine, and a
block in the tick in which the last of its children is.  In that tick and not before, the outcome of
an instruction says so.
-/

namespace DemoReel

/-- The tick, counted from zero, in which the instruction is done on a viewport of this width. -/
def Instruction.lastTick (width : Nat) : Instruction → Nat
  | moveCamera _ _ frameCount => max frameCount.toNat 1 - 1
  | delay frameCount => max frameCount.toNat 1 - 1
  -- the first `t` for which `5 + 5 * t` pixels are as wide as the viewport
  | paintChat _ _ _ => (width - 1) / 5
  | paintHint _ => 20
  | showDecoSymbol _ blinkCount => 10 * blinkCount.toNat
  | screenBlink blinkCount _ => 10 * blinkCount.toNat
  | playerMove _ => 11
  | _ => 0

/-- The instruction leaves its frame to the next operation. -/
def Instruction.isInstant : Instruction → Bool
  | setDemoSprite _ _ => true
  | setBlockShort _ _ _ _ => true
  | setBlockLong _ _ _ => true
  | _ => false

theorem Instruction.chat_lastTick_le_iff {width t : Nat} :
    (width - 1) / 5 ≤ t ↔ width ≤ 5 + 5 * t := by
  omega

theorem Instruction.lastTick_lt (i : Instruction) {width : Nat} (hwidth : width ≤ 2 ^ 30) :
    i.lastTick width < 2 ^ 32 - 1 := by
  cases i with
  | moveCamera blockX blockY frameCount =>
    have hcount := frameCount.toNat_lt
    simp only [lastTick]
    omega
  | delay frameCount =>
    have hcount := frameCount.toNat_lt
    simp only [lastTick]
    omega
  | showDecoSymbol frameIndex blinkCount =>
    have hcount := blinkCount.toNat_lt
    simp only [lastTick]
    omega
  | screenBlink blinkCount color =>
    have hcount := blinkCount.toNat_lt
    simp only [lastTick]
    omega
  | _ =>
    simp only [lastTick]
    omega

namespace Operation

mutual

/-- The tick in which the operation is done; for a block the latest among its children. -/
def lastTick (width : Nat) : Operation → Nat
  | leaf instruction => instruction.lastTick width
  | block _ children => lastTickAll width children

def lastTickAll (width : Nat) : List Operation → Nat
  | [] => 0
  | op :: ops => max (lastTick width op) (lastTickAll width ops)

end

mutual

/-- The ticks of an operation fit their counter. -/
theorem lastTick_lt {width : Nat} (hwidth : width ≤ 2 ^ 30) :
    ∀ op : Operation, op.lastTick width < 2 ^ 32 - 1
  | leaf i => i.lastTick_lt hwidth
  | block _ children => lastTickAll_lt hwidth children

theorem lastTickAll_lt {width : Nat} (hwidth : width ≤ 2 ^ 30) :
    ∀ ops : List Operation, lastTickAll width ops < 2 ^ 32 - 1
  | [] => by
    rw [lastTickAll]
    decide
  | op :: ops => by
    have hop := lastTick_lt hwidth op
    have hops := lastTickAll_lt hwidth ops
    rw [lastTickAll]
    omega

end

mutual

/-- Some leaf at any depth leaves its frame to the next operation. -/
def hasInstantLeaf : Operation → Bool
  | leaf instruction => instruction.isInstant
  | block _ children => hasInstantLeafAny children

def hasInstantLeafAny : List Operation → Bool
  | [] => false
  | op :: ops => hasInstantLeaf op || hasInstantLeafAny ops

end

/-- The operation takes no frame of its own. -/
def isInstant (width : Nat) (op : Operation) : Bool :=
  decide (op.lastTick width = 0) && op.hasInstantLeaf

theorem lastTick_of_isInstant {width : Nat} {op : Operation} (h : op.isInstant width = true) :
    op.lastTick width = 0 :=
  of_decide_eq_true (Bool.and_eq_true_iff.1 h).1

/-- The number of frames that the operation takes. -/
def frames (width : Nat) (op : Operation) : Nat :=
  if op.isInstant width then 0 else op.lastTick width + 1

end Operation

namespace Playback

/-! ## Instructions -/

theorem toInt_toInt32 {n : UInt32} (h : n.toNat < 2 ^ 31) : n.toInt32.toInt = n.toNat :=
  BitVec.toInt_eq_toNat_of_lt (by
    have hn : n.toInt32.toBitVec.toNat = n.toNat := rfl
    omega)

/-- Chat text is past the viewport when it has moved as far as the viewport is wide; the arithmetic
is that of 32-bit words, and it does not wrap. -/
theorem chat_past_iff (corner : Int32) {t width : UInt32} (ht : t.toNat ≤ 2 ^ 28)
    (hwidth : width.toNat ≤ 2 ^ 30) :
    width.toInt32 ≤ corner + textMargin + t.toInt32 * chatSpeed - corner ↔
      width.toNat ≤ 5 + 5 * t.toNat := by
  have hmoved : corner + textMargin + t.toInt32 * chatSpeed - corner =
      textMargin + t.toInt32 * chatSpeed := by
    rw [Int32.add_assoc, Int32.add_comm, Int32.add_sub_cancel]
  have htInt : t.toInt32.toInt = t.toNat := toInt_toInt32 (by omega)
  have hwidthInt : width.toInt32.toInt = width.toNat := toInt_toInt32 (by omega)
  have hmargin : textMargin.toInt = 5 := by decide
  have hspeed : chatSpeed.toInt = 5 := by decide
  have hdistance : (t.toInt32 * chatSpeed).toInt = t.toNat * 5 := by
    rw [Int32.toInt_mul, htInt, hspeed, Int.bmod_eq_of_le] <;> omega
  have hsum : (textMargin + t.toInt32 * chatSpeed).toInt = 5 + t.toNat * 5 := by
    rw [Int32.toInt_add, hdistance, hmargin, Int.bmod_eq_of_le] <;> omega
  rw [hmoved, Int32.le_iff_toInt_le, hsum, hwidthInt]
  omega

/-- Blinks are over after ten ticks each. -/
theorem blinks_over_iff {blinkCount : UInt8} {t : UInt32} :
    blinkCount.toUInt32 * 2 * blinkInterval ≤ t ↔ 10 * blinkCount.toNat ≤ t.toNat := by
  have hcount := blinkCount.toNat_lt
  have htwo : (2 : UInt32).toNat = 2 := by decide
  have hinterval : blinkInterval.toNat = 5 := by decide
  rw [UInt32.le_iff_toNat_le, UInt32.toNat_mul, UInt32.toNat_mul, UInt8.toNat_toUInt32, htwo,
    hinterval]
  omega

/-- The outcome of an operation in a tick up to its last one. -/
structure Outcome.OnTime (outcome : Outcome) (t last : Nat) (hasInstantLeaf : Bool) : Prop where
  advance : outcome.advance = decide (t = last)
  consumesTick : outcome.consumesTick = !(decide (t = 0) && hasInstantLeaf)

theorem Outcome.onTime_ticking {t last : Nat} {past : Bool} (h : past = true ↔ last ≤ t)
    (ht : t ≤ last) : (Outcome.ticking past).OnTime t last false where
  advance := by
    rw [Bool.eq_iff_iff]
    simp only [ticking, h, decide_eq_true_eq]
    omega
  consumesTick := by simp [ticking]

theorem Outcome.onTime_instant {t : Nat} (ht : t ≤ 0) : Outcome.instant.OnTime t 0 true := by
  obtain rfl := Nat.le_zero.1 ht
  exact ⟨rfl, rfl⟩

theorem Outcome.onTime_done {t : Nat} (ht : t ≤ 0) : Outcome.done.OnTime t 0 false :=
  onTime_ticking (by simp) ht

namespace State

theorem setDemoSprite_eq_instant {s : State} {heroSprite backgroundAnim : UInt16}
    (h : (s.setDemoSprite heroSprite backgroundAnim).1.halt = none) :
    (s.setDemoSprite heroSprite backgroundAnim).1 = .instant := by
  unfold setDemoSprite at h ⊢
  dsimp only at h ⊢
  split at h
  · cases h
  · cases h
  · rfl

theorem setBlock_eq_instant {s : State} {x y : UInt16} {player : UInt8}
    {foreground : Option UInt8} (h : (s.setBlock x y player foreground).1.halt = none) :
    (s.setBlock x y player foreground).1 = .instant := by
  revert h
  unfold setBlock
  cases s.stage.setBlock x y player foreground with
  | none => exact fun _ ↦ rfl
  | some stage =>
    dsimp only
    split
    · exact nofun
    · exact fun _ ↦ rfl

theorem showDecoSymbol_eq_ticking {s : State} {t : UInt32} {frameIndex : UInt16}
    {blinkCount : UInt8} (h : (s.showDecoSymbol t frameIndex blinkCount).1.halt = none) :
    (s.showDecoSymbol t frameIndex blinkCount).1 =
      .ticking (decide (blinkCount.toUInt32 * 2 * blinkInterval ≤ t)) := by
  unfold showDecoSymbol at h ⊢
  dsimp only at h ⊢
  split
  · rfl
  · next hshown =>
    rw [if_neg hshown] at h
    split at h
    · cases h
    · rfl

end State

namespace Reel

theorem onTime_stepLeaf {i : Instruction} {path : OpPath} {r : Reel}
    (hwidth : r.state.config.viewportWidth.toNat ≤ 2 ^ 30)
    (ht : r.progress.tick.toNat ≤ i.lastTick r.state.config.viewportWidth.toNat)
    (hhalt : (stepLeaf i path r).1.halt = none) :
    (stepLeaf i path r).1.OnTime r.progress.tick.toNat
      (i.lastTick r.state.config.viewportWidth.toNat) i.isInstant := by
  cases i with
  | moveCamera blockX blockY frameCount =>
    apply Outcome.onTime_ticking _ ht
    rw [decide_eq_true_eq, Instruction.lastTick]
    omega
  | paintChat lineCount offsetY text =>
    apply Outcome.onTime_ticking _ ht
    rw [Instruction.lastTick] at ht ⊢
    rw [decide_eq_true_eq, Instruction.chat_lastTick_le_iff]
    exact chat_past_iff _ (by omega) hwidth
  | delay frameCount =>
    apply Outcome.onTime_ticking _ ht
    rw [decide_eq_true_eq, Instruction.lastTick]
    omega
  | playerMove direction =>
    apply Outcome.onTime_ticking _ ht
    have hone : (1 : UInt32).toNat = 1 := by decide
    have hwalk : walkTicks.toNat = 12 := by decide
    rw [Instruction.lastTick] at ht ⊢
    rw [decide_eq_true_eq, UInt32.le_iff_toNat_le, UInt32.toNat_add, hwalk, hone]
    omega
  | setDemoSprite heroSprite backgroundAnim =>
    have houtcome := State.setDemoSprite_eq_instant hhalt
    exact houtcome ▸ Outcome.onTime_instant ht
  | setPosAndShow x y => exact Outcome.onTime_done ht
  | hideDemoSprite => exact Outcome.onTime_done ht
  | showDecoSymbol frameIndex blinkCount =>
    have houtcome := State.showDecoSymbol_eq_ticking hhalt
    refine houtcome ▸ Outcome.onTime_ticking ?_ ht
    rw [decide_eq_true_eq]
    exact blinks_over_iff
  | hideDecoSymbol unused needHide => exact Outcome.onTime_done ht
  | screenBlink blinkCount color =>
    apply Outcome.onTime_ticking _ ht
    rw [decide_eq_true_eq]
    exact blinks_over_iff
  | setBlockShort blockX blockY blockId specialData =>
    have houtcome := State.setBlock_eq_instant hhalt
    exact houtcome ▸ Outcome.onTime_instant ht
  | setBlockLong blockX blockY blockId =>
    have houtcome := State.setBlock_eq_instant hhalt
    exact houtcome ▸ Outcome.onTime_instant ht
  | paintHint text =>
    apply Outcome.onTime_ticking _ ht
    have hhint : hintTicks.toNat = 20 := by decide
    rw [Instruction.lastTick, decide_eq_true_eq, UInt32.le_iff_toNat_le, hhint]
  | unknown opcode => cases hhalt

end Reel

end Playback

end DemoReel
