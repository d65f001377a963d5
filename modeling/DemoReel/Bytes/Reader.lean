import DemoReel.Bytes.LittleEndian
import DemoReel.DecodeError

/-!
# Reading a byte string from front to back

A reader is the part still unread, together with the absolute offset of its first byte.  A read
that fails says where and leaves no new reader, so the caller still holds the old one.
-/

namespace DemoReel

structure ByteReader where
  offset : Nat
  rest : List UInt8
deriving DecidableEq, Repr

/-- A computation that takes bytes off the front of a reader. -/
abbrev Reading (α : Type) := StateT ByteReader (Except DecodeError) α

namespace ByteReader

/-- A reader whose first byte has the absolute offset `base`. -/
def ofBytes (base : Nat) (bytes : List UInt8) : ByteReader := ⟨base, bytes⟩

def remaining (r : ByteReader) : Nat := r.rest.length

def isEmpty (r : ByteReader) : Bool := r.rest.isEmpty

def take (n : Nat) : Reading (List UInt8) := fun r ↦
  let taken := r.rest.take n
  if taken.length = n then .ok (taken, ⟨r.offset + n, r.rest.drop n⟩)
  else .error (.outOfRange r.offset n r.remaining)

def u8 : Reading UInt8 := do return .ofNat (LittleEndian.value (← take 1))

def u16 : Reading UInt16 := do return .ofNat (LittleEndian.value (← take 2))

def u32 : Reading UInt32 := do return .ofNat (LittleEndian.value (← take 4))

/-- A text field of `n` bytes.  Where `strict` is off, ill-formed stretches are replaced. -/
def text (n : Nat) (strict : Bool) : Reading String := do
  let start := (← get).offset
  let bytes ← take n
  match Utf8.decode bytes with
  | .ok text => return text
  | .error fault =>
    if strict then throw (.malformedText start fault) else return Utf8.decodeLossy bytes

end ByteReader

/-- A relation between reads that holds of taking bytes and that sequencing keeps. -/
structure Reading.Congruence (related : (α : Type) → Reading α → Reading α → Prop) : Prop where
  pure {α : Type} (a : α) : related α (Pure.pure a) (Pure.pure a)
  bind {α β : Type} {p p' : Reading α} {f f' : α → Reading β} : related α p p' →
    (∀ a, related β (f a) (f' a)) → related β (p >>= f) (p' >>= f')
  take (n : Nat) : related (List UInt8) (ByteReader.take n) (ByteReader.take n)

namespace Reading.Congruence

variable {related : (α : Type) → Reading α → Reading α → Prop} (h : Reading.Congruence related)
include h

theorem u8 : related UInt8 ByteReader.u8 ByteReader.u8 := h.bind (h.take 1) fun _ ↦ h.pure _

theorem u16 : related UInt16 ByteReader.u16 ByteReader.u16 := h.bind (h.take 2) fun _ ↦ h.pure _

theorem u32 : related UInt32 ByteReader.u32 ByteReader.u32 := h.bind (h.take 4) fun _ ↦ h.pure _

end Reading.Congruence

/-- Bytes are only ever taken off the front. -/
def Reading.Shrinks {α : Type} (p : Reading α) : Prop :=
  ∀ ⦃r a r'⦄, p r = .ok (a, r') → r'.remaining ≤ r.remaining

namespace Reading.Shrinks

theorem pure {α : Type} (a : α) : Reading.Shrinks (Pure.pure a) := by
  intro r b r' h
  cases h
  exact Nat.le_refl _

theorem throw {α : Type} (e : DecodeError) : Reading.Shrinks (α := α) (MonadExcept.throw e) := by
  intro r b r' h
  cases h

theorem get : Reading.Shrinks MonadState.get := by
  intro r b r' h
  cases h
  exact Nat.le_refl _

theorem bind {α β : Type} {p : Reading α} {f : α → Reading β} (hp : p.Shrinks)
    (hf : ∀ a, (f a).Shrinks) : Reading.Shrinks (p >>= f) := by
  intro r b r' h
  change (p r >>= fun s ↦ f s.1 s.2) = _ at h
  cases hr : p r with
  | error e => rw [hr] at h; cases h
  | ok s =>
    rw [hr] at h
    exact Nat.le_trans (hf _ h) (hp hr)

end Reading.Shrinks

namespace ByteReader

theorem take_eq_ok_iff {n : Nat} {r r' : ByteReader} {bytes : List UInt8} :
    take n r = .ok (bytes, r') ↔
      r.rest = bytes ++ r'.rest ∧ bytes.length = n ∧ r'.offset = r.offset + n := by
  unfold take
  constructor
  · intro h
    by_cases hlen : (r.rest.take n).length = n
    · rw [if_pos hlen] at h
      cases h
      exact ⟨(List.take_append_drop n r.rest).symm, hlen, rfl⟩
    · rw [if_neg hlen] at h
      cases h
  · rintro ⟨hrest, rfl, hoffset⟩
    have htake : r.rest.take bytes.length = bytes := by rw [hrest]; simp
    have hdrop : r.rest.drop bytes.length = r'.rest := by rw [hrest]; simp
    simp only [htake, if_true, hdrop, ← hoffset]

theorem shrinks_take (n : Nat) : (take n).Shrinks := by
  intro r bytes r' h
  have hrest := (take_eq_ok_iff.1 h).1
  simp [remaining, hrest]

theorem congruence_shrinks : Reading.Congruence fun _ p _ ↦ p.Shrinks where
  pure a := .pure a
  bind hp hf := .bind hp hf
  take n := shrinks_take n

theorem shrinks_text (n : Nat) (strict : Bool) : (text n strict).Shrinks := by
  refine .bind .get fun start ↦ .bind (shrinks_take n) fun bytes ↦ ?_
  cases Utf8.decode bytes with
  | ok text => exact .pure _
  | error fault =>
    cases strict with
    | true => exact .throw _
    | false => exact .pure _

/-- A byte read is a byte less to read. -/
theorem remaining_of_u8 {r r' : ByteReader} {b : UInt8} (h : u8 r = .ok (b, r')) :
    r'.remaining < r.remaining := by
  change (take 1 r >>= fun s ↦ .ok (UInt8.ofNat (LittleEndian.value s.1), s.2)) = _ at h
  cases ht : take 1 r with
  | error e => rw [ht] at h; cases h
  | ok s =>
    rw [ht] at h
    cases h
    obtain ⟨hrest, hlen, -⟩ := take_eq_ok_iff.1 ht
    simp only [remaining, hrest, List.length_append, hlen]
    omega

end ByteReader

end DemoReel
