import DemoReel.Bytes.Reader
import Mathlib.Algebra.GroupWithZero.Nat

/-!
# Reading a field and writing it

A fixed-width field is read exactly where its little-endian bytes stand at the front of the reader.
Reading several fields one after another takes the concatenation of their bytes, so the statements
compose along the sequence of reads.
-/

namespace DemoReel

namespace LittleEndian

@[simp] theorem length_bytes (width n : Nat) : (bytes width n).length = width := by
  induction width generalizing n with
  | zero => rfl
  | succ width ih => simp [bytes, ih]

theorem value_bytes (width n : Nat) : value (bytes width n) = n % 256 ^ width := by
  induction width generalizing n with
  | zero => simp [bytes, value, Nat.mod_one]
  | succ width ih =>
    rw [bytes, value, ih, Nat.pow_succ, Nat.mul_comm _ 256, Nat.mod_mul]
    simp

theorem bytes_value (bs : List UInt8) : bytes bs.length (value bs) = bs := by
  induction bs with
  | nil => rfl
  | cons b bs ih =>
    have hb := b.toNat_lt
    have hhigh : (b.toNat + 256 * value bs) / 256 = value bs := by omega
    have hlow : UInt8.ofNat (b.toNat + 256 * value bs) = b := by
      rw [← UInt8.toNat_inj, UInt8.toNat_ofNat']
      omega
    rw [List.length_cons, value, bytes, hhigh, hlow, ih]

theorem value_lt (bs : List UInt8) : value bs < 256 ^ bs.length := by
  induction bs with
  | nil => simp [value]
  | cons b bs ih =>
    have hb := b.toNat_lt
    rw [value, List.length_cons, Nat.pow_succ]
    omega

@[simp] theorem length_u16 (n : UInt16) : (u16 n).length = 2 := length_bytes 2 n.toNat

@[simp] theorem length_u32 (n : UInt32) : (u32 n).length = 4 := length_bytes 4 n.toNat

theorem u8_eq_iff {bs : List UInt8} (h : bs.length = 1) (n : UInt8) :
    bs = u8 n ↔ UInt8.ofNat (value bs) = n := by
  obtain ⟨b, rfl⟩ := List.length_eq_one_iff.1 h
  simp [u8, value]

theorem u16_eq_iff {bs : List UInt8} (h : bs.length = 2) (n : UInt16) :
    bs = u16 n ↔ UInt16.ofNat (value bs) = n := by
  have hlt := value_lt bs
  rw [h] at hlt
  constructor
  · rintro rfl
    rw [u16, value_bytes, ← UInt16.toNat_inj, UInt16.toNat_ofNat']
    have := n.toNat_lt
    omega
  · rintro rfl
    rw [u16, UInt16.toNat_ofNat', Nat.mod_eq_of_lt (by omega), ← h, bytes_value]

theorem u32_eq_iff {bs : List UInt8} (h : bs.length = 4) (n : UInt32) :
    bs = u32 n ↔ UInt32.ofNat (value bs) = n := by
  have hlt := value_lt bs
  rw [h] at hlt
  constructor
  · rintro rfl
    rw [u32, value_bytes, ← UInt32.toNat_inj, UInt32.toNat_ofNat']
    have := n.toNat_lt
    omega
  · rintro rfl
    rw [u32, UInt32.toNat_ofNat', Nat.mod_eq_of_lt (by omega), ← h, bytes_value]

theorem u16_injective {m n : UInt16} (h : u16 m = u16 n) : m = n :=
  ((u16_eq_iff (length_u16 m) m).1 rfl).symm.trans ((u16_eq_iff (length_u16 m) n).1 h)

theorem u32_injective {m n : UInt32} (h : u32 m = u32 n) : m = n :=
  ((u32_eq_iff (length_u32 m) m).1 rfl).symm.trans ((u32_eq_iff (length_u32 m) n).1 h)

end LittleEndian

/-- Byte strings that start with fields of one width have the same field at the front. -/
theorem append_prefix_append {front front' more more' : List UInt8}
    (hlength : front.length = front'.length) (h : front ++ more <+: front' ++ more') :
    front = front' ∧ more <+: more' := by
  obtain ⟨tail, htail⟩ := h
  rw [List.append_assoc] at htail
  obtain ⟨hfront, hmore⟩ := List.append_inj htail hlength
  exact ⟨hfront, tail, hmore⟩

/-- A computation succeeds as its first part does and then the rest. -/
theorem bind_eq_ok_iff {ε α β : Type} {x : Except ε α} {f : α → Except ε β} {b : β} :
    x >>= f = .ok b ↔ ∃ a, x = .ok a ∧ f a = .ok b := by
  cases x with
  | error e => simp [bind, Except.bind]
  | ok a => simp [bind, Except.bind]

theorem map_eq_ok_iff {ε α β : Type} {x : Except ε α} {f : α → β} {b : β} :
    x.map f = .ok b ↔ ∃ a, x = .ok a ∧ f a = b := by
  cases x with
  | error e => simp [Except.map]
  | ok a => simp [Except.map]

/-- A computation fails as its first part does or else as the rest does. -/
theorem bind_eq_error_iff {ε α β : Type} {x : Except ε α} {f : α → Except ε β} {e : ε} :
    x >>= f = .error e ↔ x = .error e ∨ ∃ a, x = .ok a ∧ f a = .error e := by
  cases x with
  | error e' => simp [bind, Except.bind]
  | ok a => simp [bind, Except.bind]

theorem map_eq_error_iff {ε α β : Type} {x : Except ε α} {f : α → β} {e : ε} :
    x.map f = .error e ↔ x = .error e := by
  cases x with
  | error e' => simp [Except.map]
  | ok a => simp [Except.map]

namespace Reading

theorem pure_eq_ok_iff {α : Type} {a b : α} {r r' : ByteReader} :
    (Pure.pure a : Reading α) r = .ok (b, r') ↔ a = b ∧ r = r' := by
  change Except.ok (a, r) = .ok (b, r') ↔ _
  simp

theorem bind_eq_ok_iff {α β : Type} {p : Reading α} {f : α → Reading β} {r r' : ByteReader}
    {b : β} :
    (p >>= f) r = .ok (b, r') ↔ ∃ a s, p r = .ok (a, s) ∧ f a s = .ok (b, r') := by
  change (p r >>= fun s ↦ f s.1 s.2) = _ ↔ _
  rw [DemoReel.bind_eq_ok_iff, Prod.exists]

end Reading

namespace ByteReader

/-- Taking these bytes off the front of `r` leaves `r'`. -/
def Takes (r : ByteReader) (bytes : List UInt8) (r' : ByteReader) : Prop :=
  r.rest = bytes ++ r'.rest ∧ r'.offset = r.offset + bytes.length

@[simp] theorem takes_nil {r r' : ByteReader} : r.Takes [] r' ↔ r = r' := by
  obtain ⟨offset, rest⟩ := r
  obtain ⟨offset', rest'⟩ := r'
  simp [Takes, eq_comm, and_comm]

theorem takes_append {r r' : ByteReader} {bytes more : List UInt8} :
    r.Takes (bytes ++ more) r' ↔ ∃ s, r.Takes bytes s ∧ s.Takes more r' := by
  constructor
  · rintro ⟨hrest, hoffset⟩
    refine ⟨⟨r.offset + bytes.length, more ++ r'.rest⟩, ⟨?_, rfl⟩, rfl, ?_⟩
    · rw [hrest, List.append_assoc]
    · rw [hoffset, List.length_append, Nat.add_assoc]
  · rintro ⟨s, ⟨hrest, hoffset⟩, hrest', hoffset'⟩
    refine ⟨?_, ?_⟩
    · rw [hrest, hrest', List.append_assoc]
    · rw [hoffset', hoffset, List.length_append, Nat.add_assoc]

theorem Takes.append {r s r' : ByteReader} {bytes more : List UInt8} (h : r.Takes bytes s)
    (h' : s.Takes more r') : r.Takes (bytes ++ more) r' :=
  takes_append.2 ⟨s, h, h'⟩

theorem takes_cons {r r' : ByteReader} {b : UInt8} {more : List UInt8} :
    r.Takes (b :: more) r' ↔ ∃ s, r.Takes (LittleEndian.u8 b) s ∧ s.Takes more r' := by
  rw [← List.singleton_append, takes_append]
  rfl

theorem Takes.remaining_eq {r s : ByteReader} {bytes : List UInt8} (h : r.Takes bytes s) :
    r.remaining = bytes.length + s.remaining := by
  rw [remaining, h.1, List.length_append, remaining]

/-- What stands at the front of a reader can be taken. -/
theorem exists_takes {r : ByteReader} {bytes more : List UInt8} (h : r.rest = bytes ++ more) :
    ∃ r', r'.rest = more ∧ r.Takes bytes r' :=
  ⟨⟨r.offset + bytes.length, more⟩, rfl, h, rfl⟩

theorem exists_takes_iff_prefix {r : ByteReader} {bytes : List UInt8} :
    (∃ r', r.Takes bytes r') ↔ bytes <+: r.rest := by
  constructor
  · rintro ⟨r', hrest, -⟩
    exact ⟨r'.rest, hrest.symm⟩
  · rintro ⟨more, hrest⟩
    obtain ⟨r', -, htakes⟩ := exists_takes hrest.symm
    exact ⟨r', htakes⟩

theorem take_eq_ok_iff_takes {n : Nat} {r r' : ByteReader} {bytes : List UInt8} :
    take n r = .ok (bytes, r') ↔ bytes.length = n ∧ r.Takes bytes r' := by
  rw [take_eq_ok_iff]
  constructor
  · rintro ⟨hrest, rfl, hoffset⟩
    exact ⟨rfl, hrest, hoffset⟩
  · rintro ⟨rfl, hrest, hoffset⟩
    exact ⟨hrest, rfl, hoffset⟩

/-- A number made of the next bytes is read exactly where its own bytes stand. -/
theorem number_eq_ok_iff {α : Type} {width : Nat} {ofBytes : List UInt8 → α}
    (toBytes : α → List UInt8) (hlength : ∀ a, (toBytes a).length = width)
    (hiff : ∀ {bytes : List UInt8}, bytes.length = width →
      ∀ a, bytes = toBytes a ↔ ofBytes bytes = a)
    {r r' : ByteReader} {a : α} :
    (take width >>= fun bytes ↦ Pure.pure (ofBytes bytes)) r = .ok (a, r') ↔
      r.Takes (toBytes a) r' := by
  simp only [Reading.bind_eq_ok_iff, Reading.pure_eq_ok_iff, take_eq_ok_iff_takes]
  constructor
  · rintro ⟨bytes, s, ⟨hbytes, htakes⟩, hvalue, rfl⟩
    rwa [← (hiff hbytes a).2 hvalue]
  · intro htakes
    exact ⟨toBytes a, r', ⟨hlength a, htakes⟩, (hiff (hlength a) a).1 rfl, rfl⟩

theorem u8_eq_ok_iff {r r' : ByteReader} {n : UInt8} :
    u8 r = .ok (n, r') ↔ r.Takes (LittleEndian.u8 n) r' :=
  number_eq_ok_iff LittleEndian.u8 (fun _ ↦ rfl) LittleEndian.u8_eq_iff

theorem u16_eq_ok_iff {r r' : ByteReader} {n : UInt16} :
    u16 r = .ok (n, r') ↔ r.Takes (LittleEndian.u16 n) r' :=
  number_eq_ok_iff LittleEndian.u16 LittleEndian.length_u16 LittleEndian.u16_eq_iff

theorem u32_eq_ok_iff {r r' : ByteReader} {n : UInt32} :
    u32 r = .ok (n, r') ↔ r.Takes (LittleEndian.u32 n) r' :=
  number_eq_ok_iff LittleEndian.u32 LittleEndian.length_u32 LittleEndian.u32_eq_iff

/-! ## Text -/

/-- Text is the one read whose error names an offset that was looked up before. -/
theorem text_apply (n : Nat) (strict : Bool) (r : ByteReader) :
    text n strict r = take n r >>= fun s ↦
      match Utf8.decode s.1 with
      | .ok text => .ok (text, s.2)
      | .error fault =>
        if strict then .error (.malformedText r.offset fault)
        else .ok (Utf8.decodeLossy s.1, s.2) := by
  change (take n r >>= fun s ↦ _) = _
  refine bind_congr fun s ↦ ?_
  cases Utf8.decode s.1 with
  | ok text => rfl
  | error fault => cases strict <;> rfl

theorem text_eq_ok_iff {n : Nat} {strict : Bool} {r r' : ByteReader} {text : String} :
    ByteReader.text n strict r = .ok (text, r') ↔
      ∃ bytes, bytes.length = n ∧ r.Takes bytes r' ∧
        (Utf8.decode bytes = .ok text ∨
          strict = false ∧ (∃ fault, Utf8.decode bytes = .error fault) ∧
            text = Utf8.decodeLossy bytes) := by
  have hget : (MonadState.get : Reading ByteReader) r = .ok (r, r) := rfl
  unfold ByteReader.text
  rw [Reading.bind_eq_ok_iff]
  simp only [Reading.bind_eq_ok_iff, take_eq_ok_iff_takes, hget, Except.ok.injEq, Prod.mk.injEq]
  constructor
  · rintro ⟨_, _, ⟨rfl, rfl⟩, bytes, s, ⟨hlength, htakes⟩, htext⟩
    cases hdecode : Utf8.decode bytes with
    | ok text =>
      rw [hdecode, Reading.pure_eq_ok_iff] at htext
      obtain ⟨rfl, rfl⟩ := htext
      exact ⟨bytes, hlength, htakes, .inl hdecode⟩
    | error fault =>
      rw [hdecode] at htext
      cases strict with
      | true => cases htext
      | false =>
        obtain ⟨rfl, rfl⟩ := Reading.pure_eq_ok_iff.1 htext
        exact ⟨bytes, hlength, htakes, .inr ⟨rfl, ⟨fault, hdecode⟩, rfl⟩⟩
  · rintro ⟨bytes, hlength, htakes, htext⟩
    refine ⟨r, r, ⟨rfl, rfl⟩, bytes, r', ⟨hlength, htakes⟩, ?_⟩
    obtain htext | ⟨rfl, ⟨fault, hdecode⟩, rfl⟩ := htext
    · rw [htext]
      rfl
    · rw [hdecode]
      rfl

end ByteReader

end DemoReel
