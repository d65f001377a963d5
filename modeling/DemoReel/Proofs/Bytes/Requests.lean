import DemoReel.Bytes.Offset
import DemoReel.Bytes.Request
import DemoReel.Proofs.Bytes.Field
import DemoReel.Proofs.Text.Utf8
import Mathlib

/-!
# Reads carried out one after another

In place a read does what it does while a program is decoded, and where it fails it has put back
what it took.  So each request either takes its bytes and yields what they stand for, or takes
nothing and says why.  What a sequence of requests takes is the front of the buffer, in order and
without a gap, and requests that fail might as well not have been made.
-/

namespace DemoReel

namespace LittleEndian

theorem value_u8 (n : UInt8) : value (u8 n) = n.toNat := by
  simp [u8, value]

theorem value_u16 (n : UInt16) : value (u16 n) = n.toNat := by
  rw [u16, value_bytes]
  exact Nat.mod_eq_of_lt n.toNat_lt

theorem value_u32 (n : UInt32) : value (u32 n) = n.toNat := by
  rw [u32, value_bytes]
  exact Nat.mod_eq_of_lt n.toNat_lt

end LittleEndian

namespace Reading

/-- What a read comes to for someone who goes on with the old reader where it fails. -/
def settle {α : Type} (p : Reading α) (r : ByteReader) : Except DecodeError α × ByteReader :=
  match p r with
  | .ok (a, s) => (.ok a, s)
  | .error e => (.error e, r)

theorem map_eq_error_iff {α β : Type} {p : Reading α} {f : α → β} {r : ByteReader}
    {e : DecodeError} : (p >>= fun a ↦ Pure.pure (f a)) r = .error e ↔ p r = .error e := by
  change (p r >>= fun s ↦ .ok (f s.1, s.2)) = _ ↔ _
  rw [DemoReel.bind_eq_error_iff]
  simp

end Reading

namespace ByteReader

/-! ## In place and while decoding -/

namespace InPlace

variable {α β : Type} {p : InPlace α} {q : Reading α}

theorem bind_apply (p : InPlace α) (f : α → InPlace β) (r : ByteReader) :
    (p >>= f) r = match p r with
      | (.ok a, s) => f a s
      | (.error e, s) => (.error e, s) := by
  simp only [bind, ExceptT.bind, ExceptT.mk, StateT.bind, ExceptT.bindCont]
  cases p r with
  | mk outcome s => cases outcome <;> rfl

/-- The one read does the same as the other, and where it fails the reader is as it was before. -/
def Settles (p : InPlace α) (q : Reading α) : Prop := ∀ r, p r = q.settle r

theorem Settles.map (h : p.Settles q) (f : α → β) :
    Settles (p >>= fun a ↦ Pure.pure (f a)) (q >>= fun a ↦ Pure.pure (f a)) := by
  intro r
  have hq : (q >>= fun a ↦ Pure.pure (f a)) r = q r >>= fun s ↦ .ok (f s.1, s.2) := rfl
  rw [bind_apply, h r, Reading.settle, Reading.settle, hq]
  cases q r <;> rfl

theorem settles_take (n : Nat) : (take n).Settles (ByteReader.take n) := by
  intro r
  change (if (r.rest.take n).length = n then _ else _ : InPlace (List UInt8)) r = _
  rw [Reading.settle, ByteReader.take]
  split <;> rfl

/-- A text that is refused is the one thing that has to be put back. -/
theorem settles_text (n : Nat) (strict : Bool) :
    (text n strict).Settles (ByteReader.text n strict) := by
  intro r
  rw [Reading.settle, text_apply]
  change (take n >>= fun bytes ↦ _) r = _
  rw [bind_apply, settles_take n r, Reading.settle]
  cases ByteReader.take n r with
  | error e => rfl
  | ok taken =>
    obtain ⟨bytes, s⟩ := taken
    simp only [bind, Except.bind]
    cases Utf8.decode bytes with
    | ok text => rfl
    | error fault => cases strict <;> rfl

end InPlace

namespace Request

/-- The read that a request asks for, as decoding makes it. -/
def reading : Request → Reading Field
  | u8 => return .number (← ByteReader.u8).toNat
  | u16 => return .number (← ByteReader.u16).toNat
  | u32 => return .number (← ByteReader.u32).toNat
  | bytes n => return .bytes (← ByteReader.take n)
  | text n strict => return .text (← ByteReader.text n strict)

theorem settles_read (request : Request) : request.read.Settles request.reading := by
  cases request with
  | u8 => exact ((InPlace.settles_take 1).map _).map _
  | u16 => exact ((InPlace.settles_take 2).map _).map _
  | u32 => exact ((InPlace.settles_take 4).map _).map _
  | bytes n => exact (InPlace.settles_take n).map _
  | text n strict => exact (InPlace.settles_text n strict).map _

theorem perform_eq_settle (request : Request) (r : ByteReader) :
    perform request r = request.reading.settle r :=
  request.settles_read r

/-! ## What comes of one request -/

/-- How many bytes a request takes. -/
def width : Request → Nat
  | u8 => 1
  | u16 => 2
  | u32 => 4
  | bytes n => n
  | text n _ => n

/-- The field that bytes stand for, if they are as many as the request takes. -/
def Stands : Request → List UInt8 → Field → Prop
  | u8, taken, field | u16, taken, field | u32, taken, field =>
    field = .number (LittleEndian.value taken)
  | bytes _, taken, field => field = .bytes taken
  | text _ true, taken, field => ∃ text, taken = Utf8.encode text ∧ field = .text text
  | text _ false, taken, field => field = .text (Utf8.decodeLossy taken)

/-- What comes of a request: the bytes that it takes off the reader, its outcome, and the reader
afterwards. -/
inductive Answers : Request → ByteReader → List UInt8 → Except DecodeError Field → ByteReader → Prop
  | field {request : Request} {r s : ByteReader} {taken : List UInt8} {field : Field}
    (width : taken.length = request.width) (takes : r.Takes taken s)
    (stands : request.Stands taken field) : Answers request r taken (.ok field) s
  /-- Fewer bytes are left than the request takes. -/
  | short {request : Request} {r : ByteReader} (left : r.remaining < request.width) :
    Answers request r [] (.error (.outOfRange r.offset request.width r.remaining)) r
  /-- A text that is not UTF-8 is refused. -/
  | illFormed {r : ByteReader} {bytes : List UInt8} {fault : Utf8.Fault}
    (stands : bytes <+: r.rest) (decode : Utf8.decode bytes = .error fault) :
    Answers (.text bytes.length true) r [] (.error (.malformedText r.offset fault)) r

end Request

theorem take_eq_error_iff {n : Nat} {r : ByteReader} {e : DecodeError} :
    take n r = .error e ↔ r.remaining < n ∧ .outOfRange r.offset n r.remaining = e := by
  have hshort : (r.rest.take n).length = n ↔ ¬r.remaining < n := by
    rw [List.length_take, remaining]
    omega
  unfold take
  by_cases hless : r.remaining < n
  · simp only [hshort, hless, not_true_eq_false, if_false, Except.error.injEq, true_and]
  · simp only [hshort, hless, not_false_eq_true, if_true, reduceCtorEq, false_and]

namespace Request

variable {request : Request} {r s : ByteReader}

theorem exists_answers_of_ok {field : Field} (h : request.reading r = .ok (field, s)) :
    ∃ taken, request.Answers r taken (.ok field) s := by
  cases request with
  | u8 =>
    obtain ⟨n, _, hread, hfield⟩ := Reading.bind_eq_ok_iff.1 h
    obtain ⟨rfl, rfl⟩ := Reading.pure_eq_ok_iff.1 hfield
    refine ⟨LittleEndian.u8 n, .field rfl (u8_eq_ok_iff.1 hread) ?_⟩
    rw [Stands, LittleEndian.value_u8]
  | u16 =>
    obtain ⟨n, _, hread, hfield⟩ := Reading.bind_eq_ok_iff.1 h
    obtain ⟨rfl, rfl⟩ := Reading.pure_eq_ok_iff.1 hfield
    refine ⟨LittleEndian.u16 n, .field (LittleEndian.length_u16 n) (u16_eq_ok_iff.1 hread) ?_⟩
    rw [Stands, LittleEndian.value_u16]
  | u32 =>
    obtain ⟨n, _, hread, hfield⟩ := Reading.bind_eq_ok_iff.1 h
    obtain ⟨rfl, rfl⟩ := Reading.pure_eq_ok_iff.1 hfield
    refine ⟨LittleEndian.u32 n, .field (LittleEndian.length_u32 n) (u32_eq_ok_iff.1 hread) ?_⟩
    rw [Stands, LittleEndian.value_u32]
  | bytes n =>
    obtain ⟨taken, _, hread, hfield⟩ := Reading.bind_eq_ok_iff.1 h
    obtain ⟨rfl, rfl⟩ := Reading.pure_eq_ok_iff.1 hfield
    obtain ⟨hlength, htakes⟩ := take_eq_ok_iff_takes.1 hread
    exact ⟨taken, .field hlength htakes rfl⟩
  | text n strict =>
    obtain ⟨text, _, hread, hfield⟩ := Reading.bind_eq_ok_iff.1 h
    obtain ⟨rfl, rfl⟩ := Reading.pure_eq_ok_iff.1 hfield
    obtain ⟨taken, hlength, htakes, htext⟩ := text_eq_ok_iff.1 hread
    refine ⟨taken, .field hlength htakes ?_⟩
    cases strict with
    | true =>
      obtain hdecode | ⟨hlenient, -⟩ := htext
      · exact ⟨text, Utf8.decode_eq_ok_iff.1 hdecode, rfl⟩
      · cases hlenient
    | false =>
      obtain hdecode | ⟨-, -, rfl⟩ := htext
      · rw [Stands, Utf8.decodeLossy_of_decode hdecode]
      · rfl

theorem answers_of_error {e : DecodeError} (h : request.reading r = .error e) :
    request.Answers r [] (.error e) r := by
  have hshort {n : Nat} (hwidth : request.width = n) (htake : take n r = .error e) :
      request.Answers r [] (.error e) r := by
    obtain ⟨hless, rfl⟩ := take_eq_error_iff.1 htake
    rw [← hwidth] at hless ⊢
    exact .short hless
  cases request with
  | u8 => exact hshort rfl (Reading.map_eq_error_iff.1 (Reading.map_eq_error_iff.1 h))
  | u16 => exact hshort rfl (Reading.map_eq_error_iff.1 (Reading.map_eq_error_iff.1 h))
  | u32 => exact hshort rfl (Reading.map_eq_error_iff.1 (Reading.map_eq_error_iff.1 h))
  | bytes n => exact hshort rfl (Reading.map_eq_error_iff.1 h)
  | text n strict =>
    have htext : ByteReader.text n strict r = .error e := Reading.map_eq_error_iff.1 h
    rw [text_apply] at htext
    obtain htake | ⟨⟨bytes, s⟩, htake, hrefused⟩ := bind_eq_error_iff.1 htext
    · exact hshort rfl htake
    · obtain ⟨rfl, hrest, -⟩ := take_eq_ok_iff_takes.1 htake
      cases hdecode : Utf8.decode bytes with
      | ok text => simp [hdecode] at hrefused
      | error fault =>
        cases strict with
        | false => simp [hdecode] at hrefused
        | true =>
          simp only [hdecode, if_true, Except.error.injEq] at hrefused
          subst hrefused
          exact .illFormed ⟨s.rest, hrest.symm⟩ hdecode

theorem Answers.takes {taken : List UInt8} {outcome : Except DecodeError Field}
    (h : request.Answers r taken outcome s) : r.Takes taken s := by
  cases h with
  | field width takes stands => exact takes
  | short left => exact takes_nil.2 rfl
  | illFormed stands decode => exact takes_nil.2 rfl

theorem Answers.eq_of_error {taken : List UInt8} {e : DecodeError}
    (h : request.Answers r taken (.error e) s) : s = r := by
  cases h with
  | short left => rfl
  | illFormed stands decode => rfl

theorem Answers.eq_outOfRange {n : Nat} {taken : List UInt8} {e : DecodeError}
    (h : (text n false).Answers r taken (.error e) s) :
    e = .outOfRange r.offset n r.remaining := by
  cases h with
  | short left => rfl

/-- A request takes its bytes and yields what they stand for, or it takes nothing. -/
theorem exists_answers (request : Request) (r : ByteReader) :
    ∃ taken, request.Answers r taken (perform request r).1 (perform request r).2 := by
  rw [perform_eq_settle, Reading.settle]
  cases hread : request.reading r with
  | error e => exact ⟨[], answers_of_error hread⟩
  | ok read => exact exists_answers_of_ok hread

end Request

/-- Of text that is UTF-8 the same comes whether ill-formed text is refused or not. -/
theorem perform_text_of_encode {n : Nat} {r : ByteReader} {text : String}
    (h : r.rest.take n = Utf8.encode text) :
    perform (.text n false) r = perform (.text n true) r := by
  have hread : ByteReader.text n false r = ByteReader.text n true r := by
    rw [text_apply, text_apply]
    cases htake : take n r with
    | error e => rfl
    | ok taken =>
      obtain ⟨hrest, hlength, -⟩ := take_eq_ok_iff.1 htake
      rw [hrest, ← hlength, List.take_left] at h
      simp only [bind, Except.bind, h, Utf8.decode_encode]
  have hreading : (Request.text n false).reading r = (Request.text n true).reading r := by
    change (ByteReader.text n false r >>= fun s ↦ .ok (Field.text s.1, s.2)) =
      ByteReader.text n true r >>= fun s ↦ .ok (Field.text s.1, s.2)
    rw [hread]
  rw [Request.perform_eq_settle, Request.perform_eq_settle, Reading.settle, Reading.settle,
    hreading]

/-! ## Sequences of requests -/

/-- Requests carried out one after another, each on the reader that the one before it leaves, with
the bytes that each of them takes. -/
inductive Course : ByteReader → List Request → List (List UInt8) →
    List (Except DecodeError Field × ByteReader) → Prop
  | nil (r : ByteReader) : Course r [] [] []
  | cons {r s : ByteReader} {request : Request} {taken : List UInt8}
    {outcome : Except DecodeError Field} {requests : List Request} {chunks : List (List UInt8)}
    {outcomes : List (Except DecodeError Field × ByteReader)}
    (answers : request.Answers r taken outcome s) (more : Course s requests chunks outcomes) :
    Course r (request :: requests) (taken :: chunks) ((outcome, s) :: outcomes)

theorem exists_course (requests : List Request) (r : ByteReader) :
    ∃ chunks, Course r requests chunks (performAll requests r) := by
  induction requests generalizing r with
  | nil => exact ⟨[], .nil r⟩
  | cons request requests ih =>
    obtain ⟨taken, hanswers⟩ := request.exists_answers r
    obtain ⟨chunks, hmore⟩ := ih (perform request r).2
    exact ⟨taken :: chunks, .cons hanswers hmore⟩

/-- After so many requests their bytes are off the front. -/
theorem Course.takes {r : ByteReader} {requests : List Request} {chunks : List (List UInt8)}
    {outcomes : List (Except DecodeError Field × ByteReader)}
    (h : Course r requests chunks outcomes) {i : Nat} {s : ByteReader}
    (hs : (r :: outcomes.map Prod.snd)[i]? = some s) : r.Takes (chunks.take i).flatten s := by
  induction h generalizing i with
  | nil r =>
    cases i with
    | zero =>
      obtain rfl := Option.some.inj hs
      exact takes_nil.2 rfl
    | succ i => cases hs
  | cons answers more ih =>
    cases i with
    | zero =>
      obtain rfl := Option.some.inj hs
      exact takes_nil.2 rfl
    | succ i => exact answers.takes.append (ih hs)

/-- The requests that succeed, each with what comes of it. -/
def successes (requests : List Request) (r : ByteReader) :
    List (Request × Except DecodeError Field × ByteReader) :=
  (requests.zip (performAll requests r)).filter fun call ↦ call.2.1.isOk

/-- The same comes of the requests that succeed when the others are left out. -/
theorem performAll_successes (requests : List Request) (r : ByteReader) :
    performAll ((successes requests r).map Prod.fst) r = (successes requests r).map Prod.snd := by
  induction requests generalizing r with
  | nil => rfl
  | cons request requests ih =>
    obtain ⟨taken, hanswers⟩ := request.exists_answers r
    cases houtcome : (perform request r).1 with
    | ok field =>
      have hkept : successes (request :: requests) r =
          (request, perform request r) :: successes requests (perform request r).2 :=
        List.filter_cons_of_pos (by rw [houtcome]; rfl)
      rw [hkept, List.map_cons, performAll, ih, List.map_cons]
    | error e =>
      have hdropped : successes (request :: requests) r =
          successes requests (perform request r).2 :=
        List.filter_cons_of_neg (by rw [houtcome]; exact Bool.false_ne_true)
      -- the reader is as it was, so the rest goes on from where this request began
      rw [houtcome] at hanswers
      rw [hdropped, hanswers.eq_of_error, ih]

/-- The reader that each request finds, and behind these the one that the last request leaves. -/
def readers (requests : List Request) (r : ByteReader) : List ByteReader :=
  r :: (performAll requests r).map Prod.snd

/-- However reads are strung together, each takes as many bytes as it asks for and yields what they
stand for, or it fails and leaves the reader as it was.  What was taken is the front of the buffer up
to the position, the position and what is left make up the whole buffer, and the reads that succeed
come to the same without those that fail.  Lenient text fails for want of bytes only, and agrees
with strict text on what is UTF-8. -/
theorem reads_are_atomic_and_lossless (base : Nat) (bytes : List UInt8)
    (requests : List Request) :
    let start := ByteReader.ofBytes base bytes
    (∃ chunks, Course start requests chunks (performAll requests start) ∧
      ∀ i s, (readers requests start)[i]? = some s →
        bytes = (chunks.take i).flatten ++ s.rest ∧
          s.offset = base + (chunks.take i).flatten.length) ∧
    (∀ s ∈ readers requests start, s.offset + s.remaining = base + bytes.length ∧
      (base + bytes.length < 2 ^ 64 → (shownOffset s.offset).toNat = s.offset)) ∧
    performAll ((successes requests start).map Prod.fst) start =
      (successes requests start).map Prod.snd ∧
    ∀ r, (∀ request e s, perform request r = (.error e, s) → s = r) ∧
      ∀ n, (∀ e s, perform (.text n false) r = (.error e, s) →
          e = .outOfRange r.offset n r.remaining) ∧
        ∀ text, r.rest.take n = Utf8.encode text →
          perform (.text n false) r = perform (.text n true) r := by
  intro start
  obtain ⟨chunks, hcourse⟩ := exists_course requests start
  refine ⟨⟨chunks, hcourse, fun i s hs ↦ hcourse.takes hs⟩, fun s hs ↦ ?_,
    performAll_successes requests start, fun r ↦ ⟨fun request e s herror ↦ ?_, fun n ↦ ⟨?_, ?_⟩⟩⟩
  · obtain ⟨i, hi⟩ := List.getElem?_of_mem hs
    have htakes := hcourse.takes hi
    have hlength : bytes.length = (chunks.take i).flatten.length + s.remaining :=
      htakes.remaining_eq
    have hposition : s.offset = base + (chunks.take i).flatten.length := htakes.2
    refine ⟨by omega, fun hfits ↦ UInt64.toNat_ofNat_of_lt' ?_⟩
    change s.offset < 2 ^ 64
    omega
  · obtain ⟨taken, hanswers⟩ := request.exists_answers r
    rw [herror] at hanswers
    exact hanswers.eq_of_error
  · intro e s herror
    obtain ⟨taken, hanswers⟩ := (Request.text n false).exists_answers r
    rw [herror] at hanswers
    exact hanswers.eq_outOfRange
  · intro text htext
    exact perform_text_of_encode htext

/-- Behind the first byte a strict text is refused and a number overruns the buffer.  Both leave the
reader at the second byte, and the next number is read from there. -/
theorem reads_are_atomic_and_lossless_of_faults :
    ∃ (requests : List Request) (start last : ByteReader),
      requests = [.u8, .text 2 true, .u32, .u16] ∧
      start = .ofBytes 100 [0x41, 0xBB, 0xCC] ∧
      performAll requests start =
        [(.ok (.number 0x41), ⟨101, [0xBB, 0xCC]⟩),
          (.error (.malformedText 101 ⟨0, some 1⟩), ⟨101, [0xBB, 0xCC]⟩),
          (.error (.outOfRange 101 4 2), ⟨101, [0xBB, 0xCC]⟩),
          (.ok (.number 0xCCBB), ⟨103, []⟩)] ∧
      (readers requests start)[4]? = some last ∧ last.offset + last.remaining = 100 + 3 ∧
      100 + 3 < 2 ^ 64 ∧ (shownOffset last.offset).toNat = last.offset ∧
      performAll [.u8, .u16] start =
        [(.ok (.number 0x41), ⟨101, [0xBB, 0xCC]⟩), (.ok (.number 0xCCBB), ⟨103, []⟩)] ∧
      start.rest.take 1 = Utf8.encode "A" ∧
      perform (.text 1 false) start = perform (.text 1 true) start := by
  let requests : List Request := [.u8, .text 2 true, .u32, .u16]
  let start := ByteReader.ofBytes 100 [0x41, 0xBB, 0xCC]
  have houtcomes : performAll requests start =
      [(.ok (.number 0x41), ⟨101, [0xBB, 0xCC]⟩),
        (.error (.malformedText 101 ⟨0, some 1⟩), ⟨101, [0xBB, 0xCC]⟩),
        (.error (.outOfRange 101 4 2), ⟨101, [0xBB, 0xCC]⟩),
        (.ok (.number 0xCCBB), ⟨103, []⟩)] := by
    cbv
  have hlast : (readers requests start)[4]? = some ⟨103, []⟩ := by
    rw [readers, houtcomes]
    rfl
  have hfits : 100 + 3 < 2 ^ 64 := by decide
  have htext : start.rest.take 1 = Utf8.encode "A" := by decide
  obtain ⟨-, hpositions, hsuccesses, hreads⟩ :=
    reads_are_atomic_and_lossless 100 [0x41, 0xBB, 0xCC] requests
  obtain ⟨hposition, hshown⟩ := hpositions _ (List.mem_of_getElem? hlast)
  have hleft : successes requests start =
      [(.u8, .ok (.number 0x41), ⟨101, [0xBB, 0xCC]⟩),
        (.u16, .ok (.number 0xCCBB), ⟨103, []⟩)] := by
    rw [successes, houtcomes]
    rfl
  have hagree := ((hreads start).2 1).2 "A" htext
  change performAll ((successes requests start).map Prod.fst) start =
    (successes requests start).map Prod.snd at hsuccesses
  rw [hleft] at hsuccesses
  exact ⟨requests, start, _, rfl, rfl, houtcomes, hlast, hposition, hfits, hshown hfits, hsuccesses,
    htext, hagree⟩

end ByteReader

end DemoReel
