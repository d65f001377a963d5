import DemoReel.Proofs.Program.Catalog
import Mathlib

/-!
# Strictness refuses and never reinterprets

A strict decoder reads what a lax one reads, step by step, up to the first place where its option
matters, and there it fails with an error of its own kind.  So whatever it accepts the lax one reads
in the same way, and the programs it loses from an archive are the only ones it changes.
-/

namespace DemoReel

namespace DecodeError

def IsMalformed (e : DecodeError) : Prop := ∃ textOffset fault, e = malformedText textOffset fault

def IsUnknownOpcode (e : DecodeError) : Prop := ∃ offset opcode, e = unknownOpcode offset opcode

theorem not_isMalformed_outOfRange {offset requested remaining : Nat} :
    ¬(outOfRange offset requested remaining).IsMalformed := nofun

theorem not_isUnknownOpcode_outOfRange {offset requested remaining : Nat} :
    ¬(outOfRange offset requested remaining).IsUnknownOpcode := nofun

end DecodeError

open DecodeError

/-! ## Refusals of one kind -/

section Refusals

variable {α β : Type} {kind : DecodeError → Prop}

/-- The strict computation does what the lax one does or fails with an error of this kind, and the
lax one never does the latter. -/
structure Refuses (kind : DecodeError → Prop) (strict lax : Except DecodeError α) : Prop where
  lenient : ∀ e, lax = .error e → ¬kind e
  same_or_refused : strict = lax ∨ ∃ e, kind e ∧ strict = .error e

namespace Refuses

theorem ok (a : α) : Refuses kind (.ok a) (.ok a) := ⟨nofun, .inl rfl⟩

theorem error {e : DecodeError} (h : ¬kind e) : Refuses (α := α) kind (.error e) (.error e) := by
  refine ⟨?_, .inl rfl⟩
  rintro _ ⟨⟩
  exact h

theorem bind {x x' : Except DecodeError α} {f f' : α → Except DecodeError β}
    (hx : Refuses kind x x') (hf : ∀ a, x' = .ok a → Refuses kind (f a) (f' a)) :
    Refuses kind (x >>= f) (x' >>= f') := by
  obtain ⟨hlenient, hsame | ⟨e, hkind, hrefused⟩⟩ := hx
  · subst hsame
    cases x with
    | error e => exact error (hlenient e rfl)
    | ok a => exact hf a rfl
  · subst hrefused
    -- the strict side ends here, but the lax side goes on and must not fail with this kind later
    refine ⟨?_, .inr ⟨e, hkind, rfl⟩⟩
    cases x' with
    | error e' =>
      rintro _ ⟨⟩
      exact hlenient e' rfl
    | ok a => exact (hf a rfl).lenient

theorem map {x x' : Except DecodeError α} (hx : Refuses kind x x') (f : α → β) :
    Refuses kind (x.map f) (x'.map f) :=
  hx.bind fun a _ ↦ .ok (f a)

end Refuses

/-- From every reader on, the one read refuses where the other does not. -/
def Reading.Refuses (kind : DecodeError → Prop) (strict lax : Reading α) : Prop :=
  ∀ r, DemoReel.Refuses kind (strict r) (lax r)

theorem Reading.Refuses.congruence
    (hrange : ∀ offset requested remaining, ¬kind (.outOfRange offset requested remaining)) :
    Reading.Congruence fun _ strict lax ↦ strict.Refuses kind lax where
  pure _ _ := .ok _
  bind hp hf r := (hp r).bind fun s _ ↦ hf s.1 s.2
  take n r := by
    unfold ByteReader.take
    dsimp only
    split
    · exact .ok _
    · exact .error (hrange _ _ _)

end Refusals

namespace ByteReader

/-- Text that both take in the same way is refused by neither for another reason. -/
theorem refuses_text_self {kind : DecodeError → Prop}
    (hrange : ∀ offset requested remaining, ¬kind (.outOfRange offset requested remaining))
    (hmalformed : ∀ textOffset fault, ¬kind (.malformedText textOffset fault)) (n : Nat)
    (strict : Bool) : (text n strict).Refuses kind (text n strict) := by
  intro r
  rw [text_apply]
  refine ((Reading.Refuses.congruence hrange).take n r).bind fun s _ ↦ ?_
  cases Utf8.decode s.1 with
  | ok text => exact .ok _
  | error fault =>
    cases strict with
    | true => exact .error (hmalformed _ _)
    | false => exact .ok _

theorem refuses_text (n : Nat) : (text n true).Refuses IsMalformed (text n false) := by
  have htake := (Reading.Refuses.congruence fun _ _ _ ↦ not_isMalformed_outOfRange).take n
  intro r
  rw [text_apply, text_apply]
  refine (htake r).bind fun s _ ↦ ?_
  cases Utf8.decode s.1 with
  | ok text => exact .ok _
  | error fault => exact ⟨nofun, .inr ⟨_, ⟨_, _, rfl⟩, rfl⟩⟩

end ByteReader

/-! ## A strict decoder beside a lax one -/

namespace Decoder

open ByteReader

/-- What comes of an unknown opcode. -/
def atUnknown (d : Decoder) (stop : EarlyStop) : Except DecodeError Next :=
  if d.options.strictOpcodes then .error (.unknownOpcode stop.offset stop.opcode)
  else .ok (.unknown stop)

/-- The decoders part only where the strict one refuses a text or an opcode. -/
structure Stricter (kind : DecodeError → Prop) (strict lax : Decoder) : Prop where
  outOfRange : ∀ offset requested remaining, ¬kind (.outOfRange offset requested remaining)
  strings : lax.strings = strict.strings
  text : ∀ n, (ByteReader.text n strict.options.strictText).Refuses kind
    (ByteReader.text n lax.options.strictText)
  atUnknown : ∀ stop, Refuses kind (strict.atUnknown stop) (lax.atUnknown stop)

namespace Stricter

variable {kind : DecodeError → Prop} {strict lax : Decoder} (h : Stricter kind strict lax)
include h

theorem operation (opcode : Opcode) :
    (strict.operation opcode).Refuses kind (lax.operation opcode) :=
  have hreads := Reading.Refuses.congruence h.outOfRange
  congruence_operation hreads strict lax (congruence_text hreads strict lax h.strings h.text) opcode

theorem next (r : ByteReader) : Refuses kind (strict.next r) (lax.next r) := by
  have hreads := Reading.Refuses.congruence h.outOfRange
  refine (hreads.u8 r).bind fun head _ ↦ ?_
  dsimp only
  cases Opcode.ofByte? head.1 with
  | none => exact h.atUnknown ⟨r.offset, head.1⟩
  | some opcode => exact (h.operation opcode head.2).bind fun read _ ↦ .ok _

/-- Both keep in step: an operation that both read leaves them at the same byte with as many
operations pending. -/
theorem operations (pending : Nat) (r : ByteReader) :
    Refuses kind (strict.operations pending r) (lax.operations pending r) := by
  -- blocks raise the number pending, so the induction is on the bytes that are left
  induction hsize : r.remaining using Nat.strongRecOn generalizing pending r with
  | _ size ih =>
    cases pending with
    | zero =>
      rw [operations_zero, operations_zero]
      exact .ok _
    | succ pending =>
      rw [operations_succ, operations_succ]
      refine (h.next r).bind fun next hnext ↦ ?_
      cases next with
      | unknown stop => exact .ok _
      | operation op rest =>
        have hless : rest.remaining < size := hsize ▸ remaining_of_next hnext
        exact (ih _ hless _ rest rfl).map _

theorem decodeRaw (raw : RawProgram) : Refuses kind (strict.decodeRaw raw) (lax.decodeRaw raw) :=
  have hreads := Reading.Refuses.congruence h.outOfRange
  (hreads.u16 _).bind fun counted _ ↦
    (congruence_spriteIds hreads counted.1.toNat counted.2).bind fun ids _ ↦
      (h.operations raw.declaredCount.toNat ids.2).bind fun _ _ ↦ .ok _

theorem header : RawProgram.read.Refuses kind RawProgram.read :=
  have hreads := Reading.Refuses.congruence h.outOfRange
  have hget : (get : Reading ByteReader).Refuses kind get := fun _ ↦ .ok _
  hreads.bind hreads.u16 fun _ ↦ hreads.bind hreads.u16 fun _ ↦ hreads.bind hreads.u32 fun size ↦
    hreads.bind hget fun _ ↦ hreads.bind (hreads.take size.toNat) fun _ ↦ hreads.pure _

theorem decodeProgram (bytes : List UInt8) :
    Refuses kind (strict.decodeProgram bytes) (lax.decodeProgram bytes) :=
  (h.header _).bind fun read _ ↦ h.decodeRaw read.1

end Stricter

/-! ## The two options -/

def withStrictOpcodes (d : Decoder) (on : Bool) : Decoder :=
  { d with options := { d.options with strictOpcodes := on } }

def withStrictText (d : Decoder) (on : Bool) : Decoder :=
  { d with options := { d.options with strictText := on } }

variable (d : Decoder)

theorem stricter_opcodes :
    Stricter IsUnknownOpcode (d.withStrictOpcodes true) (d.withStrictOpcodes false) where
  outOfRange _ _ _ := not_isUnknownOpcode_outOfRange
  strings := rfl
  text n := refuses_text_self (fun _ _ _ ↦ not_isUnknownOpcode_outOfRange) nofun n _
  atUnknown _ := ⟨nofun, .inr ⟨_, ⟨_, _, rfl⟩, rfl⟩⟩

theorem stricter_text :
    Stricter IsMalformed (d.withStrictText true) (d.withStrictText false) where
  outOfRange _ _ _ := not_isMalformed_outOfRange
  strings := rfl
  text n := refuses_text n
  atUnknown stop := by
    change Refuses _ (d.atUnknown stop) (d.atUnknown stop)
    unfold atUnknown
    split
    · exact .error nofun
    · exact .ok _

end Decoder

/-! ## Early stops -/

/-- The error that names this opcode. -/
def EarlyStop.toError (stop : EarlyStop) : DecodeError := .unknownOpcode stop.offset stop.opcode

theorem EarlyStop.toError_inj {stop stop' : EarlyStop} :
    stop.toError = stop'.toError ↔ stop = stop' := by
  cases stop
  cases stop'
  simp [toError]

namespace Decoder

/-- A result that was not cut short, or else the error that names the opcode in the way. -/
def unlessStopped {α : Type} (stop : Option EarlyStop) (a : α) : Except DecodeError α :=
  match stop with
  | none => .ok a
  | some stop => .error stop.toError

variable (d : Decoder)

theorem next_withStrictOpcodes (r : ByteReader) :
    (d.withStrictOpcodes true).next r = (d.withStrictOpcodes false).next r >>= fun
      | .operation op rest => .ok (.operation op rest)
      | .unknown stop => .error stop.toError := by
  unfold next
  cases ByteReader.u8 r with
  | error e => rfl
  | ok head =>
    simp only [bind, Except.bind]
    cases Opcode.ofByte? head.1 with
    | none => rfl
    | some opcode =>
      change (d.operation opcode head.2 >>= _) = (d.operation opcode head.2 >>= _) >>= _
      cases d.operation opcode head.2 <;> rfl

/-- Strict decoding of a stream is lax decoding after which an early stop is refused. -/
theorem operations_withStrictOpcodes (pending : Nat) (r : ByteReader) :
    (d.withStrictOpcodes true).operations pending r =
      (d.withStrictOpcodes false).operations pending r >>= fun read ↦
        unlessStopped read.2 read := by
  fun_induction (d.withStrictOpcodes false).operations pending r with
  | case1 r => rw [operations_zero]; rfl
  | case2 r pending e hnext =>
    rw [Nat.succ_eq_add_one, operations_succ, next_withStrictOpcodes, hnext]
    rfl
  | case3 r pending stop hnext =>
    rw [Nat.succ_eq_add_one, operations_succ, next_withStrictOpcodes, hnext]
    rfl
  | case4 r pending op rest hnext e hmore ih =>
    rw [hmore] at ih
    rw [Nat.succ_eq_add_one, operations_succ, next_withStrictOpcodes, hnext]
    simp only [bind, Except.bind, ih, Except.map]
  | case5 r pending op rest hnext ops stop hmore ih =>
    rw [hmore] at ih
    rw [Nat.succ_eq_add_one, operations_succ, next_withStrictOpcodes, hnext]
    simp only [bind, Except.bind, ih]
    cases stop <;> rfl

theorem decodeRaw_withStrictOpcodes (raw : RawProgram) :
    (d.withStrictOpcodes true).decodeRaw raw =
      (d.withStrictOpcodes false).decodeRaw raw >>= fun decoded ↦
        unlessStopped decoded.stoppedAt decoded := by
  unfold decodeRaw
  cases ByteReader.u16 (.ofBytes raw.payloadOffset raw.payload) with
  | error e => rfl
  | ok counted =>
    simp only [bind, Except.bind]
    cases spriteIds counted.1.toNat counted.2 with
    | error e => rfl
    | ok ids =>
      simp only [operations_withStrictOpcodes]
      cases (d.withStrictOpcodes false).operations raw.declaredCount.toNat ids.2 with
      | error e => rfl
      | ok read =>
        obtain ⟨operations, stop⟩ := read
        cases stop <;> rfl

theorem decodeProgram_withStrictOpcodes (bytes : List UInt8) :
    (d.withStrictOpcodes true).decodeProgram bytes =
      (d.withStrictOpcodes false).decodeProgram bytes >>= fun decoded ↦
        unlessStopped decoded.stoppedAt decoded := by
  unfold decodeProgram
  rw [bind_assoc]
  exact bind_congr fun read ↦ d.decodeRaw_withStrictOpcodes read.1

/-- Strict decoding succeeds where lax decoding reads to the end, names the opcode where lax
decoding stops, and fails where lax decoding fails. -/
structure RefusesStops (strict lax : Except DecodeError DecodedProgram) : Prop where
  complete : ∀ decoded, (lax = .ok decoded ∧ decoded.stoppedAt = none) ↔
    (strict = .ok decoded ∧ decoded.stoppedAt = none)
  stopped : ∀ stop : EarlyStop, (∃ decoded, lax = .ok decoded ∧ decoded.stoppedAt = some stop) ↔
    strict = .error (.unknownOpcode stop.offset stop.opcode)
  failed : ∀ e, lax = .error e ↔ strict = .error e ∧ ¬e.IsUnknownOpcode

/-- What strict decoding reads lax decoding reads too, and fails as strict decoding does unless the
latter refuses a text. -/
structure RefusesTexts (strict lax : Except DecodeError DecodedProgram) : Prop where
  ok : ∀ decoded, strict = .ok decoded → lax = .ok decoded
  error : ∀ e, ¬e.IsMalformed → strict = .error e → lax = .error e
  lenient : ∀ e, e.IsMalformed → lax ≠ .error e

/-- A lax result that names no opcode, and the same result with early stops refused. -/
theorem refusesStops_unlessStopped {lax : Except DecodeError DecodedProgram}
    (hlenient : ∀ e, lax = .error e → ¬e.IsUnknownOpcode) :
    RefusesStops (lax >>= fun decoded ↦ unlessStopped decoded.stoppedAt decoded) lax := by
  cases lax with
  | error e =>
    have hknown := hlenient e rfl
    change RefusesStops (.error e) _
    refine ⟨fun _ ↦ by simp, fun stop ↦ ?_, fun e' ↦ ?_⟩
    · have hne : e ≠ .unknownOpcode stop.offset stop.opcode := fun he ↦ hknown ⟨_, _, he⟩
      simp [hne]
    · simp only [Except.error.injEq, iff_self_and]
      rintro rfl
      exact hknown
  | ok decoded =>
    change RefusesStops (unlessStopped decoded.stoppedAt decoded) _
    cases hstop : decoded.stoppedAt with
    | none => exact ⟨fun _ ↦ .rfl, fun _ ↦ by simp [unlessStopped, hstop], fun _ ↦ by
        simp [unlessStopped]⟩
    | some found =>
      refine ⟨fun decoded' ↦ ?_, fun stop ↦ ?_, fun e ↦ ?_⟩
      · simp only [unlessStopped, Except.ok.injEq, reduceCtorEq, false_and, iff_false, not_and]
        rintro rfl
        simp [hstop]
      · change _ ↔ Except.error found.toError = .error stop.toError
        simp [hstop, EarlyStop.toError_inj]
      · simp only [unlessStopped, reduceCtorEq, Except.error.injEq, false_iff, not_and, not_not]
        rintro rfl
        exact ⟨_, _, rfl⟩

theorem refusesStops_decodeProgram (bytes : List UInt8) :
    RefusesStops ((d.withStrictOpcodes true).decodeProgram bytes)
      ((d.withStrictOpcodes false).decodeProgram bytes) := by
  rw [decodeProgram_withStrictOpcodes]
  exact refusesStops_unlessStopped (d.stricter_opcodes.decodeProgram bytes).lenient

/-- A program of one operation, whose opcode is unknown. -/
example :
    ((withStrictOpcodes {} false).decodeProgram [7, 0, 1, 0, 3, 0, 0, 0, 0, 0, 255]).map
        DecodedProgram.stoppedAt = .ok (some ⟨10, 255⟩) ∧
      (withStrictOpcodes {} true).decodeProgram [7, 0, 1, 0, 3, 0, 0, 0, 0, 0, 255] =
        .error (.unknownOpcode 10 255) :=
  ⟨by cbv, by cbv⟩

theorem refusesTexts_decodeProgram (bytes : List UInt8) :
    RefusesTexts ((d.withStrictText true).decodeProgram bytes)
      ((d.withStrictText false).decodeProgram bytes) := by
  -- unlike an early stop, a refused text does not say what the lax decoder makes of it
  obtain ⟨hlenient, hsame | ⟨e, hkind, hrefused⟩⟩ := d.stricter_text.decodeProgram bytes
  · rw [hsame]
    exact ⟨fun _ ↦ id, fun _ _ ↦ id, fun e hkind herror ↦ hlenient e herror hkind⟩
  · refine ⟨?_, ?_, fun e hkind herror ↦ hlenient e herror hkind⟩
    · rw [hrefused]
      exact nofun
    · rw [hrefused]
      rintro _ hother ⟨⟩
      exact (hother hkind).elim

end Decoder

/-! ## Archives -/

namespace Archive

open ProgramImage (error?)

/-- The strict archive is the lax one without some of its programs, each of which fails instead. -/
structure Narrows (strict lax : Archive) : Prop where
  declaredPrograms : strict.declaredPrograms = lax.declaredPrograms
  programs : strict.programs.Sublist lax.programs
  /-- What fails under the lax decoder fails under the strict one. -/
  errors : ∀ e ∈ lax.errors, ∃ e' ∈ strict.errors, e'.index = e.index ∧ e'.demoId = e.demoId
  /-- Headers are read alike. -/
  header : ∀ e : ArchiveError, e.demoId = none → (e ∈ strict.errors ↔ e ∈ lax.errors)

variable {kind : DecodeError → Prop} {strict lax : Decoder}

theorem outcomeAt_eq_or_error (h : strict.Stricter kind lax) (raw : RawProgram) (index : Nat) :
    outcomeAt strict raw index = outcomeAt lax raw index ∨
      ∃ e, outcomeAt strict raw index = .error e := by
  rw [outcomeAt, outcomeAt]
  obtain hsame | ⟨e, -, hrefused⟩ := (h.decodeRaw raw).same_or_refused
  · exact .inl (by rw [hsame])
  · exact .inr ⟨⟨index, some raw.demoId, e⟩, by rw [hrefused]⟩

theorem sublist_programs (h : strict.Stricter kind lax) (raws : List RawProgram) (index : Nat) :
    ((outcomesAt strict raws index).filterMap Except.toOption).Sublist
      ((outcomesAt lax raws index).filterMap Except.toOption) := by
  induction raws generalizing index with
  | nil => exact .refl _
  | cons raw raws ih =>
    rw [outcomesAt_cons, outcomesAt_cons]
    obtain hsame | ⟨e, hrefused⟩ := outcomeAt_eq_or_error h raw index
    · rw [hsame]
      cases outcomeAt lax raw index with
      | error e => exact ih (index + 1)
      | ok program => exact (ih (index + 1)).cons_cons program
    · rw [hrefused]
      cases outcomeAt lax raw index with
      | error e => exact ih (index + 1)
      | ok program => exact (ih (index + 1)).cons program

/-- A program that fails under the lax decoder fails under the strict one. -/
theorem exists_error_of_mem (h : strict.Stricter kind lax) {raws : List RawProgram} {index : Nat}
    {e : ArchiveError} (he : e ∈ (outcomesAt lax raws index).filterMap error?) :
    ∃ e' ∈ (outcomesAt strict raws index).filterMap error?,
      e'.index = e.index ∧ e'.demoId = e.demoId := by
  obtain ⟨entry, hentry, herror⟩ := mem_errors_outcomesAt.1 he
  obtain ⟨e', herror'⟩ : ∃ e', outcomeAt strict entry.1 entry.2 = .error e' := by
    obtain hsame | hrefused := outcomeAt_eq_or_error h entry.1 entry.2
    · exact ⟨e, hsame.trans herror⟩
    · exact hrefused
  obtain ⟨hindex, hid, -⟩ := outcomeAt_eq_error herror
  obtain ⟨hindex', hid', -⟩ := outcomeAt_eq_error herror'
  exact ⟨e', mem_errors_outcomesAt.2 ⟨entry, hentry, herror'⟩, hindex'.trans hindex.symm,
    hid'.trans hid.symm⟩

/-- The one error without an id is that of the header, which no decoder is asked for. -/
theorem mem_errors_iff_of_header {d : Decoder} {catalog : Catalog} {e : ArchiveError}
    (he : e.demoId = none) :
    e ∈ (catalog.decode d).errors ↔
      e ∈ (catalog.fault.map (headerError catalog.raws.length)).toList := by
  have hnot : e ∉ (catalog.outcomes d).filterMap error? := fun hmem ↦ by
    have hsome := isSome_demoId_of_mem_errors hmem
    rw [he] at hsome
    cases hsome
  rw [Catalog.decode, List.mem_append, or_iff_right hnot]

theorem narrows_decode (h : strict.Stricter kind lax) (catalog : Catalog) :
    (catalog.decode strict).Narrows (catalog.decode lax) where
  declaredPrograms := rfl
  programs := sublist_programs h catalog.raws 0
  errors e he := by
    obtain hmem | hfault := List.mem_append.1 he
    · obtain ⟨e', hmem', hplace⟩ := exists_error_of_mem h hmem
      exact ⟨e', List.mem_append_left _ hmem', hplace⟩
    · exact ⟨e, List.mem_append_right _ hfault, rfl, rfl⟩
  header e he := by rw [mem_errors_iff_of_header he, mem_errors_iff_of_header he]

/-- Each of the two options turned on refuses some programs, for a reason of its own, and changes
nothing about those it lets pass, on their own and in archives. -/
theorem strictness_only_refuses (d : Decoder) (bytes : List UInt8) :
    Decoder.RefusesStops ((d.withStrictOpcodes true).decodeProgram bytes)
        ((d.withStrictOpcodes false).decodeProgram bytes) ∧
      Agree Narrows (decode (d.withStrictOpcodes true) bytes)
        (decode (d.withStrictOpcodes false) bytes) ∧
      Decoder.RefusesTexts ((d.withStrictText true).decodeProgram bytes)
        ((d.withStrictText false).decodeProgram bytes) ∧
      Agree Narrows (decode (d.withStrictText true) bytes)
        (decode (d.withStrictText false) bytes) :=
  ⟨d.refusesStops_decodeProgram bytes, agree_decode (narrows_decode d.stricter_opcodes) bytes,
    d.refusesTexts_decodeProgram bytes, agree_decode (narrows_decode d.stricter_text) bytes⟩

end Archive

end DemoReel
