import DemoReel.Proofs.Program.Layout
import Mathlib

/-!
# What a hostile payload can cost

Blocks raise the number of operations to read while they are read, and by more than there are bytes
left.  What ends the loop all the same is that an operation takes a byte at least and with it the
bytes of its text: neither the rounds nor the operations nor the number to read outgrow the payload.
-/

namespace DemoReel

namespace Operation

/-- How many bytes the key of the operation has, if it has one. -/
def textLength : Operation → Nat
  | leaf instruction => (instruction.text?.map fun text ↦ (Utf8.encode text.raw).length).getD 0
  | block .. => 0

/-- How many bytes the keys of a flat stream have in all. -/
def textLengthAll (ops : List Operation) : Nat := (ops.map textLength).sum

/-- The opcode takes a byte that the key does not. -/
theorem textLength_lt_length_encode (op : Operation) : op.textLength < op.encode.length := by
  cases op with
  | block childCount children => simp [textLength, encode]
  | leaf instruction =>
    rw [encode, List.length_cons, textLength]
    cases instruction with
    | paintChat lineCount offsetY text =>
      simp only [Instruction.text?, Option.map_some, Option.getD_some, Instruction.encodeFields,
        DemoText.encode, List.length_append]
      omega
    | _ => simp [Instruction.text?, Instruction.encodeFields, DemoText.encode]

theorem length_add_textLengthAll_le (ops : List Operation) :
    ops.length + textLengthAll ops ≤ (encodeAll ops).length := by
  induction ops with
  | nil => exact Nat.zero_le _
  | cons op ops ih =>
    have hop := op.textLength_lt_length_encode
    have hall : textLengthAll (op :: ops) = op.textLength + textLengthAll ops := List.sum_cons
    rw [encodeAll, List.length_append, List.length_cons, hall]
    omega

theorem declaredChildren_le (op : Operation) : op.declaredChildren ≤ 255 := by
  cases op with
  | leaf instruction => exact Nat.zero_le _
  | block childCount children => exact Nat.le_of_lt_succ childCount.toNat_lt

theorem announced_le (ops : List Operation) : announced ops ≤ 255 * ops.length := by
  induction ops with
  | nil => exact Nat.zero_le _
  | cons op ops ih =>
    have hop := op.declaredChildren_le
    rw [announced_cons, List.length_cons]
    omega

end Operation

namespace Decoder

open Operation

variable {d : Decoder}

/-! ## Chains of reads -/

theorem Reads.concat {ops : List Operation} {op : Operation} {r s rest : ByteReader}
    (h : d.Reads r ops s) (last : d.next s = .ok (.operation op rest)) :
    d.Reads r (ops ++ [op]) rest := by
  induction h with
  | nil r => exact .cons last (.nil rest)
  | cons next more ih => exact .cons next (ih last)

theorem Reads.length_add_remaining_le {ops : List Operation} {r rest : ByteReader}
    (h : d.Reads r ops rest) : ops.length + rest.remaining ≤ r.remaining := by
  induction h with
  | nil r => exact Nat.le_of_eq (Nat.zero_add _)
  | cons next more ih =>
    have hless := remaining_of_next next
    rw [List.length_cons]
    omega

/-- With strict text the bytes of the keys come on top. -/
theorem Reads.length_add_texts_add_remaining_le (hstrict : d.options.strictText = true)
    {ops : List Operation} {r rest : ByteReader} (h : d.Reads r ops rest) :
    ops.length + textLengthAll ops + rest.remaining ≤ r.remaining := by
  rw [(h.takes hstrict).2.remaining_eq]
  exact Nat.add_le_add_right (length_add_textLengthAll_le ops) _

/-! ## The loop -/

/-- The loop over a stream, between two rounds. -/
structure Loop where
  /-- What was read so far. -/
  read : List Operation
  /-- How many operations are to be read in all. -/
  bound : Nat
  rest : ByteReader

namespace Loop

variable {l l' : Loop} {r : ByteReader} {declared n : Nat}

/-- What the loop comes to. -/
abbrev Result := Except DecodeError (List Operation × Option EarlyStop)

/-- What a round comes to: the loop goes on, or it is left with a result. -/
inductive Turn where
  | again (loop : Loop)
  | left (result : Result)

def start (declared : Nat) (r : ByteReader) : Loop := ⟨[], declared, r⟩

/-- The bound grows before the children that it grows by are read. -/
def push (l : Loop) (op : Operation) (rest : ByteReader) : Loop :=
  ⟨l.read ++ [op], l.bound + op.declaredChildren, rest⟩

def round (d : Decoder) (l : Loop) : Turn :=
  match d.next l.rest with
  | .error e => .left (.error e)
  | .ok (.unknown stop) => .left (.ok (l.read, some stop))
  | .ok (.operation op rest) => .again (l.push op rest)

/-- Goes round while the bound asks for more, but `limit` times at most: how many rounds that took
and what came of them. -/
def run (d : Decoder) : (limit : Nat) → Loop → Option (Nat × Result)
  | 0, l => if l.read.length < l.bound then none else some (0, .ok (l.read, none))
  | limit + 1, l =>
    if l.read.length < l.bound then
      match l.round d with
      | .left result => some (1, result)
      | .again more => (more.run d limit).map fun (rounds, result) ↦ (rounds + 1, result)
    else some (0, .ok (l.read, none))

/-- The loop gets there in so many rounds, each of which the bound asks for. -/
inductive Reaches (d : Decoder) (l : Loop) : Nat → Loop → Prop
  | refl : Reaches d l 0 l
  | again {n : Nat} {between after : Loop} (before : Reaches d l n between)
    (asked : between.read.length < between.bound) (turn : between.round d = .again after) :
    Reaches d l (n + 1) after

theorem exists_next_of_round (h : l.round d = .again l') :
    ∃ op rest, d.next l.rest = .ok (.operation op rest) ∧ l' = l.push op rest := by
  unfold round at h
  split at h
  · cases h
  · cases h
  · rename_i op rest hnext
    cases h
    exact ⟨op, rest, hnext, rfl⟩

theorem spec_of_round (h : l.round d = .again l') :
    l'.read.length = l.read.length + 1 ∧ l.bound ≤ l'.bound ∧ l'.bound ≤ l.bound + 255 ∧
      l'.rest.remaining < l.rest.remaining := by
  obtain ⟨op, rest, hnext, rfl⟩ := exists_next_of_round h
  exact ⟨List.length_append, Nat.le_add_right _ _,
    Nat.add_le_add_left op.declaredChildren_le _, remaining_of_next hnext⟩

/-! ## The loop is what decoding does -/

/-- What was read, and what decoding reads of the rest. -/
def outcome (d : Decoder) (l : Loop) : Result :=
  (d.operations (l.bound - l.read.length) l.rest).map fun more ↦ (l.read ++ more.1, more.2)

theorem outcome_start (d : Decoder) (declared : Nat) (r : ByteReader) :
    (start declared r).outcome d = d.operations declared r := by
  change (d.operations declared r).map id = d.operations declared r
  cases d.operations declared r <;> rfl

theorem outcome_of_full (h : ¬l.read.length < l.bound) : l.outcome d = .ok (l.read, none) := by
  have hnone : l.bound - l.read.length = 0 := Nat.sub_eq_zero_of_le (Nat.le_of_not_lt h)
  rw [outcome, hnone, operations_zero]
  simp [Except.map]

/-- A round leaves what the loop comes to as it is. -/
theorem outcome_of_asked (h : l.read.length < l.bound) :
    l.outcome d = match l.round d with
      | .left result => result
      | .again more => more.outcome d := by
  obtain ⟨pending, hpending⟩ := Nat.exists_eq_add_of_lt h
  have hsucc : l.bound - l.read.length = pending + 1 := by omega
  rw [outcome, hsucc, operations_succ, round]
  cases d.next l.rest with
  | error e => rfl
  | ok next =>
    cases next with
    | unknown stop => simp [bind, Except.bind, Except.map]
    | operation op rest =>
      have hmore : (l.push op rest).bound - (l.push op rest).read.length =
          pending + op.declaredChildren := by
        simp only [push, List.length_append, List.length_singleton]
        omega
      simp only [bind, Except.bind, outcome, hmore]
      change _ = (d.operations (pending + op.declaredChildren) rest).map _
      cases d.operations (pending + op.declaredChildren) rest with
      | error e => rfl
      | ok more => simp [push, Except.map]

theorem run_of_full (h : ¬l.read.length < l.bound) (limit : Nat) :
    l.run d limit = some (0, .ok (l.read, none)) := by
  cases limit <;> rw [run, if_neg h]

/-- The loop ends by itself, however far it is let go, in as many rounds as there are bytes and one
more: the one that finds no bytes left. -/
theorem exists_run (d : Decoder) (l : Loop) :
    ∃ rounds ≤ l.rest.remaining + 1, ∀ limit ≥ rounds,
      l.run d limit = some (rounds, l.outcome d) := by
  -- the bound may grow in every round, so the induction is on the bytes that are left
  induction hsize : l.rest.remaining using Nat.strongRecOn generalizing l with
  | _ size ih =>
    by_cases hasked : l.read.length < l.bound
    · rw [outcome_of_asked hasked]
      cases hturn : l.round d with
      | left result =>
        refine ⟨1, Nat.le_add_left 1 size, fun limit hlimit ↦ ?_⟩
        obtain ⟨limit, rfl⟩ := Nat.exists_eq_succ_of_ne_zero (Nat.ne_of_gt hlimit)
        rw [run, if_pos hasked, hturn]
      | again more =>
        have hless : more.rest.remaining < size := hsize ▸ (spec_of_round hturn).2.2.2
        obtain ⟨rounds, hrounds, hrun⟩ := ih _ hless more rfl
        refine ⟨rounds + 1, by omega, fun limit hlimit ↦ ?_⟩
        obtain ⟨limit, rfl⟩ := Nat.exists_eq_succ_of_ne_zero (Nat.ne_zero_of_lt hlimit)
        rw [run, if_pos hasked, hturn]
        change (more.run d limit).map _ = _
        rw [hrun limit (Nat.le_of_succ_le_succ hlimit)]
        rfl
    · refine ⟨0, Nat.zero_le _, fun limit _ ↦ ?_⟩
      rw [run_of_full hasked, outcome_of_full hasked]

/-! ## What the rounds amount to -/

/-- So many rounds after the start: an operation was read in each of them, one after another, and
the bound counts those that the blocks among them announce. -/
structure Follows (d : Decoder) (declared : Nat) (r : ByteReader) (n : Nat) (l : Loop) :
    Prop where
  length : l.read.length = n
  bound : l.bound = declared + announced l.read
  reads : d.Reads r l.read l.rest

theorem follows_start (d : Decoder) (declared : Nat) (r : ByteReader) :
    (start declared r).Follows d declared r 0 :=
  ⟨rfl, rfl, .nil r⟩

theorem Follows.again (h : l.Follows d declared r n) (turn : l.round d = .again l') :
    l'.Follows d declared r (n + 1) := by
  obtain ⟨op, rest, hnext, rfl⟩ := exists_next_of_round turn
  refine ⟨?_, ?_, h.reads.concat hnext⟩
  · rw [push, List.length_append, h.length, List.length_singleton]
  · simp only [push, announced_append, announced_cons, announced_nil, h.bound]
    omega

theorem follows_of_reaches (h : (start declared r).Reaches d n l) :
    l.Follows d declared r n := by
  induction h with
  | refl => exact follows_start d declared r
  | again before asked turn ih => exact ih.again turn

theorem Follows.bytes (h : l.Follows d declared r n) : n + l.rest.remaining ≤ r.remaining :=
  h.length ▸ h.reads.length_add_remaining_le

theorem Follows.bound_le (h : l.Follows d declared r n) : l.bound ≤ declared + 255 * n := by
  rw [h.bound, ← h.length]
  exact Nat.add_le_add_left (announced_le l.read) declared

end Loop

/-! ## The whole payload -/

theorem spriteList_add_remaining {ids : List UInt16} {base : Nat} {payload : List UInt8}
    {s : ByteReader} (h : (ByteReader.ofBytes base payload).Takes
      (LittleEndian.u16 (UInt16.ofNat ids.length) ++ ids.flatMap LittleEndian.u16) s) :
    2 + 2 * ids.length + s.remaining = payload.length := by
  rw [← length_spriteList]
  exact h.remaining_eq.symm

/-- Decoding ends and cannot be inflated.  Behind a sprite list the loop ends in one round more than
there are bytes at most, with what decoding reads there; whatever it gets to on the way, each round
took a byte, with strict text those of the texts too, and the bound stays within the declared count
and 255 for each byte of the payload.  A round that does not end the loop adds one operation and at
most 255 to the bound, and leaves fewer bytes.  A program that is decoded has its operations behind
the sprite list within its payload, and no more of them than there are bytes there. -/
theorem decoding_is_bounded_by_payload (d : Decoder) (raw : RawProgram) :
    (∀ (count : UInt16) (ids : List UInt16) (r s : ByteReader),
      ByteReader.u16 (.ofBytes raw.payloadOffset raw.payload) = .ok (count, r) →
      spriteIds count.toNat r = .ok (ids, s) →
        2 + 2 * count.toNat + s.remaining = raw.payload.length ∧
        (∃ rounds ≤ s.remaining + 1, ∀ limit ≥ rounds,
          (Loop.start raw.declaredCount.toNat s).run d limit =
            some (rounds, d.operations raw.declaredCount.toNat s)) ∧
        ∀ (n : Nat) (l : Loop), (Loop.start raw.declaredCount.toNat s).Reaches d n l →
          l.read.length = n ∧
          n + l.rest.remaining ≤ s.remaining ∧
          (d.options.strictText = true →
            n + textLengthAll l.read + l.rest.remaining ≤ s.remaining) ∧
          l.bound ≤ 65535 + 255 * raw.payload.length) ∧
    (∀ l l' : Loop, l.round d = .again l' →
      l'.read.length = l.read.length + 1 ∧ l.bound ≤ l'.bound ∧ l'.bound ≤ l.bound + 255 ∧
        l'.rest.remaining < l.rest.remaining) ∧
    ∀ decoded : DecodedProgram, d.decodeRaw raw = .ok decoded →
      decoded.payload = raw.payload ∧
      (∃ count : UInt16, LittleEndian.u16 count <+: raw.payload ∧
        decoded.operationsStart = 2 + 2 * count.toNat) ∧
      decoded.operationsStart ≤ decoded.payload.length ∧
      decoded.operationsStart + decoded.toProgram.operationBytes.length =
        decoded.payload.length ∧
      decoded.operations.length ≤ decoded.payload.length - decoded.operationsStart ∧
      (d.options.strictText = true →
        decoded.operations.length + textLengthAll decoded.operations ≤
          decoded.payload.length - decoded.operationsStart) := by
  refine ⟨fun count ids r s hcount hids ↦ ?_, fun l l' ↦ Loop.spec_of_round,
    fun decoded hdecoded ↦ ?_⟩
  · have hlength := spriteList_add_remaining (spriteList_eq_ok_iff.1 ⟨count, r, hcount, hids⟩).2
    rw [(takes_of_spriteIds hids).1] at hlength
    refine ⟨hlength, ?_, fun n l hreaches ↦ ?_⟩
    · have hrun := Loop.exists_run d (Loop.start raw.declaredCount.toNat s)
      rwa [Loop.outcome_start] at hrun
    · have hfollows := Loop.follows_of_reaches hreaches
      have hbytes := hfollows.bytes
      have hbound := hfollows.bound_le
      have hdeclared : raw.declaredCount.toNat ≤ 65535 :=
        Nat.le_of_lt_succ raw.declaredCount.toNat_lt
      refine ⟨hfollows.length, hbytes, fun hstrict ↦ ?_, by omega⟩
      rw [← hfollows.length]
      exact hfollows.reads.length_add_texts_add_remaining_le hstrict
  · obtain ⟨ids, s, ops, stop, hids, hlist, hops, rfl⟩ := decodeRaw_eq_ok_iff.1 hdecoded
    obtain ⟨rest, hreads, -⟩ := reads_of_operations hops
    have hlength := spriteList_add_remaining hlist
    have hread := hreads.length_add_remaining_le
    refine ⟨rfl, ⟨UInt16.ofNat ids.length, ?_, ?_⟩, ?_, ?_, ?_, fun hstrict ↦ ?_⟩
    · obtain ⟨tail, htail⟩ := ByteReader.exists_takes_iff_prefix.1 ⟨s, hlist⟩
      exact ⟨_, (List.append_assoc ..).symm.trans htail⟩
    · rw [UInt16.toNat_ofNat_of_lt' (Nat.lt_succ_of_le hids)]
    · change 2 + 2 * ids.length ≤ raw.payload.length
      omega
    · change 2 + 2 * ids.length + (raw.payload.drop _).length = raw.payload.length
      rw [List.length_drop]
      change 2 + 2 * ids.length + (raw.payload.length - (2 + 2 * ids.length)) = _
      omega
    · change ops.length ≤ raw.payload.length - (2 + 2 * ids.length)
      omega
    · have htexts := hreads.length_add_texts_add_remaining_le hstrict
      change ops.length + textLengthAll ops ≤ raw.payload.length - (2 + 2 * ids.length)
      omega

/-- Behind a list of one sprite stand nine bytes: two blocks that announce 510 operations, a hint and
a byte that is no opcode.  With 511 operations to read after two rounds the loop still ends. -/
theorem decoding_is_bounded_by_payload_of_hostile_blocks :
    ∃ (raw : RawProgram) (r s : ByteReader) (l l' : Loop) (decoded : DecodedProgram),
      raw = ⟨7, 1, [1, 0, 5, 0, 0, 255, 0, 255, 27, 1, 0, 55, 99], 8⟩ ∧
      ByteReader.u16 (.ofBytes raw.payloadOffset raw.payload) = .ok (1, r) ∧
      spriteIds 1 r = .ok ([5], s) ∧ 4 + s.remaining = 13 ∧
      (Loop.start 1 s).Reaches {} 2 l ∧ l.bound = 511 ∧ l.bound ≤ 65535 + 255 * 13 ∧
      2 + textLengthAll l.read + l.rest.remaining ≤ s.remaining ∧
      l.round {} = .again l' ∧ l'.rest.remaining < l.rest.remaining ∧
      (∃ rounds ≤ 10, ∀ limit ≥ rounds, (Loop.start 1 s).run {} limit = some (rounds,
        .ok ([.block 255 [], .block 255 [], .leaf (.paintHint ⟨"7", none⟩)], some ⟨20, 99⟩))) ∧
      decodeRaw {} raw = .ok decoded ∧
      decoded.operationsStart + decoded.toProgram.operationBytes.length = 13 ∧
      decoded.operations.length + textLengthAll decoded.operations ≤ 9 := by
  let raw : RawProgram := ⟨7, 1, [1, 0, 5, 0, 0, 255, 0, 255, 27, 1, 0, 55, 99], 8⟩
  let blocks : List Operation := [.block 255 [], .block 255 []]
  let ops : List Operation := blocks ++ [.leaf (.paintHint ⟨"7", none⟩)]
  let s : ByteReader := ⟨12, [0, 255, 0, 255, 27, 1, 0, 55, 99]⟩
  let l₁ : Loop := ⟨[.block 255 []], 256, ⟨14, [0, 255, 27, 1, 0, 55, 99]⟩⟩
  let l : Loop := ⟨blocks, 511, ⟨16, [27, 1, 0, 55, 99]⟩⟩
  let l' : Loop := ⟨ops, 511, ⟨20, [99]⟩⟩
  let decoded : DecodedProgram := ⟨7, 1, [5], ops, raw.payload, 4, some ⟨20, 99⟩⟩
  have hcount : ByteReader.u16 (.ofBytes raw.payloadOffset raw.payload) =
      .ok (1, ⟨10, raw.payload.drop 2⟩) := by rfl
  have hids : spriteIds 1 ⟨10, raw.payload.drop 2⟩ = .ok ([5], s) := by rfl
  have hfirst : (Loop.start 1 s).round {} = .again l₁ := by cbv
  have hsecond : l₁.round {} = .again l := by cbv
  have hthird : l.round {} = .again l' := by cbv
  have hoperations : operations {} 1 s = .ok (ops, some ⟨20, 99⟩) := by cbv
  have hdecoded : decodeRaw {} raw = .ok decoded := by cbv
  have hreaches : (Loop.start 1 s).Reaches {} 2 l :=
    .again (.again .refl (by decide) hfirst) (by decide) hsecond
  obtain ⟨hlists, hrounds, hprograms⟩ := decoding_is_bounded_by_payload {} raw
  obtain ⟨hlength, hrun, hloops⟩ := hlists 1 [5] _ s hcount hids
  obtain ⟨-, -, htexts, hbound⟩ := hloops 2 l hreaches
  obtain ⟨-, -, -, hbytes, -, hops⟩ := hprograms decoded hdecoded
  change ∃ rounds ≤ 10, ∀ limit ≥ rounds, (Loop.start 1 s).run {} limit =
    some (rounds, operations {} 1 s) at hrun
  rw [hoperations] at hrun
  exact ⟨raw, _, s, l, l', decoded, rfl, hcount, hids, hlength, hreaches, rfl, hbound, htexts rfl,
    hthird, (hrounds l l' hthird).2.2.2, hrun, hdecoded, hbytes, hops rfl⟩

end Decoder

end DemoReel
