import DemoReel.Text.Utf8

/-!
# UTF-8 text and its bytes

The machine splits the bytes of a text into its characters, and bytes that split into characters
only are those of the text that the characters make up.  Strict decoding thus accepts exactly what
encoding produces, and lenient decoding agrees with it there.
-/

namespace DemoReel.Utf8

/-! ## The bytes of a character, by its number -/

theorem toNat_ofNat {v : Nat} (h : v.isValidChar) : (Char.ofNat v).val.toNat = v := by
  have hchar : Char.ofNat v = Char.ofNatAux v h := dif_pos h
  exact congrArg (fun c : Char ↦ c.val.toNat) hchar

theorem encodeChar_one {v : Nat} (h : v < 0x80) :
    String.utf8EncodeChar (Char.ofNat v) = [UInt8.ofNat v] := by
  have hv : (Char.ofNat v).val.toNat = v := toNat_ofNat (by unfold Nat.isValidChar; omega)
  simp only [String.utf8EncodeChar, hv]
  rw [if_pos (by omega)]

theorem encodeChar_two {v : Nat} (hlow : 0x80 ≤ v) (hhigh : v < 0x800) :
    String.utf8EncodeChar (Char.ofNat v) =
      [UInt8.ofNat (v / 64 + 0xC0), UInt8.ofNat (v % 64 + 0x80)] := by
  have hv : (Char.ofNat v).val.toNat = v := toNat_ofNat (by unfold Nat.isValidChar; omega)
  simp only [String.utf8EncodeChar, hv]
  rw [if_neg (by omega), if_pos (by omega), Nat.mod_eq_of_lt (by omega : v / 64 < 32)]

theorem encodeChar_three {v : Nat} (hlow : 0x800 ≤ v) (hhigh : v < 0x10000)
    (hvalid : v.isValidChar) :
    String.utf8EncodeChar (Char.ofNat v) =
      [UInt8.ofNat (v / 4096 + 0xE0), UInt8.ofNat (v / 64 % 64 + 0x80),
        UInt8.ofNat (v % 64 + 0x80)] := by
  simp only [String.utf8EncodeChar, toNat_ofNat hvalid]
  rw [if_neg (by omega), if_neg (by omega), if_pos (by omega),
    Nat.mod_eq_of_lt (by omega : v / 4096 < 16)]

theorem encodeChar_four {v : Nat} (hlow : 0x10000 ≤ v) (hhigh : v < 0x110000) :
    String.utf8EncodeChar (Char.ofNat v) =
      [UInt8.ofNat (v / 262144 + 0xF0), UInt8.ofNat (v / 4096 % 64 + 0x80),
        UInt8.ofNat (v / 64 % 64 + 0x80), UInt8.ofNat (v % 64 + 0x80)] := by
  have hv : (Char.ofNat v).val.toNat = v := toNat_ofNat (by unfold Nat.isValidChar; omega)
  simp only [String.utf8EncodeChar, hv]
  rw [if_neg (by omega), if_neg (by omega), if_neg (by omega),
    Nat.mod_eq_of_lt (by omega : v / 262144 < 8)]

/-! ## What the first byte of a character asks for -/

theorem lead_one {b : Nat} (h : b < 0x80) : lead b = ([.char (Char.ofNat b)], none) := by
  unfold lead
  rw [if_pos h]

theorem lead_illFormed {b : Nat} (h : 0x80 ≤ b ∧ b < 0xC2 ∨ 0xF5 ≤ b) :
    lead b = ([.illFormed 1], none) := by
  unfold lead
  cases h with
  | inl h => rw [if_neg (by omega), if_pos h.2]
  | inr h =>
    rw [if_neg (by omega), if_neg (by omega), if_neg (by omega), if_neg (by omega),
      if_neg (by omega), if_neg (by omega), if_neg (by omega), if_neg (by omega),
      if_neg (by omega)]

theorem lead_two {b : Nat} (hlow : 0xC2 ≤ b) (hhigh : b < 0xE0) :
    lead b = ([], some ⟨1, 0x80, 0xBF, b - 0xC0, 1⟩) := by
  unfold lead
  rw [if_neg (by omega), if_neg (by omega), if_pos hhigh]

theorem lead_three {b : Nat} (hlow : 0xE0 ≤ b) (hhigh : b < 0xF0) :
    lead b = ([], some ⟨2, if b = 0xE0 then 0xA0 else 0x80, if b = 0xED then 0x9F else 0xBF,
      b - 0xE0, 1⟩) := by
  unfold lead
  rw [if_neg (by omega), if_neg (by omega), if_neg (by omega)]
  by_cases hfirst : b = 0xE0
  · subst hfirst
    rfl
  by_cases hsurrogate : b = 0xED
  · subst hsurrogate
    rfl
  rw [if_neg hfirst, if_neg hsurrogate, if_pos hhigh, if_neg hfirst, if_neg hsurrogate]

theorem lead_four {b : Nat} (hlow : 0xF0 ≤ b) (hhigh : b < 0xF5) :
    lead b = ([], some ⟨3, if b = 0xF0 then 0x90 else 0x80, if b = 0xF4 then 0x8F else 0xBF,
      b - 0xF0, 1⟩) := by
  unfold lead
  rw [if_neg (by omega), if_neg (by omega), if_neg (by omega), if_neg (by omega),
    if_neg (by omega), if_neg (by omega)]
  by_cases hfirst : b = 0xF0
  · subst hfirst
    rfl
  by_cases hlast : b = 0xF4
  · subst hlast
    rfl
  rw [if_neg hfirst, if_pos (by omega), if_neg hfirst, if_neg hlast]

/-! ## One character at the front -/

theorem run_none_cons (b : UInt8) (bs : List UInt8) :
    run none (b :: bs) = (lead b.toNat).1 ++ run (lead b.toNat).2 bs := by
  simp [run, step]

theorem run_pending_cons {p : Pending} {b : UInt8} (hlow : p.low ≤ b.toNat)
    (hhigh : b.toNat ≤ p.high) (bs : List UInt8) :
    run (some p) (b :: bs) =
      if p.owed ≤ 1 then .char (Char.ofNat (p.value * 64 + (b.toNat - 0x80))) :: run none bs
      else run (some ⟨p.owed - 1, 0x80, 0xBF, p.value * 64 + (b.toNat - 0x80), p.seen + 1⟩) bs := by
  simp only [run, step, if_pos (And.intro hlow hhigh)]
  split <;> simp

theorem run_one {b : UInt8} (h : b.toNat < 0x80) (bs : List UInt8) :
    run none (b :: bs) = .char (Char.ofNat b.toNat) :: run none bs := by
  rw [run_none_cons, lead_one h]
  rfl

theorem run_two {b c : UInt8} (hb : 0xC2 ≤ b.toNat ∧ b.toNat < 0xE0)
    (hc : 0x80 ≤ c.toNat ∧ c.toNat ≤ 0xBF) (bs : List UInt8) :
    run none (b :: c :: bs) =
      .char (Char.ofNat ((b.toNat - 0xC0) * 64 + (c.toNat - 0x80))) :: run none bs := by
  rw [run_none_cons, lead_two hb.1 hb.2, List.nil_append, run_pending_cons hc.1 hc.2]
  rfl

/-- The second byte of three: overlong forms and surrogates are excluded. -/
def SecondOfThree (b c : Nat) : Prop :=
  (if b = 0xE0 then 0xA0 else 0x80) ≤ c ∧ c ≤ (if b = 0xED then 0x9F else 0xBF)

theorem run_three {b c d : UInt8} (hb : 0xE0 ≤ b.toNat ∧ b.toNat < 0xF0)
    (hc : SecondOfThree b.toNat c.toNat) (hd : 0x80 ≤ d.toNat ∧ d.toNat ≤ 0xBF)
    (bs : List UInt8) :
    run none (b :: c :: d :: bs) =
      .char (Char.ofNat (((b.toNat - 0xE0) * 64 + (c.toNat - 0x80)) * 64 + (d.toNat - 0x80))) ::
        run none bs := by
  rw [run_none_cons, lead_three hb.1 hb.2, List.nil_append, run_pending_cons hc.1 hc.2,
    if_neg (by simp), run_pending_cons hd.1 hd.2]
  rfl

/-- The second byte of four: overlong forms and numbers beyond the last character are excluded. -/
def SecondOfFour (b c : Nat) : Prop :=
  (if b = 0xF0 then 0x90 else 0x80) ≤ c ∧ c ≤ (if b = 0xF4 then 0x8F else 0xBF)

theorem run_four {b c d e : UInt8} (hb : 0xF0 ≤ b.toNat ∧ b.toNat < 0xF5)
    (hc : SecondOfFour b.toNat c.toNat) (hd : 0x80 ≤ d.toNat ∧ d.toNat ≤ 0xBF)
    (he : 0x80 ≤ e.toNat ∧ e.toNat ≤ 0xBF) (bs : List UInt8) :
    run none (b :: c :: d :: e :: bs) =
      .char (Char.ofNat ((((b.toNat - 0xF0) * 64 + (c.toNat - 0x80)) * 64 + (d.toNat - 0x80)) * 64 +
        (e.toNat - 0x80))) :: run none bs := by
  rw [run_none_cons, lead_four hb.1 hb.2, List.nil_append, run_pending_cons hc.1 hc.2,
    if_neg (by simp), run_pending_cons hd.1 hd.2, if_neg (by simp), run_pending_cons he.1 he.2]
  rfl

theorem run_encodeChar (c : Char) (bs : List UInt8) :
    run none (String.utf8EncodeChar c ++ bs) = .char c :: run none bs := by
  have hvalid : c.toNat.isValidChar := c.valid
  have hrange : c.toNat < 0xD800 ∨ 0xDFFF < c.toNat ∧ c.toNat < 0x110000 := hvalid
  have hc : c = Char.ofNat c.toNat := (Char.ofNat_toNat c).symm
  have hbyte {n : Nat} (h : n < 256) : (UInt8.ofNat n).toNat = n := UInt8.toNat_ofNat_of_lt' h
  generalize c.toNat = v at hvalid hrange hc
  subst hc
  by_cases hone : v < 0x80
  · rw [encodeChar_one hone, List.singleton_append, run_one (by rw [hbyte (by omega)]; omega),
      hbyte (by omega)]
  by_cases htwo : v < 0x800
  · have hlead := hbyte (n := v / 64 + 0xC0) (by omega)
    have hlast := hbyte (n := v % 64 + 0x80) (by omega)
    rw [encodeChar_two (by omega) htwo]
    refine (run_two (by omega) (by omega) bs).trans ?_
    rw [hlead, hlast, show (v / 64 + 0xC0 - 0xC0) * 64 + (v % 64 + 0x80 - 0x80) = v by omega]
  by_cases hthree : v < 0x10000
  · have hlead := hbyte (n := v / 4096 + 0xE0) (by omega)
    have hsecond := hbyte (n := v / 64 % 64 + 0x80) (by omega)
    have hlast := hbyte (n := v % 64 + 0x80) (by omega)
    rw [encodeChar_three (by omega) hthree hvalid]
    refine (run_three (by omega) ?_ (by omega) bs).trans ?_
    · unfold SecondOfThree
      constructor <;> split <;> omega
    · rw [hlead, hsecond, hlast, show ((v / 4096 + 0xE0 - 0xE0) * 64 +
        (v / 64 % 64 + 0x80 - 0x80)) * 64 + (v % 64 + 0x80 - 0x80) = v by omega]
  · have hlead := hbyte (n := v / 262144 + 0xF0) (by omega)
    have hsecond := hbyte (n := v / 4096 % 64 + 0x80) (by omega)
    have hthird := hbyte (n := v / 64 % 64 + 0x80) (by omega)
    have hlast := hbyte (n := v % 64 + 0x80) (by omega)
    rw [encodeChar_four (by omega) (by omega)]
    refine (run_four (by omega) ?_ (by omega) (by omega) bs).trans ?_
    · unfold SecondOfFour
      constructor <;> split <;> omega
    · rw [hlead, hsecond, hthird, hlast, show (((v / 262144 + 0xF0 - 0xF0) * 64 +
        (v / 4096 % 64 + 0x80 - 0x80)) * 64 + (v / 64 % 64 + 0x80 - 0x80)) * 64 +
        (v % 64 + 0x80 - 0x80) = v by omega]

/-! ## Byte strings made of characters only -/

/-- Every stretch is a character. -/
def AllChars (ps : List Piece) : Prop := ∀ p ∈ ps, ∃ c, p = .char c

theorem firstFault_eq_none_iff {before : Nat} {ps : List Piece} :
    firstFault before ps = none ↔ AllChars ps := by
  induction ps generalizing before with
  | nil => simp [firstFault, AllChars]
  | cons p ps ih =>
    cases p with
    | char c => simpa [firstFault, AllChars] using ih
    | illFormed width => simp [firstFault, AllChars]
    | incomplete => simp [firstFault, AllChars]

/-- The first stretch, if there is one, is a character. -/
def FirstIsChar (ps : List Piece) : Prop := ∀ p, ps.head? = some p → ∃ c, p = .char c

theorem AllChars.first {ps : List Piece} (h : AllChars ps) : FirstIsChar ps :=
  fun p hp ↦ h p (List.mem_of_mem_head? hp)

/-- A character under way goes on with a byte in its range. -/
theorem pending_cons_of_first {p : Pending} {bs : List UInt8} (h : FirstIsChar (run (some p) bs)) :
    ∃ b rest, bs = b :: rest ∧ p.low ≤ b.toNat ∧ b.toNat ≤ p.high := by
  cases bs with
  | nil => simp [run, FirstIsChar] at h
  | cons b rest =>
    refine ⟨b, rest, rfl, Decidable.byContradiction fun hrange ↦ ?_⟩
    simp [run, step, if_neg hrange, FirstIsChar] at h

/-- The number of a character is that of its bytes. -/
theorem byte_eq {b : UInt8} {n : Nat} (h : n = b.toNat) : UInt8.ofNat n = b := by
  rw [h, UInt8.ofNat_toNat]

theorem front_of_first {b : UInt8} {bs : List UInt8} (h : FirstIsChar (run none (b :: bs))) :
    ∃ c rest, b :: bs = String.utf8EncodeChar c ++ rest := by
  have hb := b.toNat_lt
  have hfirst : ¬ (0x80 ≤ b.toNat ∧ b.toNat < 0xC2 ∨ 0xF5 ≤ b.toNat) := by
    intro hill
    rw [run_none_cons, lead_illFormed hill] at h
    simp [FirstIsChar] at h
  by_cases hone : b.toNat < 0x80
  · refine ⟨Char.ofNat b.toNat, bs, ?_⟩
    rw [encodeChar_one hone, byte_eq rfl, List.singleton_append]
  by_cases htwo : b.toNat < 0xE0
  · rw [run_none_cons, lead_two (by omega) htwo, List.nil_append] at h
    obtain ⟨c, rest, rfl, hc, hc'⟩ := pending_cons_of_first h
    simp only at hc hc'
    refine ⟨Char.ofNat ((b.toNat - 0xC0) * 64 + (c.toNat - 0x80)), rest, ?_⟩
    rw [encodeChar_two (by omega) (by omega), byte_eq (b := b) (by omega),
      byte_eq (b := c) (by omega)]
    rfl
  by_cases hthree : b.toNat < 0xF0
  · rw [run_none_cons, lead_three (by omega) hthree, List.nil_append] at h
    obtain ⟨c, rest, rfl, hc, hc'⟩ := pending_cons_of_first h
    rw [run_pending_cons hc hc', if_neg (by simp)] at h
    obtain ⟨d, rest, rfl, hd, hd'⟩ := pending_cons_of_first h
    simp only at hc hc' hd hd'
    have hlow : 0x80 ≤ c.toNat ∧ (b.toNat = 0xE0 → 0xA0 ≤ c.toNat) := by
      constructor <;> split at hc <;> omega
    have hhigh : c.toNat ≤ 0xBF ∧ (b.toNat = 0xED → c.toNat ≤ 0x9F) := by
      constructor <;> split at hc' <;> omega
    refine ⟨Char.ofNat (((b.toNat - 0xE0) * 64 + (c.toNat - 0x80)) * 64 + (d.toNat - 0x80)),
      rest, ?_⟩
    rw [encodeChar_three (by omega) (by omega) (by unfold Nat.isValidChar; omega),
      byte_eq (b := b) (by omega), byte_eq (b := c) (by omega), byte_eq (b := d) (by omega)]
    rfl
  · rw [run_none_cons, lead_four (by omega) (by omega), List.nil_append] at h
    obtain ⟨c, rest, rfl, hc, hc'⟩ := pending_cons_of_first h
    rw [run_pending_cons hc hc', if_neg (by simp)] at h
    obtain ⟨d, rest, rfl, hd, hd'⟩ := pending_cons_of_first h
    rw [run_pending_cons hd hd', if_neg (by simp)] at h
    obtain ⟨e, rest, rfl, he, he'⟩ := pending_cons_of_first h
    simp only at hc hc' hd hd' he he'
    have hlow : 0x80 ≤ c.toNat ∧ (b.toNat = 0xF0 → 0x90 ≤ c.toNat) := by
      constructor <;> split at hc <;> omega
    have hhigh : c.toNat ≤ 0xBF ∧ (b.toNat = 0xF4 → c.toNat ≤ 0x8F) := by
      constructor <;> split at hc' <;> omega
    refine ⟨Char.ofNat ((((b.toNat - 0xF0) * 64 + (c.toNat - 0x80)) * 64 + (d.toNat - 0x80)) * 64 +
      (e.toNat - 0x80)), rest, ?_⟩
    rw [encodeChar_four (by omega) (by omega), byte_eq (b := b) (by omega),
      byte_eq (b := c) (by omega), byte_eq (b := d) (by omega), byte_eq (b := e) (by omega)]
    rfl

/-! ## Texts and their bytes -/

theorem pieces_flatMap_encodeChar (cs : List Char) :
    pieces (cs.flatMap String.utf8EncodeChar) = cs.map .char := by
  unfold pieces
  induction cs with
  | nil => rfl
  | cons c cs ih => rw [List.flatMap_cons, run_encodeChar, ih, List.map_cons]

/-- By induction on the number of bytes, a character at a time. -/
theorem exists_chars_of_allChars {bs : List UInt8} (h : AllChars (pieces bs)) :
    ∃ cs : List Char, bs = cs.flatMap String.utf8EncodeChar := by
  unfold pieces at h
  induction hn : bs.length using Nat.strongRecOn generalizing bs with
  | ind n ih =>
    cases bs with
    | nil => exact ⟨[], rfl⟩
    | cons b bs =>
      obtain ⟨c, rest, hfront⟩ := front_of_first (AllChars.first h)
      rw [hfront, run_encodeChar] at h
      have hlength := congrArg List.length hfront
      rw [List.length_append, String.length_utf8EncodeChar] at hlength
      have hpos := c.utf8Size_pos
      obtain ⟨cs, rfl⟩ := ih rest.length (by omega) (fun p hp ↦ h p (List.mem_cons_of_mem _ hp)) rfl
      exact ⟨c :: cs, by rw [hfront, List.flatMap_cons]⟩

theorem decodeLossy_encode (text : String) : decodeLossy (encode text) = text := by
  unfold decodeLossy encode
  rw [pieces_flatMap_encodeChar, List.map_map]
  change String.ofList (text.toList.map id) = text
  rw [List.map_id, String.ofList_toList]

theorem decode_encode (text : String) : decode (encode text) = .ok text := by
  have hchars : AllChars (pieces (encode text)) := by
    unfold encode
    rw [pieces_flatMap_encodeChar]
    intro p hp
    obtain ⟨c, -, rfl⟩ := List.mem_map.1 hp
    exact ⟨c, rfl⟩
  unfold decode
  rw [firstFault_eq_none_iff.2 hchars]
  exact congrArg _ (decodeLossy_encode text)

/-- Strict decoding accepts exactly what encoding produces. -/
theorem decode_eq_ok_iff {bytes : List UInt8} {text : String} :
    decode bytes = .ok text ↔ bytes = encode text := by
  constructor
  · intro h
    have hnone : firstFault 0 (pieces bytes) = none := by
      unfold decode at h
      split at h
      · cases h
      · assumption
    obtain ⟨cs, hcs⟩ := exists_chars_of_allChars (firstFault_eq_none_iff.1 hnone)
    have hbytes : bytes = encode (String.ofList cs) := by
      rw [hcs, encode, String.toList_ofList]
    rw [hbytes, decode_encode] at h
    cases h
    exact hbytes
  · rintro rfl
    exact decode_encode text

/-! ## Text that was cut off -/

theorem length_lead (b : Nat) : (lead b).1.length + (lead b).2.isSome.toNat = 1 := by
  by_cases hone : b < 0x80
  · rw [lead_one hone]
    rfl
  by_cases hillFormed : b < 0xC2 ∨ 0xF5 ≤ b
  · rw [lead_illFormed (by omega)]
    rfl
  by_cases htwo : b < 0xE0
  · rw [lead_two (by omega) htwo]
    rfl
  by_cases hthree : b < 0xF0
  · rw [lead_three (by omega) hthree]
    rfl
  · rw [lead_four (by omega) (by omega)]
    rfl

theorem length_step_le (state : State) (b : Nat) :
    (step state b).1.length + (step state b).2.isSome.toNat ≤ 1 + state.isSome.toNat := by
  have hlead := length_lead b
  cases state with
  | none =>
    simp only [step]
    omega
  | some p =>
    simp only [step]
    split
    · split <;> simp
    · simp only [List.length_cons, Option.isSome_some, Bool.toNat_true]
      omega

/-- There are no more stretches than bytes. -/
theorem length_run_le (state : State) (bs : List UInt8) :
    (run state bs).length ≤ bs.length + state.isSome.toNat := by
  induction bs generalizing state with
  | nil => cases state <;> simp [run]
  | cons b bs ih =>
    have hstep := length_step_le state b.toNat
    have hrest := ih (step state b.toNat).2
    rw [run, List.length_append, List.length_cons]
    omega

theorem length_encodeChar_le (c : Char) : (String.utf8EncodeChar c).length ≤ 4 := by
  rw [String.length_utf8EncodeChar]
  exact c.utf8Size_le_four

theorem length_flatMap_encodeChar_le (cs : List Char) :
    (cs.flatMap String.utf8EncodeChar).length ≤ 4 * cs.length := by
  induction cs with
  | nil => simp
  | cons c cs ih =>
    have hwidth := length_encodeChar_le c
    rw [List.flatMap_cons, List.length_append, List.length_cons]
    omega

/-- Characters that come out whole from a front part of their encoding are nearly all in it: what is
cut off can only have been made up for by the bytes of one character begun. -/
theorem length_le_of_prefix {cs : List Char} {bs : List UInt8}
    (hwithin : bs <+: cs.flatMap String.utf8EncodeChar) (hlength : cs.length ≤ (pieces bs).length) :
    (cs.flatMap String.utf8EncodeChar).length ≤ bs.length + 12 := by
  induction cs generalizing bs with
  | nil => simp
  | cons c cs ih =>
    rw [List.flatMap_cons] at hwithin ⊢
    have hfront := List.prefix_append (String.utf8EncodeChar c) (cs.flatMap String.utf8EncodeChar)
    have hwidth := length_encodeChar_le c
    obtain hcut | hwhole := Nat.lt_or_ge bs.length (String.utf8EncodeChar c).length
    · have hpieces := length_run_le none bs
      rw [pieces] at hlength
      have hchars := length_flatMap_encodeChar_le cs
      simp only [List.length_cons, Option.isSome_none, Bool.toNat_false] at hlength hpieces
      rw [List.length_append]
      omega
    · obtain ⟨more, rfl⟩ := List.prefix_of_prefix_length_le hfront hwithin hwhole
      have hmore := (List.prefix_append_right_inj _).1 hwithin
      rw [pieces, run_encodeChar, List.length_cons, List.length_cons] at hlength
      have hrest := ih hmore (Nat.le_of_succ_le_succ hlength)
      simp only [List.length_append]
      omega

/-- A text that lenient decoding finds in a front part of its own encoding ends soon after it. -/
theorem length_encode_le {text : String} {bytes : List UInt8} (hwithin : bytes <+: encode text)
    (htext : decodeLossy bytes = text) : (encode text).length ≤ bytes.length + 12 := by
  have hlength : text.toList.length = (pieces bytes).length := by
    rw [← htext, decodeLossy, String.toList_ofList, List.length_map]
  exact length_le_of_prefix hwithin (Nat.le_of_eq hlength)

theorem decodeLossy_of_decode {bytes : List UInt8} {text : String} (h : decode bytes = .ok text) :
    decodeLossy bytes = text := by
  obtain rfl := decode_eq_ok_iff.1 h
  exact decodeLossy_encode text

/-! ## Where a byte string stops being UTF-8 -/

/-- The bytes before this place are a text, and no text reaches further: the first ill-formed
stretch starts here. -/
structure BreaksAt (bytes : List UInt8) (place : Nat) : Prop where
  inside : place < bytes.length
  valid : ∃ text, bytes.take place = encode text
  longest : ∀ text, encode text <+: bytes → (encode text).length ≤ place

theorem validLength_of_not_first {before : Nat} {ps : List Piece} {fault : Fault}
    (hfirst : ¬FirstIsChar ps) (h : firstFault before ps = some fault) :
    fault.validLength = before := by
  cases ps with
  | nil => exact (hfirst nofun).elim
  | cons p ps =>
    cases p with
    | char c =>
      refine (hfirst fun p hp ↦ ⟨c, ?_⟩).elim
      simpa using hp.symm
    | illFormed width =>
      cases h
      rfl
    | incomplete =>
      cases h
      rfl

/-- A byte string with a fault is a text up to it, and goes on with no character there. -/
theorem exists_chars_of_firstFault {before : Nat} {bs : List UInt8} {fault : Fault}
    (h : firstFault before (pieces bs) = some fault) :
    ∃ (cs : List Char) (rest : List UInt8), bs = cs.flatMap String.utf8EncodeChar ++ rest ∧
      fault.validLength = before + (cs.flatMap String.utf8EncodeChar).length ∧
      ¬FirstIsChar (pieces rest) := by
  induction hn : bs.length using Nat.strongRecOn generalizing before bs with
  | ind n ih =>
    by_cases hfirst : FirstIsChar (pieces bs)
    · cases bs with
      | nil => cases h
      | cons b bs =>
        obtain ⟨c, rest, hfront⟩ := front_of_first hfirst
        have hlength := congrArg List.length hfront
        have hpos := c.utf8Size_pos
        rw [List.length_append, String.length_utf8EncodeChar] at hlength
        rw [hfront, pieces, run_encodeChar, firstFault] at h
        obtain ⟨cs, behind, rfl, hvalid, hbehind⟩ := ih rest.length (by omega) h rfl
        refine ⟨c :: cs, behind, ?_, ?_, hbehind⟩
        · rw [hfront, List.flatMap_cons, List.append_assoc]
        · rw [hvalid, List.flatMap_cons, List.length_append, String.length_utf8EncodeChar,
            Nat.add_assoc]
    · exact ⟨[], bs, rfl, validLength_of_not_first hfirst h, hfirst⟩

/-- Where no character comes next, no text goes on. -/
theorem length_le_of_not_first {cs cs' : List Char} {rest : List UInt8}
    (hrest : ¬FirstIsChar (pieces rest))
    (h : cs'.flatMap String.utf8EncodeChar <+: cs.flatMap String.utf8EncodeChar ++ rest) :
    (cs'.flatMap String.utf8EncodeChar).length ≤ (cs.flatMap String.utf8EncodeChar).length := by
  induction cs generalizing cs' with
  | nil =>
    cases cs' with
    | nil => exact Nat.le_refl _
    | cons c' cs' =>
      obtain ⟨behind, hbehind⟩ := h
      rw [List.flatMap_nil, List.nil_append, List.flatMap_cons, List.append_assoc] at hbehind
      refine (hrest fun p hp ↦ ⟨c', ?_⟩).elim
      rw [← hbehind, pieces, run_encodeChar] at hp
      simpa using hp.symm
  | cons c cs ih =>
    cases cs' with
    | nil => exact Nat.zero_le _
    | cons c' cs' =>
      rw [List.flatMap_cons, List.flatMap_cons, List.append_assoc] at h
      obtain ⟨behind, hbehind⟩ := h
      -- both byte strings begin with the same character
      have hpieces := congrArg (run none) hbehind
      rw [List.append_assoc, run_encodeChar, run_encodeChar] at hpieces
      obtain rfl : c' = c := Piece.char.inj (List.cons.inj hpieces).1
      rw [List.append_assoc] at hbehind
      have hmore := ih ⟨behind, List.append_cancel_left hbehind⟩
      rw [List.flatMap_cons, List.flatMap_cons, List.length_append, List.length_append]
      exact Nat.add_le_add_left hmore _

/-- A fault is where the byte string stops being UTF-8. -/
theorem breaksAt_of_decode {bytes : List UInt8} {fault : Fault} (h : decode bytes = .error fault) :
    BreaksAt bytes fault.validLength := by
  have hfault : firstFault 0 (pieces bytes) = some fault := by
    unfold decode at h
    split at h
    · cases h
      assumption
    · cases h
  obtain ⟨cs, rest, rfl, hvalid, hrest⟩ := exists_chars_of_firstFault hfault
  rw [Nat.zero_add] at hvalid
  rw [hvalid]
  refine ⟨?_, ⟨String.ofList cs, ?_⟩, fun text htext ↦ length_le_of_not_first hrest htext⟩
  · have hne : rest ≠ [] := by
      rintro rfl
      exact hrest nofun
    rw [List.length_append]
    exact Nat.lt_add_of_pos_right (List.length_pos_iff.2 hne)
  · rw [List.take_left' rfl, encode, String.toList_ofList]

end DemoReel.Utf8
