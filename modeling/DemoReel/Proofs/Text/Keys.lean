import DemoReel.Localization
import Mathlib.Data.List.Basic
import Mathlib.Data.List.Induction
import Mathlib.Data.List.TakeWhile
import Mathlib.Data.Nat.Digits.Defs

/-!
# Text keys

A text is blanks, digits and a rest, where blanks and digits go on as long as they can.  The digits
are read into a machine word, but what the text names is a matter of the number that they write,
however many they are: a number that does not fit the word is no known key either.
-/

namespace DemoReel

namespace Localization

/-- The number that decimal digits write. -/
def number (digits : List Char) : Nat :=
  Nat.ofDigits 10 (digits.reverse.map fun c ↦ c.toNat - '0'.toNat)

theorem number_append_singleton (digits : List Char) (c : Char) :
    number (digits ++ [c]) = 10 * number digits + (c.toNat - '0'.toNat) := by
  rw [number, List.reverse_append, List.reverse_singleton, List.singleton_append, List.map_cons,
    Nat.ofDigits_cons, number, Nat.add_comm]

/-- Zeros in front do not count. -/
theorem number_zeros_append (zeros : Nat) (digits : List Char) :
    number (List.replicate zeros '0' ++ digits) = number digits := by
  induction digits using List.reverseRecOn with
  | nil =>
    rw [List.append_nil, number, List.reverse_replicate, List.map_replicate, Nat.sub_self]
    induction zeros with
    | zero => rfl
    | succ zeros ih => rw [List.replicate_succ, Nat.ofDigits_cons, ih]; rfl
  | append_singleton digits c ih =>
    rw [← List.append_assoc, number_append_singleton, number_append_singleton, ih]

/-- A machine word takes the digits as long as the number fits, and then gives up for good. -/
theorem foldlM_pushDigit? (digits : List Char) :
    digits.foldlM pushDigit? 0 =
      if number digits < UInt64.size then some (UInt64.ofNat (number digits)) else none := by
  induction digits using List.reverseRecOn with
  | nil => rfl
  | append_singleton digits c ih =>
    have hlast (n : UInt64) : [c].foldlM pushDigit? n = pushDigit? n c := bind_pure _
    rw [List.foldlM_append, ih, number_append_singleton]
    simp only [hlast]
    by_cases hfits : number digits < UInt64.size
    · rw [if_pos hfits, Option.bind_eq_bind, Option.bind_some, pushDigit?,
        UInt64.toNat_ofNat_of_lt' hfits]
    · have hgrown : ¬10 * number digits + (c.toNat - '0'.toNat) < UInt64.size := by omega
      rw [if_neg hfits, if_neg hgrown]
      rfl

/-- The text taken apart: blanks and digits go on as long as they can. -/
structure Parts (raw : String) (blanks digits rest : List Char) : Prop where
  joined : raw.toList = blanks ++ digits ++ rest
  blank : ∀ c ∈ blanks, Text.isBlank c = true
  digit : ∀ c ∈ digits, c.isDigit = true
  blanks_end : ∀ c ∈ (digits ++ rest).head?, Text.isBlank c = false
  digits_end : ∀ c ∈ rest.head?, c.isDigit = false

section

variable {p : Char → Bool} {front back : List Char}

theorem takeWhile_append_of_end (hfront : ∀ c ∈ front, p c = true)
    (hback : ∀ c ∈ back.head?, p c = false) : (front ++ back).takeWhile p = front := by
  have hnone : back.takeWhile p = [] := by
    cases back with
    | nil => rfl
    | cons c back => rw [List.takeWhile_cons, hback c rfl]; rfl
  rw [List.takeWhile_append_of_pos hfront, hnone, List.append_nil]

theorem dropWhile_append_of_end (hfront : ∀ c ∈ front, p c = true)
    (hback : ∀ c ∈ back.head?, p c = false) : (front ++ back).dropWhile p = back := by
  rw [List.dropWhile_append_of_pos hfront]
  cases back with
  | nil => rfl
  | cons c back => rw [List.dropWhile_cons, hback c rfl]; rfl

theorem head?_dropWhile (p : Char → Bool) (text : List Char) :
    ∀ c ∈ (text.dropWhile p).head?, p c = false := by
  intro c hc
  have hstop := List.head?_dropWhile_not p text
  rw [Option.mem_def.1 hc] at hstop
  exact hstop

end

theorem exists_parts (raw : String) : ∃ blanks digits rest, Parts raw blanks digits rest := by
  let rest := raw.toList.dropWhile Text.isBlank
  have hrest : rest.takeWhile Char.isDigit ++ rest.dropWhile Char.isDigit = rest :=
    List.takeWhile_append_dropWhile
  refine ⟨raw.toList.takeWhile Text.isBlank, rest.takeWhile Char.isDigit,
    rest.dropWhile Char.isDigit, ?_, fun _ ↦ List.mem_takeWhile_imp,
    fun _ ↦ List.mem_takeWhile_imp, ?_, head?_dropWhile _ _⟩
  · rw [List.append_assoc, hrest, List.takeWhile_append_dropWhile]
  · rw [hrest]
    exact head?_dropWhile _ _

variable {raw : String} {blanks digits rest : List Char}

namespace Parts

theorem dropWhile_eq (h : Parts raw blanks digits rest) :
    raw.toList.dropWhile Text.isBlank = digits ++ rest := by
  rw [h.joined, List.append_assoc]
  exact dropWhile_append_of_end h.blank h.blanks_end

theorem takeWhile_dropWhile_eq (h : Parts raw blanks digits rest) :
    (raw.toList.dropWhile Text.isBlank).takeWhile Char.isDigit = digits := by
  rw [h.dropWhile_eq]
  exact takeWhile_append_of_end h.digit h.digits_end

/-- There is one way only to take a text apart. -/
theorem unique (h : Parts raw blanks digits rest) {blanks' digits' rest' : List Char}
    (h' : Parts raw blanks' digits' rest') :
    blanks' = blanks ∧ digits' = digits ∧ rest' = rest := by
  have hdigits : digits' = digits := h'.takeWhile_dropWhile_eq.symm.trans h.takeWhile_dropWhile_eq
  have hrest : rest' = rest := by
    have hafter := h'.dropWhile_eq.symm.trans h.dropWhile_eq
    rwa [hdigits, List.append_cancel_left_eq] at hafter
  have hblanks := h'.joined.symm.trans h.joined
  rw [hdigits, hrest, List.append_cancel_right_eq, List.append_cancel_right_eq] at hblanks
  exact ⟨hblanks, hdigits, hrest⟩

/-- What a text names is read off its digits. -/
theorem index?_eq (h : Parts raw blanks digits rest) :
    index? raw = if digits = [] then none else textKeyTable[number digits]? := by
  rw [index?, leadingDecimal?, h.takeWhile_dropWhile_eq]
  by_cases hdigits : digits = []
  · rw [if_pos hdigits, hdigits]
    rfl
  · rw [if_neg hdigits, if_neg (by simpa using hdigits), foldlM_pushDigit?]
    by_cases hfits : number digits < UInt64.size
    · rw [if_pos hfits, Option.bind_eq_bind, Option.bind_some, UInt64.toNat_ofNat_of_lt' hfits]
    · have hlength : textKeyTable.length ≤ number digits :=
        Nat.le_trans (by decide) (Nat.le_of_not_lt hfits)
      rw [if_neg hfits, List.getElem?_eq_none hlength]
      rfl

/-! ## Texts that are taken apart alike -/

theorem prepend (h : Parts raw blanks digits rest) {more : String}
    (hmore : ∀ c ∈ more.toList, Text.isBlank c = true) :
    Parts (more ++ raw) (more.toList ++ blanks) digits rest where
  joined := by simp only [String.toList_append, h.joined, List.append_assoc]
  blank := List.forall_mem_append.2 ⟨hmore, h.blank⟩
  digit := h.digit
  blanks_end := h.blanks_end
  digits_end := h.digits_end

theorem insertZeros (h : Parts raw blanks digits rest) (zeros : Nat) :
    Parts (.ofList (blanks ++ List.replicate zeros '0' ++ digits ++ rest)) blanks
      (List.replicate zeros '0' ++ digits) rest where
  joined := by simp only [String.toList_ofList, List.append_assoc]
  blank := h.blank
  digit := by
    refine List.forall_mem_append.2 ⟨fun c hc ↦ ?_, h.digit⟩
    rw [List.eq_of_mem_replicate hc]
    decide
  blanks_end := by
    cases zeros with
    | zero => exact h.blanks_end
    | succ zeros =>
      rintro c ⟨⟩
      decide
  digits_end := h.digits_end

/-- What comes behind a text that is not blank adds to its rest. -/
theorem append (h : Parts raw blanks digits rest) {more : String}
    (hmore : ∀ c ∈ more.toList.head?, c.isDigit = false)
    (hnonblank : ∃ c ∈ raw.toList, Text.isBlank c = false) :
    Parts (raw ++ more) blanks digits (rest ++ more.toList) where
  joined := by simp only [String.toList_append, h.joined, List.append_assoc]
  blank := h.blank
  digit := h.digit
  blanks_end := by
    have hrest : digits ++ rest ≠ [] := by
      obtain ⟨c, hc, hblank⟩ := hnonblank
      intro hnil
      rw [h.joined, List.append_assoc, hnil, List.append_nil] at hc
      cases (h.blank c hc).symm.trans hblank
    rw [← List.append_assoc, List.head?_append_of_ne_nil _ hrest]
    exact h.blanks_end
  digits_end := by
    cases rest with
    | nil => exact hmore
    | cons c rest => exact h.digits_end

end Parts

/-- The two texts name the same entry and resolve to the same string in every table. -/
def SameKey (raw raw' : String) : Prop :=
  index? raw = index? raw' ∧ ∀ table, resolve raw table = resolve raw' table

theorem SameKey.of_index? {raw raw' : String} (h : index? raw = index? raw') : SameKey raw raw' :=
  ⟨h, fun _ ↦ by rw [resolve, h, resolve]⟩

theorem SameKey.of_parts {raw' : String} {blanks' digits' rest' : List Char}
    (h : Parts raw blanks digits rest) (h' : Parts raw' blanks' digits' rest')
    (hnil : digits = [] ↔ digits' = []) (hnumber : number digits = number digits') :
    SameKey raw raw' :=
  .of_index? (by simp only [h.index?_eq, h'.index?_eq, hnil, hnumber])

theorem resolve_eq_none_iff {table : Option StringTable} :
    resolve raw table = none ↔ table = none ∨ index? raw = none := by
  rw [resolve]
  cases index? raw <;> cases table <;> simp [pure]

theorem resolve_of_index? {strings : StringTable} {index : Nat} (h : index? raw = some index) :
    resolve raw (some strings) = some (strings[index]?.getD missingString) := by
  rw [resolve, h]
  rfl

/-- The entry that a text names is that of the exact number of its digits, if it is a key at all.
With a table the text resolves to that entry, or to the stand-in where the table ends before it.
Blanks in front, zeros in front of the digits and anything but a digit behind make no difference;
only behind a text of nothing but blanks what follows is read as if it stood alone. -/
theorem text_keys_are_exact (raw : String) :
    ∃ blanks digits rest, Parts raw blanks digits rest ∧
      (∀ blanks' digits' rest', Parts raw blanks' digits' rest' →
        blanks' = blanks ∧ digits' = digits ∧ rest' = rest) ∧
      (index? raw = none ↔ digits = [] ∨ 38 < number digits) ∧
      (∀ index, index? raw = some index ↔
        digits ≠ [] ∧ number digits ≤ 38 ∧ textKeyTable[number digits]? = some index) ∧
      (∀ table, resolve raw table = none ↔ table = none ∨ index? raw = none) ∧
      (∀ (strings : StringTable) (index : Nat), index? raw = some index →
        (∀ h : index < strings.length, resolve raw (some strings) = some strings[index]) ∧
        (strings.length ≤ index → resolve raw (some strings) = some "null")) ∧
      (∀ more : String, (∀ c ∈ more.toList, Text.isBlank c = true) → SameKey (more ++ raw) raw) ∧
      (∀ zeros, digits ≠ [] →
        SameKey (.ofList (blanks ++ List.replicate zeros '0' ++ digits ++ rest)) raw) ∧
      (∀ more : String, (∀ c ∈ more.toList.head?, c.isDigit = false) →
        (∃ c ∈ raw.toList, Text.isBlank c = false) → SameKey (raw ++ more) raw) ∧
      ((∀ c ∈ raw.toList, Text.isBlank c = true) → ∀ more : String, SameKey (raw ++ more) more) := by
  obtain ⟨blanks, digits, rest, h⟩ := exists_parts raw
  have hlength : textKeyTable.length = 39 := by decide
  refine ⟨blanks, digits, rest, h, fun _ _ _ ↦ h.unique, ?_, fun index ↦ ?_,
    fun _ ↦ resolve_eq_none_iff, fun strings index hindex ↦ ⟨fun hinside ↦ ?_, fun hshort ↦ ?_⟩,
    fun more hmore ↦ ?_, fun zeros hdigits ↦ ?_, fun more hmore hnonblank ↦ ?_,
    fun hblank more ↦ ?_⟩
  · rw [h.index?_eq, ite_eq_left_iff, List.getElem?_eq_none_iff, hlength, ← or_iff_not_imp_left,
      Nat.succ_le_iff]
  · rw [h.index?_eq, Option.ite_none_left_eq_some, and_congr_right_iff]
    refine fun _ ↦ (and_iff_right_of_imp fun hentry ↦ ?_).symm
    have hinside := (List.getElem?_eq_some_iff.1 hentry).1
    omega
  · rw [resolve_of_index? hindex, List.getElem?_eq_getElem hinside, Option.getD_some]
  · rw [resolve_of_index? hindex, List.getElem?_eq_none hshort, Option.getD_none, missingString]
  · exact .of_parts (h.prepend hmore) h Iff.rfl rfl
  · exact .of_parts (h.insertZeros zeros) h (by simp [hdigits]) (number_zeros_append zeros digits)
  · exact .of_parts (h.append hmore hnonblank) h Iff.rfl rfl
  · obtain ⟨_, _, _, hmore⟩ := exists_parts more
    exact .of_parts (hmore.prepend hblank) hmore Iff.rfl rfl

/-- A key between blanks and other text, and one beyond the machine word. -/
theorem text_keys_are_exact_of_seven :
    index? "\u00a07 s" = some 115 ∧ index? "18446744073709551623" = none ∧
      SameKey ("\u2003" ++ "\u00a07 s") "\u00a07 s" ∧ SameKey "\u00a0007 s" "\u00a07 s" ∧
      SameKey ("\u00a07 s" ++ "\u00a08") "\u00a07 s" ∧ SameKey ("\u00a0" ++ "07") "07" := by
  have hparts : Parts "\u00a07 s" ['\u00a0'] ['7'] [' ', 's'] := by
    refine ⟨by decide, List.all_eq_true.1 (by decide), List.all_eq_true.1 (by decide), ?_, ?_⟩
    · rintro c ⟨⟩
      decide
    · rintro c ⟨⟩
      decide
  obtain ⟨blanks, digits, rest, -, hunique, -, hsome, -, -, hblanks, hzeros, hmore, -⟩ :=
    text_keys_are_exact "\u00a07 s"
  obtain ⟨rfl, rfl, rfl⟩ := hunique _ _ _ hparts
  have hlarge : Parts "18446744073709551623" [] "18446744073709551623".toList [] := by
    refine ⟨by decide, List.forall_mem_nil _, List.all_eq_true.1 (by decide), ?_, nofun⟩
    rintro c ⟨⟩
    decide
  obtain ⟨blanks, digits, rest, -, hunique, hnone, -⟩ := text_keys_are_exact "18446744073709551623"
  obtain ⟨rfl, rfl, rfl⟩ := hunique _ _ _ hlarge
  obtain ⟨_, _, _, -, -, -, -, -, -, -, -, -, hblank⟩ := text_keys_are_exact "\u00a0"
  have hspace : ∀ c ∈ "\u00a08".toList.head?, c.isDigit = false := by
    rintro c ⟨⟩
    decide
  exact ⟨(hsome 115).2 ⟨by decide, by decide, by decide⟩, hnone.2 (.inr (by decide)),
    hblanks "\u2003" (List.all_eq_true.1 (by decide)), hzeros 2 (by decide),
    hmore "\u00a08" hspace ⟨'7', by decide, by decide⟩,
    hblank (List.all_eq_true.1 (by decide)) "07"⟩

/-- Behind an empty text a blank and a key are read as the key, and the text does not stay without
a string. -/
theorem not_resolve_append :
    ¬∀ raw more : String, (∀ c ∈ more.toList.head?, c.isDigit = false) →
      ∀ table, resolve (raw ++ more) table = resolve raw table := by
  intro h
  have hspace : ∀ c ∈ " 7".toList.head?, c.isDigit = false := by
    rintro c ⟨⟩
    decide
  have hsame := h "" " 7" hspace (some [])
  revert hsame
  decide

end Localization

end DemoReel
