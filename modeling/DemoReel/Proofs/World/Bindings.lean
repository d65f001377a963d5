import DemoReel.Settings.Document
import Mathlib.Data.Finset.Card

/-!
# The last binding counts

A table of bindings is changed one binding at a time, so what it says about a demo is what was said
last.  It holds nothing besides, and two tables that say the same about every demo are equal; hence
the order of bindings for different demos does not matter.
-/

namespace DemoReel

/-- The binding for the demo that comes last in the list. -/
def WorldBinding.last? (demoId : UInt16) (bindings : List WorldBinding) : Option WorldBinding :=
  bindings.findRev? fun binding ↦ binding.demoId == demoId

namespace WorldBindings

/-- A call that adds to a table. -/
inductive Change where
  | insert (binding : WorldBinding)
  | merge (more : List WorldBinding)

/-- The bindings that a call gives, in their order. -/
def Change.given : Change → List WorldBinding
  | insert binding => [binding]
  | merge more => more

def change (b : WorldBindings) : Change → WorldBindings
  | .insert binding => b.insert binding
  | .merge more => b.merge more

/-! ## Look-ups -/

variable {table : WorldBindings}

theorem ext_get? {b c : WorldBindings} (h : ∀ demoId, b.get? demoId = c.get? demoId) : b = c := by
  have hbyDemo : b.byDemo = c.byDemo := Std.ExtTreeMap.ext_getElem? h
  cases b
  cases c
  cases hbyDemo
  rfl

theorem get?_insert (b : WorldBindings) (binding : WorldBinding) (demoId : UInt16) :
    (b.insert binding).get? demoId =
      if binding.demoId = demoId then some binding else b.get? demoId := by
  simp only [get?, insert, Std.ExtTreeMap.getElem?_insert, Std.LawfulEqOrd.compare_eq_iff_eq]

theorem get?_merge (b : WorldBindings) (bindings : List WorldBinding) (demoId : UInt16) :
    (b.merge bindings).get? demoId = (WorldBinding.last? demoId bindings).or (b.get? demoId) := by
  induction bindings generalizing b with
  | nil => rfl
  | cons binding bindings ih =>
    have hfirst : (b.merge (binding :: bindings)).get? demoId =
        (WorldBinding.last? demoId bindings).or ((b.insert binding).get? demoId) :=
      ih (b.insert binding)
    rw [hfirst, get?_insert, WorldBinding.last?, WorldBinding.last?, List.findRev?]
    cases List.findRev? (fun other ↦ other.demoId == demoId) bindings with
    | some last => rfl
    | none => by_cases hid : binding.demoId = demoId <;> simp [hid]

/-- Calls one after another add their bindings one after another. -/
theorem foldl_change (b : WorldBindings) (changes : List Change) :
    changes.foldl change b = b.merge (changes.flatMap Change.given) := by
  induction changes generalizing b with
  | nil => rfl
  | cons first changes ih =>
    have happend (more : List WorldBinding) :
        b.merge (first.given ++ more) = (b.merge first.given).merge more := List.foldl_append
    have hfirst : b.change first = b.merge first.given := by cases first <;> rfl
    rw [List.foldl_cons, ih, hfirst, List.flatMap_cons, happend]

/-- A table is determined by what was said last about each demo. -/
theorem merge_congr (b : WorldBindings) {given given' : List WorldBinding}
    (h : ∀ demoId, WorldBinding.last? demoId given = WorldBinding.last? demoId given') :
    b.merge given = b.merge given' :=
  ext_get? fun demoId ↦ by rw [get?_merge, get?_merge, h]

theorem insert_comm (b : WorldBindings) {one other : WorldBinding}
    (h : one.demoId ≠ other.demoId) :
    (b.insert one).insert other = (b.insert other).insert one := by
  refine ext_get? fun demoId ↦ ?_
  simp only [get?_insert]
  by_cases hone : one.demoId = demoId
  · have hother : other.demoId ≠ demoId := fun hid ↦ h (hone.trans hid.symm)
    rw [if_neg hother, if_pos hone, if_pos hone]
  · rw [if_neg hone, if_neg hone]

/-! ## The bindings in order -/

theorem mem_toList {binding : WorldBinding} :
    binding ∈ table.toList ↔ table.get? binding.demoId = some binding := by
  simp only [toList, List.mem_map, Prod.exists, Std.ExtTreeMap.mem_toList_iff_getElem?_eq_some,
    exists_eq_right, get?]
  constructor
  · rintro ⟨demoId, h⟩
    rwa [table.demoId_eq h]
  · exact fun h ↦ ⟨_, h⟩

theorem pairwise_toList (table : WorldBindings) :
    table.toList.Pairwise fun b c ↦ b.demoId < c.demoId := by
  refine List.pairwise_map.2 (Std.ExtTreeMap.ordered_keys_toList.imp_of_mem fun hb hc hlt ↦ ?_)
  have hid {entry : UInt16 × WorldBinding} (hentry : entry ∈ table.byDemo.toList) :
      entry.2.demoId = entry.1 :=
    table.demoId_eq (Std.ExtTreeMap.mem_toList_iff_getElem?_eq_some.1 hentry)
  rw [hid hb, hid hc]
  exact Std.compare_eq_lt.1 hlt

theorem isSome_get?_iff {demoId : UInt16} :
    (table.get? demoId).isSome ↔ ∃ binding ∈ table.toList, binding.demoId = demoId := by
  rw [Option.isSome_iff_exists]
  constructor
  · rintro ⟨binding, h⟩
    have hid := table.demoId_eq h
    exact ⟨binding, mem_toList.2 (hid ▸ h), hid⟩
  · rintro ⟨binding, h, rfl⟩
    exact ⟨binding, mem_toList.1 h⟩

/-- The table counts the demos that it places. -/
theorem size_eq_card (table : WorldBindings) :
    table.size = (table.toList.map WorldBinding.demoId).toFinset.card := by
  have hnodup : (table.toList.map WorldBinding.demoId).Nodup :=
    List.pairwise_map.2 (table.pairwise_toList.imp fun hlt ↦ UInt16.ne_of_lt hlt)
  rw [List.toFinset_card_of_nodup hnodup, List.length_map, toList, List.length_map,
    Std.ExtTreeMap.length_toList, size]

theorem isSome_last?_iff {demoId : UInt16} {given : List WorldBinding} :
    (WorldBinding.last? demoId given).isSome ↔ ∃ binding ∈ given, binding.demoId = demoId := by
  rw [WorldBinding.last?, List.findRev?_eq_find?_reverse, List.find?_isSome]
  simp only [List.mem_reverse, beq_iff_eq]

end WorldBindings

/-! ## Settings files -/

/-- The placements that a settings file gives, one after another. -/
def Settings.worlds? (root : Toml.Entries) : Option (List WorldBinding) :=
  (root.lookup "worlds").elim (some []) fun node ↦ do
    (← node.items?).mapM WorldBinding.ofNode?

theorem Settings.worldBindings_of_ofEntries? {root : Toml.Entries} {settings : Settings}
    (h : ofEntries? root = some settings) :
    ∃ worlds, worlds? root = some worlds ∧ settings.worldBindings = .merge .standard worlds := by
  simp only [ofEntries?, Option.bind_eq_bind, Option.bind_eq_some_iff, Option.pure_def,
    Option.some.injEq] at h
  obtain ⟨playback, -, name, -, decode, -, bindings, hbindings, rfl⟩ := h
  -- what the standard placements are plays no part
  generalize WorldBindings.standard = usual at hbindings ⊢
  rw [worlds?]
  cases hnode : root.lookup "worlds" with
  | none =>
    rw [hnode, Option.elim_none, Option.some.injEq] at hbindings
    exact ⟨[], rfl, hbindings.symm⟩
  | some node =>
    simp only [hnode, Option.elim_some, Option.bind_eq_some_iff, Option.some.injEq] at hbindings
    obtain ⟨items, hitems, worlds, hworlds, rfl⟩ := hbindings
    refine ⟨worlds, ?_, rfl⟩
    rw [Option.elim_some, hitems, Option.bind_eq_bind, Option.bind_some, hworlds]

namespace WorldBindings

/-- After any calls, a demo has the binding that was given for it last, or else the one of the
start.  The list of a table holds just these bindings, each once and by ascending id, and the table
counts the demos of the start and of the calls.  Calls that give every demo the same last binding
lead to equal tables.  The table of a settings file is the standard one with the placements of the
file added. -/
theorem last_binding_counts (start : WorldBindings) (changes : List Change) :
    let given := changes.flatMap Change.given
    let table := changes.foldl change start
    (∀ demoId, table.get? demoId =
      (WorldBinding.last? demoId given).or (start.get? demoId)) ∧
    (∀ demoId binding, table.get? demoId = some binding → binding.demoId = demoId) ∧
    (∀ binding, binding ∈ table.toList ↔ table.get? binding.demoId = some binding) ∧
    (table.toList.Pairwise fun b c ↦ b.demoId < c.demoId) ∧
    table.size = ((start.toList ++ given).map WorldBinding.demoId).toFinset.card ∧
    (table.isEmpty = true ↔ table.size = 0) ∧
    (∀ others : List Change,
      (∀ demoId, WorldBinding.last? demoId (others.flatMap Change.given) =
        WorldBinding.last? demoId given) → others.foldl change start = table) ∧
    (∀ more, table.merge more = (more.map Change.insert).foldl change table) ∧
    (∀ one other, one.demoId ≠ other.demoId →
      (table.insert one).insert other = (table.insert other).insert one) ∧
    ∀ root settings, Settings.ofEntries? root = some settings →
      ∃ worlds, Settings.worlds? root = some worlds ∧
        settings.worldBindings = [Change.merge worlds].foldl change .standard := by
  intro given table
  have htable : table = start.merge given := foldl_change start changes
  refine ⟨fun demoId ↦ htable ▸ get?_merge start given demoId, fun _ _ ↦ table.demoId_eq,
    fun _ ↦ mem_toList, table.pairwise_toList, ?_, ?_, fun others h ↦ ?_, fun more ↦ ?_,
    fun _ _ ↦ table.insert_comm, fun _ _ ↦ Settings.worldBindings_of_ofEntries?⟩
  · rw [size_eq_card]
    congr 1
    ext demoId
    simp only [List.mem_toFinset, List.map_append, List.mem_append, List.mem_map,
      ← isSome_get?_iff, ← isSome_last?_iff]
    rw [htable, get?_merge, Option.isSome_or, Bool.or_eq_true, or_comm]
  · rw [isEmpty, size, Std.ExtTreeMap.isEmpty_eq_size_beq_zero, beq_iff_eq]
  · rw [foldl_change, htable]
    exact merge_congr start h
  · rw [foldl_change]
    congr 1
    induction more with
    | nil => rfl
    | cons binding more ih => exact congrArg (binding :: ·) ih

/-- A file that places demo 10 twice; the standard table has a place for demo 10 and none for demo
36. -/
def overridingEntries : Toml.Entries :=
  let placement (demoId stage : Int) : Toml.Node := .table .header
    [("demo_id", .integer demoId), ("world", .integer 0), ("stage", .integer stage),
      ("x", .integer 3), ("y", .integer 4)]
  [("worlds", .array [placement 10 1, placement 36 2, placement 10 5])]

/-- The second placement of demo 10 counts, and it makes no difference that there was a first one,
nor in what calls the placements came. -/
theorem last_binding_counts_of_override :
    let early : WorldBinding := ⟨10, 0, 1, 3, 4⟩
    let other : WorldBinding := ⟨36, 0, 2, 3, 4⟩
    let late : WorldBinding := ⟨10, 0, 5, 3, 4⟩
    let table := [Change.merge [early, other, late]].foldl change .standard
    table.get? 10 = some late ∧ table.get? 12 = none ∧ late ∈ table.toList ∧ table.size = 16 ∧
      [Change.insert late, .merge [other]].foldl change .standard = table ∧
      (table.insert early).insert other = (table.insert other).insert early ∧
      ∃ settings, Settings.ofEntries? overridingEntries = some settings ∧
        settings.worldBindings = table := by
  intro early other late table
  obtain ⟨hget, hid, hmem, -, hsize, -, hsame, -, hcomm, hsettings⟩ :=
    last_binding_counts .standard [.merge [early, other, late]]
  have hlate : table.get? 10 = some late := hget 10
  have hlast (demoId : UInt16) : WorldBinding.last? demoId [late, other] =
      WorldBinding.last? demoId [early, other, late] := by
    simp only [WorldBinding.last?, List.findRev?, early, other, late]
    by_cases hten : (10 : UInt16) = demoId
    · subst hten
      rfl
    · simp only [beq_eq_false_iff_ne.2 hten]
      rfl
  have hread : Settings.worlds? overridingEntries = some [early, other, late] := rfl
  obtain ⟨settings, hsettled⟩ : ∃ settings, Settings.ofEntries? overridingEntries = some settings :=
    ⟨_, rfl⟩
  obtain ⟨worlds, hworlds, htable⟩ := hsettings overridingEntries settings hsettled
  obtain rfl : worlds = [early, other, late] := Option.some.inj (hworlds.symm.trans hread)
  have hcount : ((WorldBindings.standard.toList ++ [early, other, late]).map
      WorldBinding.demoId).toFinset.card = 16 := by decide +kernel
  refine ⟨hlate, (hget 12).trans (by decide +kernel), (hmem late).2 ?_, hsize.trans hcount,
    hsame [.insert late, .merge [other]] hlast, hcomm early other (by decide), settings, hsettled,
    htable⟩
  rw [hid 10 late hlate]
  exact hlate

end WorldBindings

end DemoReel
