import DemoReel.Proofs.Playback.Pacing

/-!
# The tables of progress

Latches are set by blocks and pan origins by pans, at any depth, and both are given up by blocks
that are done, by operations that are done and by starting over.  At no time is anything left behind
from an operation that is over: an entry that outlived its operation would pass over a child, or
take a pan from a wrong origin, in the next pass.
-/

namespace DemoReel

open Playback (OpPath)

/-! ## Operations at paths -/

/-- The operation that a path leads to from another one. -/
def Operation.below? : Operation → List Nat → Option Operation
  | op, [] => some op
  | op, i :: path => op.children[i]?.bind (below? · path)

/-- The operation at a path of the forest. -/
def Forest.at? (forest : List Operation) : OpPath → Option Operation
  | [] => none
  | index :: path => forest[index]?.bind (·.below? path)

theorem Operation.below?_append (op : Operation) (path more : List Nat) :
    op.below? (path ++ more) = (op.below? path).bind (·.below? more) := by
  induction path generalizing op with
  | nil => rfl
  | cons i path ih =>
    rw [List.cons_append, below?, below?, Option.bind_assoc]
    exact congrArg (op.children[i]?.bind ·) (funext ih)

theorem Forest.at?_top {forest : List Operation} {index : Nat} {op : Operation}
    (h : forest[index]? = some op) (path : List Nat) :
    at? forest (OpPath.top index ++ path) = op.below? path := by
  rw [OpPath.top, List.singleton_append, at?, h, Option.bind_some]

/-- An operation below another one is a child of a block. -/
theorem Operation.exists_parent {op target : Operation} {path : List Nat} (hpath : path ≠ [])
    (h : op.below? path = some target) :
    ∃ before i childCount children, path = before ++ [i] ∧
      op.below? before = some (.block childCount children) ∧ children[i]? = some target := by
  obtain ⟨before, i, rfl⟩ := (List.eq_nil_or_concat' path).resolve_left hpath
  rw [below?_append, Option.bind_eq_some_iff] at h
  obtain ⟨parent, hparent, hchild⟩ := h
  rw [below?, Option.bind_eq_some_iff] at hchild
  obtain ⟨child, hget, hself⟩ := hchild
  obtain rfl : child = target := Option.some.inj hself
  cases parent with
  | leaf instruction => cases hget
  | block childCount children => exact ⟨before, i, childCount, children, rfl, hparent, hget⟩

namespace Playback

theorem OpPath.isWithin_append {rest : List Nat} (path : OpPath) (h : rest ≠ []) :
    isWithin (path ++ rest) path = true :=
  isWithin_iff.2 ⟨List.prefix_append path rest, by simpa using h⟩

namespace Progress

/-! ## Tidy tables -/

/-- Nothing below the path is latched. -/
def BareBelow (p : Progress) (path : OpPath) : Prop :=
  ∀ rest, rest ≠ [] → p.isLatched (path ++ rest) = false

/-- What the tables know about the operation at this path and those below it: there are latches at
operations only, none of them below another, and origins at pans only. -/
structure Tidy (p : Progress) (op : Operation) (path : OpPath) : Prop where
  latched : ∀ {rest}, rest ≠ [] → p.isLatched (path ++ rest) = true → (op.below? rest).isSome
  apart : ∀ {rest}, rest ≠ [] → p.isLatched (path ++ rest) = true → p.BareBelow (path ++ rest)
  origins : ∀ {rest origin}, p.panOrigin? (path ++ rest) = some origin →
    ∃ x y frameCount, op.below? rest = some (.leaf (.moveCamera x y frameCount))

/-- The same about the children of the block at the path, from position `index` on. -/
structure TidyFrom (p : Progress) (children : List Operation) (path : OpPath) (index : Nat) :
    Prop where
  latched : ∀ {j rest}, p.isLatched (path.child (index + j) ++ rest) = true →
    (children[j]?.bind (·.below? rest)).isSome
  apart : ∀ {j rest}, p.isLatched (path.child (index + j) ++ rest) = true →
    p.BareBelow (path.child (index + j) ++ rest)
  origins : ∀ {j rest origin}, p.panOrigin? (path.child (index + j) ++ rest) = some origin →
    ∃ x y frameCount,
      children[j]?.bind (·.below? rest) = some (.leaf (.moveCamera x y frameCount))

section

variable {p p' : Progress} {op child : Operation} {children : List Operation} {path : OpPath}
  {index : Nat}

theorem Tidy.of_fresh (hlatched : ∀ q, p.isLatched q = false)
    (horigins : ∀ q, p.panOrigin? q = none) : p.Tidy op path where
  latched _ h := absurd h (by simp [hlatched])
  apart _ h := absurd h (by simp [hlatched])
  origins h := absurd h (by simp [horigins])

/-- A latch at the path itself does not count. -/
theorem Tidy.congr (h : p.Tidy op path)
    (hlatched : ∀ rest, rest ≠ [] → p'.isLatched (path ++ rest) = p.isLatched (path ++ rest))
    (horigins : ∀ rest, p'.panOrigin? (path ++ rest) = p.panOrigin? (path ++ rest)) :
    p'.Tidy op path where
  latched hrest hl := h.latched hrest (hlatched _ hrest ▸ hl)
  apart {rest} hrest hl more hmore := by
    rw [List.append_assoc, hlatched _ (List.append_ne_nil_of_right_ne_nil rest hmore),
      ← List.append_assoc]
    exact h.apart hrest (hlatched _ hrest ▸ hl) more hmore
  origins ho := h.origins (horigins _ ▸ ho)

theorem TidyFrom.congr (h : p.TidyFrom children path index)
    (hsame : AgreesOn (path.FromChild index) p p') : p'.TidyFrom children path index := by
  have hfrom (j : Nat) (rest : List Nat) := hsame (path.child (index + j) ++ rest)
    ⟨index + j, Nat.le_add_right index j, List.prefix_append _ rest⟩
  refine ⟨fun {j rest} hl ↦ h.latched ((hfrom j rest).1 ▸ hl), fun {j rest} hl more hmore ↦ ?_,
    fun {j rest} origin ho ↦ h.origins ((hfrom j rest).2 ▸ ho)⟩
  rw [List.append_assoc, (hfrom j _).1, ← List.append_assoc]
  exact h.apart ((hfrom j rest).1 ▸ hl) more hmore

/-- The tables about a block are those about its children; it is no pan itself. -/
theorem tidy_block_iff {childCount : UInt8} :
    p.Tidy (.block childCount children) path ↔
      p.panOrigin? path = none ∧ p.TidyFrom children path 0 := by
  have hpath (j : Nat) (rest : List Nat) : path.child (0 + j) ++ rest = path ++ j :: rest := by
    rw [Nat.zero_add, OpPath.child, List.append_assoc, List.singleton_append]
  constructor
  · refine fun h ↦ ⟨?_, fun hl ↦ ?_, fun hl ↦ ?_, fun ho ↦ ?_⟩
    · refine Option.eq_none_iff_forall_ne_some.2 fun origin ho ↦ ?_
      obtain ⟨x, y, frameCount, hself⟩ := h.origins ((List.append_nil path).symm ▸ ho)
      cases hself
    · exact h.latched (List.cons_ne_nil _ _) (hpath _ _ ▸ hl)
    · rw [hpath] at hl ⊢
      exact h.apart (List.cons_ne_nil _ _) hl
    · exact h.origins (hpath _ _ ▸ ho)
  · rintro ⟨hself, h⟩
    refine ⟨fun {rest} hrest hl ↦ ?_, fun {rest} hrest hl ↦ ?_, fun {rest origin} ho ↦ ?_⟩
    · obtain ⟨j, rest, rfl⟩ := List.exists_cons_of_ne_nil hrest
      exact h.latched (hpath j rest ▸ hl)
    · obtain ⟨j, rest, rfl⟩ := List.exists_cons_of_ne_nil hrest
      rw [← hpath] at hl ⊢
      exact h.apart hl
    · cases rest with
      | nil =>
        rw [List.append_nil, hself] at ho
        cases ho
      | cons j rest => exact h.origins (hpath j rest ▸ ho)

/-- Where a child is latched, nothing below it is. -/
theorem tidyFrom_cons_iff :
    p.TidyFrom (child :: children) path index ↔
      (p.isLatched (path.child index) = true → p.BareBelow (path.child index)) ∧
        p.Tidy child (path.child index) ∧ p.TidyFrom children path (index + 1) := by
  have hlater (j : Nat) : index + 1 + j = index + (j + 1) := by omega
  constructor
  · refine fun h ↦ ⟨fun hl ↦ ?_, ⟨fun _ hl ↦ ?_, fun _ hl ↦ ?_, fun ho ↦ ?_⟩, fun hl ↦ ?_,
      fun hl ↦ ?_, fun ho ↦ ?_⟩
    · have hself := @TidyFrom.apart _ _ _ _ h 0 []
      rw [Nat.add_zero, List.append_nil] at hself
      exact hself hl
    · exact @TidyFrom.latched _ _ _ _ h 0 _ hl
    · exact @TidyFrom.apart _ _ _ _ h 0 _ hl
    · exact @TidyFrom.origins _ _ _ _ h 0 _ _ ho
    · exact h.latched (hlater _ ▸ hl)
    · rw [hlater] at hl ⊢
      exact h.apart hl
    · exact h.origins (hlater _ ▸ ho)
  · rintro ⟨hself, hchild, hrest⟩
    refine ⟨fun {j rest} hl ↦ ?_, fun {j rest} hl ↦ ?_, fun {j rest origin} ho ↦ ?_⟩
    · cases j with
      | zero =>
        cases rest with
        | nil => rfl
        | cons i rest => exact hchild.latched (List.cons_ne_nil i rest) hl
      | succ j => exact hrest.latched (hlater j ▸ hl)
    · cases j with
      | zero =>
        cases rest with
        | nil =>
          rw [Nat.add_zero, List.append_nil] at hl ⊢
          exact hself hl
        | cons i rest => exact hchild.apart (List.cons_ne_nil i rest) hl
      | succ j =>
        rw [← hlater] at hl ⊢
        exact hrest.apart hl
    · cases j with
      | zero => exact hchild.origins ho
      | succ j => exact hrest.origins (hlater j ▸ ho)

theorem bareBelow_of_tidy_leaf {instruction : Instruction} (h : p.Tidy (.leaf instruction) path) :
    p.BareBelow path := by
  intro rest hrest
  obtain ⟨i, rest, rfl⟩ := List.exists_cons_of_ne_nil hrest
  rw [← Bool.not_eq_true]
  intro hl
  cases h.latched hrest hl

theorem bareBelow_clearWithin (p : Progress) (path : OpPath) :
    (p.clearWithin path).BareBelow path :=
  fun _ hrest ↦ (clearWithin_of_isWithin (path.isWithin_append hrest)).1

end

end Progress

/-! ## What a step keeps -/

namespace Reel

open Progress

/-- Only a pan that is stepped notes an origin, and at its own path. -/
theorem tidy_stepLeaf {i : Instruction} {path : OpPath} {r : Reel}
    (h : r.progress.Tidy (.leaf i) path) :
    (stepLeaf i path r).2.progress.Tidy (.leaf i) path := by
  have hlatched (q : OpPath) :
      (stepLeaf i path r).2.progress.isLatched q = r.progress.isLatched q := by
    rw [isLatched, (progress_stepLeaf i path r).2.2, isLatched]
  by_cases hpan : ∃ x y frameCount, i = .moveCamera x y frameCount
  · refine ⟨fun hrest hl ↦ h.latched hrest (hlatched _ ▸ hl), fun _ _ _ hmore ↦ ?_,
      fun {rest origin} ho ↦ ?_⟩
    · rw [hlatched, List.append_assoc]
      exact bareBelow_of_tidy_leaf h _ (List.append_ne_nil_of_right_ne_nil _ hmore)
    · cases rest with
      | nil =>
        obtain ⟨x, y, frameCount, rfl⟩ := hpan
        exact ⟨x, y, frameCount, rfl⟩
      | cons j rest =>
        rw [panOrigin?_stepLeaf i path r (by simp)] at ho
        exact h.origins ho
  · refine h.congr (fun _ _ ↦ hlatched _) fun rest ↦ ?_
    cases i with
    | moveCamera x y frameCount => exact (hpan ⟨x, y, frameCount, rfl⟩).elim
    | _ => rfl

section

variable {child : Operation} {path : OpPath} {index : Nat} {r r' : Reel} {result : Outcome}

/-- The tables about a child when it was stepped and latched if it is done. -/
theorem tidy_latchIfDone (hkeeps : r.Keeps r' fun q ↦ q.isWithin (path.child index) = true)
    (hunlatched : r.progress.isLatched (path.child index) = false)
    (htidy : r'.progress.Tidy child (path.child index))
    (hbare : result.advance = true → r'.progress.BareBelow (path.child index)) :
    let p := (r'.latchIfDone (path.child index) result).progress
    (p.isLatched (path.child index) = true → p.BareBelow (path.child index)) ∧
      p.Tidy child (path.child index) := by
  have hbelow (more : List Nat) (hmore : more ≠ []) :
      (r'.latchIfDone (path.child index) result).progress.isLatched (path.child index ++ more) =
        r'.progress.isLatched (path.child index ++ more) :=
    (keeps_latchIfDone r' (path.child index) result).latches _ (by simpa using hmore)
  refine ⟨fun hl more hmore ↦ ?_, htidy.congr hbelow fun _ ↦ panOrigin?_latchIfDone _ _ _ _⟩
  cases hadvance : result.advance with
  | true => exact (hbelow more hmore).trans (hbare hadvance more hmore)
  | false =>
    rw [latchIfDone_of_wait hadvance, hkeeps.latches _ (by simp [OpPath.isWithin_self]),
      hunlatched] at hl
    cases hl

end

mutual

/-- A step keeps the tables tidy, also one that halts; and when the operation is done, nothing below
it is latched any more. -/
theorem tidy_step : ∀ {op : Operation} {path : OpPath} {r : Reel}, r.progress.Tidy op path →
    (step op path r).2.progress.Tidy op path ∧
      ((step op path r).1.advance = true → (step op path r).2.progress.BareBelow path)
  | .leaf i, path, r, h => by
    rw [step]
    exact ⟨tidy_stepLeaf h, fun _ ↦ bareBelow_of_tidy_leaf (tidy_stepLeaf h)⟩
  | .block childCount children, path, r, h => by
    obtain ⟨hself, hchildren⟩ := tidy_block_iff.1 h
    have hround : (stepChildren children path 0 .done r).2.progress.TidyFrom children path 0 :=
      tidyFrom_stepChildren hchildren
    have hnone : (stepChildren children path 0 .done r).2.progress.panOrigin? path = none := by
      rw [panOrigin?_stepChildren, hself]
      rw [← OpPath.isWithin_iff_fromChild, OpPath.isWithin_self]
      exact Bool.false_ne_true
    have htidy : (stepChildren children path 0 .done r).2.progress.Tidy (.block childCount children)
        path :=
      tidy_block_iff.2 ⟨hnone, hround⟩
    cases hadvance : (stepChildren children path 0 .done r).1.advance with
    | false =>
      rw [step_block_of_wait hadvance, hadvance]
      exact ⟨htidy, nofun⟩
    | true =>
      rw [step]
      dsimp only
      rw [if_pos hadvance]
      have hbare := bareBelow_clearWithin
        (stepChildren children path 0 .done r).2.progress path
      refine ⟨⟨fun hrest hl ↦ ?_, fun hrest hl ↦ ?_, fun {rest origin} ho ↦ ?_⟩, fun _ ↦ hbare⟩
      · exact absurd hl (by simp [hbare _ hrest])
      · exact absurd hl (by simp [hbare _ hrest])
      · cases rest with
        | nil =>
          rw [List.append_nil, panOrigin?_clearWithin (OpPath.isWithin_self path), hnone] at ho
          cases ho
        | cons j rest =>
          rw [(clearWithin_of_isWithin (path.isWithin_append (List.cons_ne_nil j rest))).2] at ho
          cases ho

theorem tidyFrom_stepChildren : ∀ {children : List Operation} {path : OpPath} {index : Nat}
    {outcome : Outcome} {r : Reel}, r.progress.TidyFrom children path index →
      (stepChildren children path index outcome r).2.progress.TidyFrom children path index
  | [], _, _, _, _, h => h
  | child :: rest, path, index, outcome, r, h => by
    obtain ⟨hself, hchild, hrest⟩ := tidyFrom_cons_iff.1 h
    -- the children after this one touch nothing at or below it
    have hpast {r' : Reel} (outcome : Outcome)
        (hself : r'.progress.isLatched (path.child index) = true →
          r'.progress.BareBelow (path.child index))
        (hchild : r'.progress.Tidy child (path.child index))
        (hrest : (stepChildren rest path (index + 1) outcome r').2.progress.TidyFrom rest path
          (index + 1)) :
        (stepChildren rest path (index + 1) outcome r').2.progress.TidyFrom (child :: rest) path
          index := by
      have hsame (more : List Nat) := agreesOn_stepChildren rest path index outcome r'
        (path.child index ++ more) (List.prefix_append _ more)
      refine tidyFrom_cons_iff.2 ⟨fun hl more hmore ↦ ?_, ?_, hrest⟩
      · have hnow := (agreesOn_stepChildren rest path index outcome r' _ (List.prefix_refl _)).1
        exact (hsame more).1.trans (hself (hnow ▸ hl) more hmore)
      · exact hchild.congr (fun more _ ↦ (hsame more).1) fun more ↦ (hsame more).2
    cases hlatched : r.progress.isLatched (path.child index) with
    | true =>
      rw [stepChildren_of_latched hlatched]
      exact hpast outcome hself hchild (tidyFrom_stepChildren hrest)
    | false =>
      have hkeeps := keeps_step child (path.child index) r
      obtain ⟨htidy, hbare⟩ := tidy_step hchild
      cases hhalt : (step child (path.child index) r).1.halt with
      | some error =>
        rw [stepChildren_of_halt hlatched hhalt]
        have hlater := agreesOn_latchIfDone child path index r (.halted error)
        rw [latchIfDone_of_wait rfl] at hlater
        refine tidyFrom_cons_iff.2 ⟨fun hl ↦ ?_, htidy, hrest.congr hlater⟩
        rw [hkeeps.latches _ (by simp [OpPath.isWithin_self]), hlatched] at hl
        cases hl
      | none =>
        rw [stepChildren_of_step hlatched hhalt]
        obtain ⟨hself', hchild'⟩ := tidy_latchIfDone hkeeps hlatched htidy hbare
        exact hpast _ hself' hchild' (tidyFrom_stepChildren
          (hrest.congr (agreesOn_latchIfDone child path index r _)))

end

end Reel

namespace Player

/-! ## What a run keeps -/

variable {forest : List Operation} {p : Player}

/-- The tables are tidy about the operation that is active, and hold nothing besides. -/
structure Tidied (p : Player) (op : Operation) : Prop where
  active : p.forest[p.index]? = some op
  tidy : p.reel.progress.Tidy op (.top p.index)
  latched : ∀ q, p.reel.progress.isLatched q = true → OpPath.isWithin q (.top p.index) = true
  origins : ∀ {q origin}, p.reel.progress.panOrigin? q = some origin → OpPath.top p.index <+: q

theorem Tidied.of_fresh {op : Operation} {index : Nat}
    (hprogress : p.reel.progress = { Progress.start with index := index })
    (hop : p.forest[index]? = some op) : p.Tidied op := by
  have hindex : p.index = index := congrArg Progress.index hprogress
  have hlatched (q : OpPath) : p.reel.progress.isLatched q = false := by
    rw [hprogress]
    exact Progress.isLatched_start q
  have horigins (q : OpPath) : p.reel.progress.panOrigin? q = none := by
    rw [hprogress]
    exact Progress.panOrigin?_start q
  exact ⟨hindex ▸ hop, .of_fresh hlatched horigins, fun q hl ↦ absurd hl (by simp [hlatched]),
    fun ho ↦ absurd ho (by simp [horigins])⟩

/-- Stepping the active operation keeps its tables, whether it is done or not, and also if it
halts. -/
theorem Tidied.step {op : Operation} {q : Player} (h : p.Tidied op) (hforest : q.forest = p.forest)
    (hindex : q.index = p.index)
    (hlatched : ∀ path, q.reel.progress.isLatched path =
      (Reel.step op (.top p.index) p.reel).2.progress.isLatched path)
    (horigins : ∀ path, q.reel.progress.panOrigin? path =
      (Reel.step op (.top p.index) p.reel).2.progress.panOrigin? path) : q.Tidied op where
  active := by rw [hforest, hindex, h.active]
  tidy := by
    rw [hindex]
    exact (Reel.tidy_step h.tidy).1.congr (fun _ _ ↦ hlatched _) fun _ ↦ horigins _
  latched path hl := by
    rw [hindex]
    by_contra hout
    rw [hlatched, (Reel.keeps_step op (.top p.index) p.reel).latches path hout] at hl
    exact hout (h.latched path hl)
  origins ho := by
    rw [hindex]
    by_contra hout
    rw [horigins, Reel.panOrigin?_step op (.top p.index) p.reel hout] at ho
    exact hout (h.origins ho)

theorem Tidied.link {op : Operation} (h : p.Tidied op) : ∃ op', p.link.player.Tidied op' := by
  cases p.linkCase with
  | idle active same =>
    rw [same]
    exact ⟨op, h⟩
  | halt active halt same =>
    obtain rfl := Option.some.inj (h.active.symm.trans active)
    rw [same]
    exact ⟨op, h.step rfl (Reel.keeps_step _ _ _).index (fun _ ↦ rfl) fun _ ↦ rfl⟩
  | wait active running advance same =>
    obtain rfl := Option.some.inj (h.active.symm.trans active)
    rw [same]
    exact ⟨op, h.step rfl (Reel.keeps_step _ _ _).index (fun _ ↦ rfl) fun _ ↦ rfl⟩
  | next active running advance lt same =>
    rw [same]
    exact ⟨p.forest[p.index + 1], .of_fresh rfl (Array.getElem?_eq_getElem lt)⟩
  | restart active running advance last same =>
    have hsize : 0 < p.forest.size := by omega
    rw [same]
    exact ⟨p.forest[0], .of_fresh rfl (Array.getElem?_eq_getElem hsize)⟩

theorem passInvariant_tidied : PassInvariant fun _ p ↦ ∃ op, p.Tidied op where
  link _ h := h.elim fun _ ↦ Tidied.link
  count _ h := h.imp fun _ h ↦ ⟨h.active, h.tidy, h.latched, h.origins⟩
  handOver h := h.imp fun _ h ↦ ⟨h.active, h.tidy, h.latched, h.origins⟩

theorem tidied_start {state : State} (hstart : start forest state = .ok p) :
    ∃ op, p.Tidied op := by
  obtain ⟨hforest, -, rfl⟩ := start_eq_ok hstart
  obtain ⟨op, rest, rfl⟩ := List.exists_cons_of_ne_nil hforest
  exact ⟨op, .of_fresh rfl rfl⟩

/-- Every entry of the tables belongs to the operation of the forest that is active, and to what it
stands for: a latch to a child of a block, and none of them to something below another, an origin to
a pan.  An operation begins without entries. -/
structure TablesFit (forest : List Operation) (p : Player) : Prop where
  latched : ∀ q, p.reel.progress.isLatched q = true →
    (OpPath.top p.index <+: q ∧ q ≠ OpPath.top p.index) ∧
      ∃ block i childCount children, q = OpPath.child block i ∧
        Forest.at? forest block = some (.block childCount children) ∧ i < children.length
  apart : ∀ q q', p.reel.progress.isLatched q = true → p.reel.progress.isLatched q' = true →
    q <+: q' → q = q'
  origins : ∀ q, (p.reel.progress.panOrigin? q).isSome → OpPath.top p.index <+: q ∧
    ∃ x y frameCount, Forest.at? forest q = some (.leaf (.moveCamera x y frameCount))
  fresh : p.halted = none → p.reel.progress.tick = 0 →
    p.reel.progress.latched = ∅ ∧ p.reel.progress.panOrigins = ∅

theorem Tidied.tablesFit {op : Operation} (h : p.Tidied op) (hpaced : p.Paced)
    (hforest : p.forest = forest.toArray) : p.TablesFit forest := by
  have hactive : forest[p.index]? = some op := by
    rw [← h.active, hforest, List.getElem?_toArray]
  -- a latch is below the active operation, by a path that is not empty
  have hbelow {q : OpPath} (hl : p.reel.progress.isLatched q = true) :
      ∃ rest, rest ≠ [] ∧ q = OpPath.top p.index ++ rest := by
    obtain ⟨⟨rest, rfl⟩, hne⟩ := OpPath.isWithin_iff.1 (h.latched q hl)
    exact ⟨rest, fun hnil ↦ hne (by rw [hnil, List.append_nil]), rfl⟩
  refine ⟨fun q hl ↦ ⟨OpPath.isWithin_iff.1 (h.latched q hl), ?_⟩, fun q q' hl hl' hprefix ↦ ?_,
    fun q ho ↦ ?_, fun hrun hzero ↦ ?_⟩
  · obtain ⟨rest, hrest, rfl⟩ := hbelow hl
    obtain ⟨target, htarget⟩ := Option.isSome_iff_exists.1 (h.tidy.latched hrest hl)
    obtain ⟨before, i, childCount, children, rfl, hblock, hchild⟩ :=
      Operation.exists_parent hrest htarget
    exact ⟨OpPath.top p.index ++ before, i, childCount, children,
      by rw [OpPath.child, List.append_assoc], (Forest.at?_top hactive before).trans hblock,
      (List.getElem?_eq_some_iff.1 hchild).1⟩
  · obtain ⟨rest, hrest, rfl⟩ := hbelow hl
    obtain ⟨more, rfl⟩ := hprefix
    by_cases hmore : more = []
    · rw [hmore, List.append_nil]
    · rw [h.tidy.apart hrest hl more hmore] at hl'
      cases hl'
  · obtain ⟨origin, horigin⟩ := Option.isSome_iff_exists.1 ho
    obtain ⟨rest, rfl⟩ := h.origins horigin
    refine ⟨List.prefix_append _ rest, ?_⟩
    rw [Forest.at?_top hactive]
    exact h.tidy.origins horigin
  · rw [hpaced.fresh hrun hzero]
    exact ⟨rfl, rfl⟩

/-- At any time of a run, halted or not, and before each operation that is stepped, the tables fit
the forest.  Clearing a block takes away what lies strictly below it, and nothing else. -/
theorem tables_never_go_stale {state : State} (hstart : start forest state = .ok p) (n : Nat) :
    (p.run n).2.TablesFit forest ∧ (∀ q ∈ moments n p, q.TablesFit forest) ∧
      ∀ (progress : Progress) (block path : OpPath),
        (block <+: path ∧ path ≠ block → (progress.clearWithin block).isLatched path = false ∧
          (progress.clearWithin block).panOrigin? path = none) ∧
        (¬(block <+: path ∧ path ≠ block) →
          (progress.clearWithin block).isLatched path = progress.isLatched path ∧
          (progress.clearWithin block).panOrigin? path = progress.panOrigin? path) := by
  have hforest : p.forest = forest.toArray := by
    obtain ⟨-, -, rfl⟩ := start_eq_ok hstart
    rfl
  refine ⟨?_, fun q hq ↦ ?_, fun progress block path ↦ ⟨fun hbelow ↦ ?_, fun hbelow ↦ ?_⟩⟩
  · obtain ⟨op, htidied⟩ := passInvariant_tidied.run (tidied_start hstart) n
    exact htidied.tablesFit (passInvariant_paced.run (paced_start hstart) n)
      ((forest_run n p).trans hforest)
  · obtain ⟨-, op, htidied⟩ := @PassInvariant.of_mem_moments p (fun _ p ↦ ∃ op, p.Tidied op) [] n
      passInvariant_tidied (tidied_start hstart) q hq
    exact htidied.tablesFit (paced_of_mem_moments hstart hq)
      ((forest_of_mem_moments hq).trans hforest)
  · exact Progress.clearWithin_of_isWithin (OpPath.isWithin_iff.2 hbelow)
  · have hout : path.isWithin block = false := by
      rw [← Bool.not_eq_true, OpPath.isWithin_iff]
      exact hbelow
    exact ⟨Progress.isLatched_clearWithin hout, Progress.panOrigin?_clearWithin hout⟩

/-- After a tick a child of each block is done and a pan is under way inside; two ticks later the
demo has started over, with nothing left of either. -/
theorem tables_never_go_stale_of_nested :
    let forest : List Operation := [.block 2 [.leaf (.delay 1),
      .block 2 [.leaf (.moveCamera 4 5 3), .leaf (.delay 1)]]]
    ∃ p, start forest (.initial {} blankStage (.solid 24 30 0) ∅) = .ok p ∧
      (p.run 1).2.reel.progress.isLatched [0, 0] = true ∧
      (p.run 1).2.reel.progress.isLatched [0, 1, 1] = true ∧
      ((p.run 1).2.reel.progress.panOrigin? [0, 1, 0]).isSome ∧
      (p.run 1).2.TablesFit forest ∧ (p.run 3).2.TablesFit forest ∧
      (p.run 3).2.reel.progress.latched = ∅ ∧ (p.run 3).2.reel.progress.panOrigins = ∅ := by
  intro forest
  obtain ⟨p, hstart, hchild, hinner, horigin, hhalted, htick⟩ : ∃ p,
      start forest (.initial {} blankStage (.solid 24 30 0) ∅) = .ok p ∧
      (p.run 1).2.reel.progress.isLatched [0, 0] = true ∧
      (p.run 1).2.reel.progress.isLatched [0, 1, 1] = true ∧
      ((p.run 1).2.reel.progress.panOrigin? [0, 1, 0]).isSome ∧
      (p.run 3).2.halted = none ∧ (p.run 3).2.reel.progress.tick = 0 :=
    ⟨_, rfl, by decide +kernel, by decide +kernel, by decide +kernel, by decide +kernel,
      by decide +kernel⟩
  have hlast := (tables_never_go_stale hstart 3).1
  exact ⟨p, hstart, hchild, hinner, horigin, (tables_never_go_stale hstart 1).1, hlast,
    hlast.fresh hhalted htick⟩

end Player

end Playback

end DemoReel
