import DemoReel.Proofs.Playback.Moments
import DemoReel.Proofs.Playback.Passes

/-!
# Playback becomes periodic

The portrait is all that a pass leaves to the next one, and the first pass finds none.  From the
second restart on every pass begins, and therefore goes, like the one before, and so do its reports.
-/

namespace DemoReel.Playback

variable {image : UInt8 → UInt8 → StageLayers → Option StageImage}

theorem Scene.eq_of_sameElements {s s' : Scene} (h : s.SameElements s')
    (hpending : s'.pending = s.pending) : s' = s := by
  obtain ⟨elements, pending⟩ := s
  obtain ⟨elements', pending'⟩ := s'
  obtain rfl : pending' = pending := hpending
  have helements : elements' = elements := Std.ExtTreeMap.ext_getElem? (fun {id} ↦ h id)
  rw [helements]

/-- With equal scenes and the same camera reported last, only the number of renders is left. -/
theorem State.Alike.eq {s s' : State} (h : s.Alike (· = ·) s')
    (hreported : s'.reportedCamera = s.reportedCamera) :
    s' = { s with stage := { s.stage with renders := s'.stage.renders } } := by
  cases h with
  | intro scene renders reported related fixed =>
    subst related hreported
    rfl

namespace Player

variable {p p' : Player} {width : Nat}

/-! ## The third pass is like the second -/

/-- With the same portrait two passes begin with the same elements. -/
theorem AtStart.sameElements {kept : Option Element → Option Element → Prop} (h : p.AtStart image)
    (h' : p'.AtStart image) (halike : p.Alike (Scene.Besides kept) p')
    (hportrait : p'.reel.state.scene.get? ElementId.demoSprite =
      p.reel.state.scene.get? ElementId.demoSprite) : p.Alike Scene.SameElements p' := by
  refine halike.imp fun id ↦ ?_
  by_cases hid : id = ElementId.demoSprite
  · rw [hid, hportrait]
  · by_cases hid' : id = ElementId.decoration
    · rw [hid', h.state.others _ (by decide) (by decide) (by decide),
        h'.state.others _ (by decide) (by decide) (by decide)]
    · exact halike.reel.state.scene.others id hid hid'

theorem isSome_links (id : String) (hoverlay : id ∉ ElementId.overlays) (count : Nat)
    (h : (p.reel.state.scene.get? id).isSome) :
    ((links count p).reel.state.scene.get? id).isSome :=
  links_preserves (motive := fun q ↦ (q.reel.state.scene.get? id).isSome)
    (fun _ hq ↦ scene_link (motive := fun s ↦ (s.get? id).isSome)
      (fun _ _ habout ↦ Scene.isSome_get?_call habout hoverlay) hq) h count

/-- After two passes, a pass begins with the elements that the one before began with. -/
theorem sameElements_passes {count : Nat}
    (habsent : p.reel.state.scene.get? ElementId.demoSprite = none)
    (hstart : ∀ k ≤ 3, (links (k * count) p).AtStart image) :
    (links (2 * count) p).Alike Scene.SameElements (links (3 * count) p) := by
  have h0 : p.AtStart image := by simpa [links] using hstart 0 (by omega)
  have h1 : (links count p).AtStart image := by simpa using hstart 1 (by omega)
  have hsecond : links (2 * count) p = links count (links count p) := by
    rw [← links_add, Nat.two_mul]
  have hthird : links (3 * count) p = links count (links (2 * count) p) := by
    rw [← links_add]
    congr 1
    omega
  have h2 := hstart 2 (by omega)
  have h3 := hstart 3 (by omega)
  cases hportrait : (links count p).reel.state.scene.get? ElementId.demoSprite with
  | none =>
    -- a pass that leaves no portrait behind begins no later pass otherwise
    have halike : p.Alike (Scene.Besides (· = ·)) (links count p) :=
      h0.alike h1 (habsent.trans hportrait.symm)
    have hlater := (halike.links (Scene.similarity_besides Scene.keepsPortraits_eq) count).links
      (Scene.similarity_besides Scene.keepsPortraits_eq) count
    rw [← hsecond, ← hthird] at hlater
    exact h2.sameElements h3 hlater hlater.reel.state.scene.portrait.symm
  | some first =>
    have hsome := isSome_links (p := links count p) ElementId.demoSprite (by decide) count
      (by rw [hportrait]; rfl)
    rw [← hsecond] at hsome
    obtain ⟨first', hportrait'⟩ := Option.isSome_iff_exists.1 hsome
    have halike : (links count p).Alike
        (Scene.Besides (Option.Rel (Element.Settling first first'))) (links (2 * count) p) := by
      rw [hsecond] at h2 hportrait' ⊢
      refine h1.alike h2 ?_
      rw [hportrait, hportrait']
      exact .some (.refl first first')
    have hlater := halike.links (Scene.similarity_besides
      (Scene.keepsPortraits_settling first first')) count
    rw [← hsecond, ← hthird] at hlater
    have hsettling := hlater.reel.state.scene.portrait
    rw [hportrait'] at hsettling
    refine h2.sameElements h3 hlater ?_
    rw [hportrait']
    generalize (links (3 * count) p).reel.state.scene.get? ElementId.demoSprite = now at hsettling ⊢
    cases hsettling with
    | some h => rw [h.eq]

theorem sameElements_later {count done : Nat}
    (habsent : p.reel.state.scene.get? ElementId.demoSprite = none)
    (hstart : ∀ k ≤ 3, (links (k * count) p).AtStart image) (h : 2 * count ≤ done) :
    (links done p).Alike Scene.SameElements (links (done + count) p) := by
  obtain ⟨more, rfl⟩ := Nat.exists_eq_add_of_le h
  have hnext : 2 * count + more + count = 3 * count + more := by omega
  rw [hnext, links_add, links_add]
  exact (sameElements_passes habsent hstart).links Scene.similarity_sameElements more

/-! ## Ticks that are the same -/

theorem run_add (m n : Nat) (p : Player) : (p.run (m + n)).2 = ((p.run m).2.run n).2 := by
  induction n with
  | zero => rfl
  | succ n ih => rw [← Nat.add_assoc, run_succ, run_succ, ih]

theorem Same.run (h : p.Same p') (n : Nat) : (p.run n).2.Same (p'.run n).2 := by
  induction n with
  | zero => exact h
  | succ n ih =>
    rw [run_succ, run_succ]
    exact ih.tick.2

/-- When the commands are handed over, equal elements are all that is left to compare. -/
theorem Alike.same (h : p.Alike Scene.SameElements p') (hsettled : p.Settled)
    (hsettled' : p'.Settled) : p.Same p' := by
  refine ⟨h.imp (Scene.eq_of_sameElements h.reel.state.scene ?_).symm, ?_⟩
  · rw [hsettled'.1, hsettled.1]
  · rw [hsettled'.2, hsettled.2, h.reel.state.cameraPixel]

/-! ## Periods -/

/-- The ticks of a pass; a pass that takes no frame is over in one tick. -/
def period (width : Nat) (forest : List Operation) : Nat :=
  max 1 (forest.map (Operation.frames width)).sum

/-- A period later the cursor is at the same place of the next pass. -/
theorem place_period {forest : List Operation} (hwidth : width ≤ 2 ^ 30) (hfresh : p.Fresh width)
    (hforest : p.forest = forest.toArray)
    (hrun : (p.run (4 * period width forest)).2.halted = none) :
    2 ≤ p.restarts (3 * period width forest) ∧
      p.restarts (4 * period width forest) = p.restarts (3 * period width forest) + 1 ∧
      (p.run (4 * period width forest)).2.index = (p.run (3 * period width forest)).2.index ∧
      (p.run (4 * period width forest)).2.reel.progress.tick =
        (p.run (3 * period width forest)).2.reel.progress.tick := by
  have hframes : p.frames width = forest.map (Operation.frames width) := by rw [frames, hforest]
  have hbefore := running_of_le (m := 3 * period width forest) (by omega) hrun
  obtain hzero | hpos := Nat.eq_zero_or_pos (forest.map (Operation.frames width)).sum
  · obtain ⟨-, hfresh3, hcount3⟩ := run_of_sum_eq_zero hwidth hfresh (hframes ▸ hzero) hbefore
    obtain ⟨-, hfresh4, hcount4⟩ := run_of_sum_eq_zero hwidth hfresh (hframes ▸ hzero) hrun
    have hone : period width forest = 1 := by rw [period, hzero, Nat.max_zero]
    rw [hcount3, hcount4, hfresh3.index, hfresh4.index, hfresh3.tick, hfresh4.tick, hone]
    exact ⟨by omega, rfl, rfl, rfl⟩
  · have hperiod : period width forest = (p.frames width).sum := by
      rw [hframes, period, Nat.max_eq_right hpos]
    have hnext : 4 * (p.frames width).sum = 3 * (p.frames width).sum + (p.frames width).sum := by
      omega
    rw [← hframes] at hpos
    rw [hperiod, hnext] at hrun ⊢
    rw [hperiod] at hbefore
    obtain ⟨-, -, hplaced⟩ := placed_run hwidth hfresh hpos hbefore
    obtain ⟨-, -, hplaced'⟩ := placed_run hwidth hfresh hpos hrun
    obtain ⟨hindex, htick, hrestarts⟩ := hplaced.next_pass hplaced' (by omega) hpos
    refine ⟨Nat.le_of_mul_le_mul_right ?_ hpos, hrestarts, hindex, UInt32.toNat_inj.1 htick⟩
    have hcount := hplaced.count
    have hused := hplaced.used_le
    omega

/-- A demo that keeps to its frames is the same after three and after four periods. -/
theorem same_period {forest : List Operation} (hwidth : width ≤ 2 ^ 30) (hfresh : p.Fresh width)
    (hforest : p.forest = forest.toArray) (htrack : OnTrack image width p 0 p)
    (habsent : p.reel.state.scene.get? ElementId.demoSprite = none)
    (hrun : (p.run (4 * period width forest)).2.halted = none) :
    (p.run (3 * period width forest)).2.Same (p.run (4 * period width forest)).2 := by
  obtain ⟨hpassed, hrestarts, hindex, htick⟩ := place_period hwidth hfresh hforest hrun
  have hbefore := running_of_le (m := 3 * period width forest) (by omega) hrun
  have htrack3 := (invariant_onTrack hwidth p).run htrack hbefore
  have htrack4 := (invariant_onTrack hwidth p).run htrack hrun
  have hpos : 0 < period width forest := Nat.lt_of_lt_of_le Nat.zero_lt_one (Nat.le_max_left _ _)
  have hsettled {n : Nat} (hn : 0 < n) : (p.run n).2.Settled := by
    obtain ⟨m, rfl⟩ := Nat.exists_eq_add_one_of_ne_zero (Nat.ne_of_gt hn)
    obtain ⟨op, hunderway⟩ := hfresh.underway
    exact settled_run hunderway.running m
  refine Alike.same ?_ (hsettled (by omega)) (hsettled (by omega))
  have hdone : (p.run (4 * period width forest)).2.linksDone width =
      (p.run (3 * period width forest)).2.linksDone width := by
    have hcounts {n : Nat} : (p.run n).2.linkCounts width = p.linkCounts width := by
      rw [linkCounts, forest_run, linkCounts]
    rw [linksDone, linksDone, hcounts, hcounts, hindex, htick]
  have hlater := sameElements_later habsent (fun k hk ↦ htrack4.passes k (by omega))
    (Nat.le_add_right_of_le (Nat.mul_le_mul_right (p.linkCounts width).sum hpassed)
      (k := (p.run (3 * period width forest)).2.linksDone width))
  have halike := htrack3.alike
  have halike' := htrack4.alike
  rw [hdone, hrestarts, Nat.add_mul, Nat.one_mul, Nat.add_right_comm] at halike'
  have hback : (p.run (3 * period width forest)).2.Alike Scene.SameElements _ :=
    halike.symm halike.reel.state.scene.symm
  have hnext : (p.run (3 * period width forest)).2.Alike Scene.SameElements _ :=
    hback.trans hlater (hback.reel.state.scene.trans hlater.reel.state.scene)
  exact hnext.trans halike' (hnext.reel.state.scene.trans halike'.reel.state.scene)

/-! ## Started demos -/

variable {forest : List Operation} {config : Config} {stage : Stage} {hero : Raster}
  {sprites : SpriteCache}

theorem atStart_start (hstart : start forest (.initial config stage hero sprites) = .ok p)
    (hfixed : ∀ call, stage.renderer call = image) : p.AtStart image := by
  obtain ⟨-, -, hothers⟩ := elements_start hstart
  have hshows := showsStage_start hstart hfixed
  obtain ⟨-, -, rfl⟩ := start_eq_ok hstart
  exact ⟨rfl, rfl, State.atOrigin_resetWorld hshows (.inl rfl)
    fun id hstage hhero _ ↦ hothers id hhero hstage⟩

theorem onTrack_start (hstart : start forest (.initial config stage hero sprites) = .ok p)
    (hfixed : ∀ call, stage.renderer call = image) :
    OnTrack image config.viewportWidth.toNat p 0 p := by
  have hatStart := atStart_start hstart hfixed
  obtain ⟨-, -, hothers⟩ := elements_start hstart
  obtain ⟨op, hunderway⟩ := (fresh_start hstart).2.underway
  refine ⟨⟨op, hunderway, overlaysDue_start hstart op⟩, ⟨hatStart.state.stage, ?_, ?_⟩, ?_, ?_⟩
  · exact ⟨_, _, hatStart.state.hero⟩
  · intro id hid
    refine hothers id ?_ ?_
    · rintro rfl
      exact hid (by decide)
    · rintro rfl
      exact hid (by decide)
  · rintro k hk
    obtain rfl := Nat.le_zero.1 hk
    rw [Nat.zero_mul]
    exact hatStart
  · have hdone : p.linksDone config.viewportWidth.toNat = 0 := by
      rw [linksDone, index, hatStart.progress]
      rfl
    rw [hdone, Nat.zero_mul]
    exact ⟨rfl, rfl, rfl, .refl (fun _ ↦ rfl) hatStart.state.stage.fixed⟩

/-- With a renderer that gives the same image whenever it is asked, a demo that does not halt in its
first four periods is after them exactly where it was a period before: the cursor with its tables,
and all of the state but the number of renders.  It never halts, and from then on every report is
the one of a period before. -/
theorem playback_becomes_periodic
    (hstart : start forest (.initial config stage hero sprites) = .ok p)
    (hfixed : ∀ call, stage.renderer call = image) (hwidth : config.viewportWidth.toNat ≤ 2 ^ 30)
    (hrun : (p.run (4 * period config.viewportWidth.toNat forest)).2.halted = none) :
    let period := period config.viewportWidth.toNat forest
    let before := (p.run (3 * period)).2
    let after := (p.run (4 * period)).2
    after.reel.progress = before.reel.progress ∧
      after.reel.state = { before.reel.state with
        stage := { before.reel.state.stage with renders := after.reel.state.stage.renders } } ∧
      ∀ n, 3 * period ≤ n → (p.run n).2.halted = none ∧
        (p.run (n + period)).2.tick.1 = (p.run n).2.tick.1 := by
  intro period before after
  obtain ⟨hforest, hfresh⟩ := fresh_start hstart
  obtain ⟨-, -, hothers⟩ := elements_start hstart
  have hsame : before.Same after := same_period hwidth hfresh hforest (onTrack_start hstart hfixed)
    (hothers _ (by decide) (by decide)) hrun
  have hlater {n : Nat} (hn : 3 * period ≤ n) : (p.run n).2.Same (p.run (n + period)).2 := by
    obtain ⟨more, rfl⟩ := Nat.exists_eq_add_of_le hn
    have hnext : 3 * period + more + period = 4 * period + more := by omega
    rw [hnext, run_add, run_add]
    exact hsame.run more
  refine ⟨hsame.alike.reel.progress, hsame.alike.reel.state.eq hsame.reportedCamera,
    fun n hn ↦ ⟨?_, (hlater hn).tick.1⟩⟩
  have hpos : 0 < period := Nat.lt_of_lt_of_le Nat.zero_lt_one (Nat.le_max_left _ _)
  induction n using Nat.strongRecOn with
  | ind n ih =>
    by_cases hle : n ≤ 4 * period
    · exact running_of_le hle hrun
    · have hearlier : n - period + period = n := by omega
      have hhalted := (hlater (n := n - period) (by omega)).alike.halted
      rw [hearlier] at hhalted
      rw [hhalted]
      exact ih (n - period) (by omega) (by omega)

/-- The portrait is placed before there is one, and made by an operation that takes no frame.  It is
shown in the third pass only, and from then on the demo repeats itself. -/
theorem playback_becomes_periodic_of_portrait :
    ∃ p, start [.leaf (.setPosAndShow 10 20), .leaf (.delay 2), .leaf (.setDemoSprite 3 0)]
        (.initial {} blankStage (.solid 24 30 0)
          (.gather (fun _ ↦ some (.solid 1 1 0)) [⟨.portraitBackground, 0⟩, ⟨.portrait, 3⟩])) =
          .ok p ∧
      (p.run 12).2.halted = none ∧
      (p.run 3).2.reel.state.scene.contains ElementId.demoSprite = false ∧
      (p.run 6).2.reel.state.scene.contains ElementId.demoSprite = true ∧
      ∀ n, 9 ≤ n → (p.run (n + 3)).2.tick.1 = (p.run n).2.tick.1 := by
  obtain ⟨p, hstart, hrun, hbefore, hafter⟩ : ∃ p,
      start [.leaf (.setPosAndShow 10 20), .leaf (.delay 2), .leaf (.setDemoSprite 3 0)]
        (.initial {} blankStage (.solid 24 30 0)
          (.gather (fun _ ↦ some (.solid 1 1 0)) [⟨.portraitBackground, 0⟩, ⟨.portrait, 3⟩])) =
          .ok p ∧
      (p.run 12).2.halted = none ∧
      (p.run 3).2.reel.state.scene.contains ElementId.demoSprite = false ∧
      (p.run 6).2.reel.state.scene.contains ElementId.demoSprite = true :=
    ⟨_, rfl, by decide +kernel, by decide +kernel, by decide +kernel⟩
  refine ⟨p, hstart, hrun, hbefore, hafter, fun n hn ↦ ?_⟩
  exact ((playback_becomes_periodic hstart (fun _ ↦ rfl) (by decide) hrun).2.2 n hn).2

end Player

end DemoReel.Playback
