import DemoReel.Proofs.Playback.Chain

/-!
# The command stream mirrors the scene

A presentation layer that starts with nothing and obeys every command holds the elements of the
scene after every tick.  A command is issued only where it changes something, so none of them is
lost on a layer that obeys, and none is superfluous.
-/

namespace DemoReel.Playback

/-- What a presentation layer holds: elements by name, and the camera it was told of last. -/
structure Client where
  elements : Std.ExtTreeMap String Element
  camera : Option Point
deriving DecidableEq

namespace Client

def empty : Client := ⟨∅, none⟩

/-- Changes an element that is there. -/
def change (k : Client) (id : String) (f : Element → Element) : Client :=
  match k.elements[id]? with
  | none => k
  | some element => { k with elements := k.elements.insert id (f element) }

def apply (k : Client) : Command → Client
  | .upsert id element => { k with elements := k.elements.insert id element }
  | .remove id => { k with elements := k.elements.erase id }
  | .setVisible id visible => k.change id fun element ↦ { element with visible }
  | .setPosition id x y => k.change id fun element ↦ { element with x, y }
  | .pixelRun _ => k
  | .camera x y => { k with camera := some ⟨x, y⟩ }

/-- The command makes sense to the client: the element it removes or changes is there, and a change
of an element or of the camera is not to what it is already. -/
def Expects (k : Client) : Command → Prop
  | .upsert _ _ => True
  | .remove id => id ∈ k.elements
  | .setVisible id visible => ∃ element, k.elements[id]? = some element ∧ element.visible ≠ visible
  | .setPosition id x y =>
    ∃ element, k.elements[id]? = some element ∧ ¬(element.x = x ∧ element.y = y)
  | .pixelRun _ => True
  | .camera x y => k.camera ≠ some ⟨x, y⟩

def replay (k : Client) (commands : List Command) : Client := commands.foldl apply k

/-- Every command makes sense at its moment. -/
def ExpectsAll : Client → List Command → Prop
  | _, [] => True
  | k, command :: commands => k.Expects command ∧ ExpectsAll (k.apply command) commands

@[simp] theorem replay_cons (k : Client) (command : Command) (commands : List Command) :
    k.replay (command :: commands) = (k.apply command).replay commands := rfl

theorem replay_append (k : Client) (commands more : List Command) :
    k.replay (commands ++ more) = (k.replay commands).replay more :=
  List.foldl_append

theorem expectsAll_append {k : Client} {commands more : List Command} :
    k.ExpectsAll (commands ++ more) ↔
      k.ExpectsAll commands ∧ (k.replay commands).ExpectsAll more := by
  induction commands generalizing k with
  | nil => simp [ExpectsAll, replay]
  | cons command commands ih => simp [ExpectsAll, ih, and_assoc]

end Client

/-- The command is about an element. -/
def Command.OnElement : Command → Prop
  | upsert _ _ => True
  | remove _ => True
  | setVisible _ _ => True
  | setPosition _ _ _ => True
  | pixelRun _ => False
  | camera _ _ => False

namespace Client

@[simp] theorem camera_change (k : Client) (id : String) (f : Element → Element) :
    (k.change id f).camera = k.camera := by
  unfold change
  split <;> rfl

theorem camera_replay {k : Client} {commands : List Command}
    (h : ∀ command ∈ commands, command.OnElement) : (k.replay commands).camera = k.camera := by
  induction commands generalizing k with
  | nil => rfl
  | cons command commands ih =>
    obtain ⟨hcommand, hcommands⟩ := List.forall_mem_cons.1 h
    rw [replay_cons, ih hcommands]
    cases command with
    | upsert id element => rfl
    | remove id => rfl
    | setVisible id visible => exact camera_change k id _
    | setPosition id x y => exact camera_change k id _
    | pixelRun run => exact hcommand.elim
    | camera x y => exact hcommand.elim

/-- Beams touch nothing that is kept. -/
theorem replay_pixelRuns (k : Client) (runs : List PixelRun) :
    k.replay (runs.map .pixelRun) = k ∧ k.ExpectsAll (runs.map .pixelRun) := by
  induction runs with
  | nil => exact ⟨rfl, trivial⟩
  | cons run runs ih => exact ⟨ih.1, trivial, ih.2⟩

end Client

/-! ## Scene calls and their commands -/

namespace Scene

/-- On the way to the other scene these commands are issued.  A client with the elements of the
first scene expects them, and has those of the second one afterwards. -/
structure Tells (s : Scene) (commands : List Command) (s' : Scene) : Prop where
  pending : s'.pending.toList = s.pending.toList ++ commands
  onElement : ∀ command ∈ commands, command.OnElement
  elements : ∀ k : Client, k.elements = s.elements → (k.replay commands).elements = s'.elements
  expects : ∀ k : Client, k.elements = s.elements → k.ExpectsAll commands

namespace Tells

theorem refl (s : Scene) : s.Tells [] s where
  pending := (List.append_nil _).symm
  onElement := nofun
  elements := fun _ hk ↦ hk
  expects := fun _ _ ↦ trivial

theorem trans {s s' s'' : Scene} {commands more : List Command} (h : s.Tells commands s')
    (h' : s'.Tells more s'') : s.Tells (commands ++ more) s'' where
  pending := by rw [h'.pending, h.pending, List.append_assoc]
  onElement := fun command hcommand ↦
    (List.mem_append.1 hcommand).elim (h.onElement command) (h'.onElement command)
  elements := fun k hk ↦ by
    rw [Client.replay_append]
    exact h'.elements _ (h.elements k hk)
  expects := fun k hk ↦
    Client.expectsAll_append.2 ⟨h.expects k hk, h'.expects _ (h.elements k hk)⟩

/-- A call that issues one command. -/
theorem single {s : Scene} {command : Command} {elements : Std.ExtTreeMap String Element}
    (honElement : command.OnElement)
    (helements : ∀ k : Client, k.elements = s.elements → (k.apply command).elements = elements)
    (hexpects : ∀ k : Client, k.elements = s.elements → k.Expects command) :
    s.Tells [command] ⟨elements, s.pending.push command⟩ where
  pending := Array.toList_push
  onElement := by simpa using honElement
  elements := helements
  expects := fun k hk ↦ ⟨hexpects k hk, trivial⟩

end Tells

theorem tells_upsert (s : Scene) (id : String) (element : Element) :
    s.Tells [.upsert id element] (s.upsert id element) := by
  refine .single trivial (fun k hk ↦ ?_) (fun _ _ ↦ trivial)
  rw [Client.apply, hk]

theorem exists_tells_remove (s : Scene) (id : String) :
    ∃ commands, s.Tells commands (s.remove id) := by
  unfold remove
  split
  · next hid =>
    refine ⟨[.remove id], .single trivial (fun k hk ↦ ?_) (fun k hk ↦ ?_)⟩
    · rw [Client.apply, hk]
    · rw [Client.Expects, hk]
      exact hid
  · exact ⟨[], .refl s⟩

theorem exists_tells_setVisible (s : Scene) (id : String) (visible : Bool) :
    ∃ commands, s.Tells commands (s.setVisible id visible) := by
  unfold setVisible
  cases helement : s.get? id with
  | none => exact ⟨[], .refl s⟩
  | some element =>
    rw [get?] at helement
    dsimp only
    split
    · exact ⟨[], .refl s⟩
    · next hne =>
      refine ⟨[.setVisible id visible], .single trivial (fun k hk ↦ ?_) (fun k hk ↦ ?_)⟩
      · simp only [Client.apply, Client.change, hk, helement]
      · exact ⟨element, hk ▸ helement, hne⟩

theorem exists_tells_setPosition (s : Scene) (id : String) (x y : Int32) :
    ∃ commands, s.Tells commands (s.setPosition id x y) := by
  unfold setPosition
  cases helement : s.get? id with
  | none => exact ⟨[], .refl s⟩
  | some element =>
    rw [get?] at helement
    dsimp only
    split
    · exact ⟨[], .refl s⟩
    · next hne =>
      refine ⟨[.setPosition id x y], .single trivial (fun k hk ↦ ?_) (fun k hk ↦ ?_)⟩
      · simp only [Client.apply, Client.change, hk, helement]
      · exact ⟨element, hk ▸ helement, hne⟩

theorem exists_tells_call (s : Scene) (call : SceneCall) :
    ∃ commands, s.Tells commands (s.call call) := by
  cases call with
  | upsert id element => exact ⟨_, s.tells_upsert id element⟩
  | remove id => exact s.exists_tells_remove id
  | setVisible id visible => exact s.exists_tells_setVisible id visible
  | setPosition id x y => exact s.exists_tells_setPosition id x y

theorem Evolves.exists_tells {s s' : Scene} (h : s.Evolves s') :
    ∃ commands, s.Tells commands s' := by
  obtain ⟨calls, rfl⟩ := h
  induction calls generalizing s with
  | nil => exact ⟨[], .refl s⟩
  | cons call calls ih =>
    obtain ⟨commands, hcall⟩ := s.exists_tells_call call
    obtain ⟨more, hcalls⟩ := ih (s := s.call call)
    exact ⟨commands ++ more, hcall.trans hcalls⟩

/-! ## Clients in step with a scene -/

/-- The client lags behind the scene by the pending commands only. -/
structure Shadows (s : Scene) (k : Client) : Prop where
  onElement : ∀ command ∈ s.pending.toList, command.OnElement
  elements : (k.replay s.pending.toList).elements = s.elements
  expects : k.ExpectsAll s.pending.toList

theorem shadows_empty : Scene.empty.Shadows .empty := ⟨nofun, rfl, trivial⟩

theorem Shadows.evolves {s s' : Scene} {k : Client} (h : s.Shadows k) (hs : s.Evolves s') :
    s'.Shadows k := by
  obtain ⟨commands, htells⟩ := hs.exists_tells
  refine ⟨?_, ?_, ?_⟩
  · rw [htells.pending]
    exact fun command hcommand ↦
      (List.mem_append.1 hcommand).elim (h.onElement command) (htells.onElement command)
  · rw [htells.pending, Client.replay_append]
    exact htells.elements _ h.elements
  · rw [htells.pending]
    exact Client.expectsAll_append.2 ⟨h.expects, htells.expects _ h.elements⟩

/-- A client that obeys the drained commands is up to date. -/
theorem Shadows.drain {s : Scene} {k : Client} (h : s.Shadows k) :
    s.drain.2.Shadows (k.replay s.drain.1) :=
  ⟨nofun, h.elements, trivial⟩

/-- A call of the scene, or a drain of the commands issued so far. -/
inductive Event where
  | call (call : SceneCall)
  | drain
deriving DecidableEq, Repr

/-- The drained commands, in order, and the scene after all events. -/
def perform : List Event → Scene → List Command × Scene
  | [], s => ([], s)
  | .call call :: events, s => perform events (s.call call)
  | .drain :: events, s =>
    let (commands, s) := s.drain
    let (more, s) := perform events s
    (commands ++ more, s)

theorem Shadows.perform {s : Scene} {k : Client} (h : s.Shadows k) (events : List Event) :
    k.ExpectsAll (perform events s).1 ∧
      (perform events s).2.Shadows (k.replay (perform events s).1) := by
  induction events generalizing s k with
  | nil => exact ⟨trivial, h⟩
  | cons event events ih =>
    cases event with
    | call call => exact ih (h.evolves ⟨[call], rfl⟩)
    | drain =>
      obtain ⟨hexpects, hshadows⟩ := ih h.drain
      simp only [Scene.perform, Client.expectsAll_append, Client.replay_append]
      exact ⟨⟨h.expects, hexpects⟩, hshadows⟩

end Scene

/-! ## Clients in step with a player -/

/-- Changes of elements, then at most one camera, then exactly these beams. -/
def TickReport.Layered (report : TickReport) (runs : List PixelRun) : Prop :=
  ∃ changes moved, report.commands = changes ++ moved ++ runs.map .pixelRun ∧
    (∀ command ∈ changes, command.OnElement) ∧
    moved.length ≤ 1 ∧ ∀ command ∈ moved, ∃ x y, command = .camera x y

namespace State

/-- The client lags behind by the pending commands, and was told the camera reported last. -/
structure InStep (s : State) (k : Client) : Prop where
  scene : s.scene.Shadows k
  camera : k.camera = s.reportedCamera

variable {s s' : State} {k : Client}

theorem InStep.redraws (h : s.InStep k) (hs : s.Redraws s') : s'.InStep k :=
  ⟨h.scene.evolves hs.scene, h.camera.trans hs.reportedCamera.symm⟩

/-- The camera command of the tick that ends here. -/
def cameraMoved (s : State) : List Command :=
  if s.reportedCamera = some s.cameraPixel then []
  else [.camera s.cameraPixel.x s.cameraPixel.y]

theorem finishTick_commands (s : State) :
    s.finishTick.1 = s.scene.pending.toList ++ s.cameraMoved ++ s.pixelRuns.map .pixelRun :=
  rfl

theorem replay_cameraMoved (hcamera : k.camera = s.reportedCamera) :
    k.replay s.cameraMoved = { k with camera := some s.cameraPixel } ∧
      k.ExpectsAll s.cameraMoved := by
  unfold cameraMoved
  split
  · next h =>
    rw [← h, ← hcamera]
    exact ⟨rfl, trivial⟩
  · next h =>
    rw [← hcamera] at h
    exact ⟨rfl, h, trivial⟩

theorem InStep.finishTick (h : s.InStep k) :
    k.ExpectsAll s.finishTick.1 ∧ s.finishTick.2.InStep (k.replay s.finishTick.1) := by
  have hcamera : (k.replay s.scene.pending.toList).camera = s.reportedCamera :=
    (Client.camera_replay h.scene.onElement).trans h.camera
  obtain ⟨hmoved, hexpects⟩ := replay_cameraMoved hcamera
  obtain ⟨hruns, hexpectsRuns⟩ := Client.replay_pixelRuns
    { k.replay s.scene.pending.toList with camera := some s.cameraPixel } s.pixelRuns
  rw [finishTick_commands]
  simp only [Client.expectsAll_append, Client.replay_append, hmoved, hruns]
  exact ⟨⟨⟨h.scene.expects, hexpects⟩, hexpectsRuns⟩, ⟨nofun, h.scene.elements, trivial⟩, rfl⟩

theorem length_cameraMoved_le (s : State) : s.cameraMoved.length ≤ 1 := by
  unfold cameraMoved
  split
  · exact Nat.zero_le 1
  · exact Nat.le_refl 1

theorem eq_camera_of_mem_cameraMoved {command : Command} (h : command ∈ s.cameraMoved) :
    ∃ x y, command = .camera x y := by
  unfold cameraMoved at h
  split at h
  · cases h
  · exact ⟨_, _, List.mem_singleton.1 h⟩

end State

namespace Player

/-- The commands of the first `n` ticks. -/
def told (p : Player) (n : Nat) : List Command := (p.run n).1.flatMap TickReport.commands

theorem told_succ (p : Player) (n : Nat) :
    p.told (n + 1) = p.told n ++ (p.run n).2.tick.1.commands := by
  simp only [told, run_succ, List.flatMap_append, List.flatMap_singleton]

variable {p : Player} {k : Client}

theorem inStep_tick (h : p.reel.state.InStep k) :
    k.ExpectsAll p.tick.1.commands ∧
      p.tick.2.reel.state.InStep (k.replay p.tick.1.commands) := by
  cases hhalted : p.halted with
  | some error =>
    rw [tick_of_halted hhalted]
    exact ⟨trivial, h⟩
  | none =>
    rw [tick_of_running hhalted]
    exact (h.redraws p.redraws_chain).finishTick

theorem inStep_run (h : p.reel.state.InStep k) (n : Nat) :
    k.ExpectsAll (p.told n) ∧ (p.run n).2.reel.state.InStep (k.replay (p.told n)) := by
  induction n with
  | zero => exact ⟨trivial, h⟩
  | succ n ih =>
    obtain ⟨hexpects, hstep⟩ := inStep_tick ih.2
    rw [told_succ, run_succ, Client.expectsAll_append, Client.replay_append]
    exact ⟨⟨ih.1, hexpects⟩, hstep⟩

/-- Nothing is pending and the camera is the reported one. -/
def Settled (p : Player) : Prop :=
  p.reel.state.scene.pending = #[] ∧
    p.reel.state.reportedCamera = some p.reel.state.cameraPixel

theorem settled_tick (h : p.halted = none ∨ p.Settled) : p.tick.2.Settled := by
  cases hhalted : p.halted with
  | some error =>
    rw [tick_of_halted hhalted]
    exact h.resolve_left (by simp [hhalted])
  | none =>
    rw [tick_of_running hhalted]
    exact ⟨rfl, rfl⟩

theorem settled_run (h : p.halted = none) (n : Nat) : (p.run (n + 1)).2.Settled := by
  induction n with
  | zero => exact settled_tick (.inl h)
  | succ n ih =>
    rw [run_succ]
    exact settled_tick (.inr ih)

theorem layered_tick (h : p.reel.state.InStep k) (hhalted : p.halted = none) :
    p.tick.1.Layered p.tick.2.reel.state.pixelRuns := by
  have hchain := h.redraws p.redraws_chain
  rw [tick_of_running hhalted]
  exact ⟨_, _, p.chain.1.reel.state.finishTick_commands, hchain.scene.onElement,
    p.chain.1.reel.state.length_cameraMoved_le, fun _ ↦ State.eq_camera_of_mem_cameraMoved⟩

theorem inStep_start {forest : List Operation} {config : Config} {stage : Stage} {hero : Raster}
    {sprites : SpriteCache} (h : start forest (.initial config stage hero sprites) = .ok p) :
    p.halted = none ∧ p.reel.state.InStep .empty := by
  have hinitial : (State.initial config stage hero sprites).InStep .empty :=
    ⟨Scene.shadows_empty, rfl⟩
  obtain ⟨-, -, rfl⟩ := start_eq_ok h
  exact ⟨rfl, hinitial.redraws (State.redraws_resetWorld _)⟩

/-- A client that obeys the commands from the start holds the elements and the camera of the player
after every tick, every command makes sense to it, and the report of a tick is layered.  Before the
first tick what it lacks is pending.  Whatever is called on a scene and whenever it is drained, a
drain brings the client up to date. -/
theorem commands_mirror_scene {forest : List Operation} {config : Config} {stage : Stage}
    {hero : Raster} {sprites : SpriteCache}
    (hstart : start forest (.initial config stage hero sprites) = .ok p) :
    (∀ n, Client.empty.ExpectsAll (p.told n) ∧
      (Client.empty.replay (p.told n ++ (p.run n).2.reel.state.scene.pending.toList)).elements =
        (p.run n).2.reel.state.scene.elements ∧
      (0 < n → (Client.empty.replay (p.told n)).elements = (p.run n).2.reel.state.scene.elements ∧
        (Client.empty.replay (p.told n)).camera = some (p.run n).2.reel.state.cameraPixel) ∧
      ((p.run n).2.halted = none →
        (p.run n).2.tick.1.Layered (p.run n).2.tick.2.reel.state.pixelRuns)) ∧
    ∀ events : List Scene.Event,
      let (drained, scene) := Scene.perform events .empty
      Client.empty.ExpectsAll (drained ++ scene.drain.1) ∧
        (Client.empty.replay (drained ++ scene.drain.1)).elements = scene.drain.2.elements := by
  obtain ⟨hhalted, hempty⟩ := inStep_start hstart
  constructor
  · intro n
    obtain ⟨hexpects, hstep⟩ := inStep_run hempty n
    have helements := hstep.scene.elements
    rw [Client.replay_append]
    refine ⟨hexpects, helements, fun hn ↦ ?_, layered_tick hstep⟩
    obtain ⟨n, rfl⟩ := Nat.exists_eq_add_one_of_ne_zero (Nat.ne_of_gt hn)
    obtain ⟨hpending, hcamera⟩ := settled_run hhalted n
    rw [hpending] at helements
    exact ⟨helements, hstep.camera.trans hcamera⟩
  · intro events
    obtain ⟨hexpects, hshadows⟩ := Scene.shadows_empty.perform events
    dsimp only
    rw [Client.expectsAll_append, Client.replay_append]
    exact ⟨⟨hexpects, hshadows.expects⟩, hshadows.elements⟩

/-- In thirteen ticks the hero walks, an overlay is put up, hidden and taken away, and the demo
starts over. -/
theorem commands_mirror_scene_of_blink :
    ∃ p, start [.block 2 [.leaf (.playerMove .right), .leaf (.screenBlink 1 ⟨1, 2, 3⟩)]]
        (.initial { viewportWidth := 2, viewportHeight := 2 } blankStage (.solid 1 1 0) ∅) = .ok p ∧
      .setPosition ElementId.hero 24 23 ∈ p.told 13 ∧
      .setVisible ElementId.blinkOverlay false ∈ p.told 13 ∧
      .remove ElementId.blinkOverlay ∈ p.told 13 ∧
      ((p.run 13).1[11]?.map TickReport.status) = some .looped ∧
      Client.empty.ExpectsAll (p.told 13) ∧
      (Client.empty.replay (p.told 13)).elements = (p.run 13).2.reel.state.scene.elements ∧
      (Client.empty.replay (p.told 13)).camera = some (p.run 13).2.reel.state.cameraPixel ∧
      (p.run 13).2.tick.1.Layered (p.run 13).2.tick.2.reel.state.pixelRuns := by
  obtain ⟨p, hstart, hmoved, hhidden, hremoved, hlooped, hrunning⟩ : ∃ p,
      start [.block 2 [.leaf (.playerMove .right), .leaf (.screenBlink 1 ⟨1, 2, 3⟩)]]
        (.initial { viewportWidth := 2, viewportHeight := 2 } blankStage (.solid 1 1 0) ∅) = .ok p ∧
      .setPosition ElementId.hero 24 23 ∈ p.told 13 ∧
      .setVisible ElementId.blinkOverlay false ∈ p.told 13 ∧
      .remove ElementId.blinkOverlay ∈ p.told 13 ∧
      ((p.run 13).1[11]?.map TickReport.status) = some .looped ∧ (p.run 13).2.halted = none :=
    ⟨_, rfl, by decide +kernel, by decide +kernel, by decide +kernel, by decide +kernel,
      by decide +kernel⟩
  obtain ⟨hexpects, -, hsettled, hlayered⟩ := (commands_mirror_scene hstart).1 13
  obtain ⟨helements, hcamera⟩ := hsettled (by decide)
  exact ⟨p, hstart, hmoved, hhidden, hremoved, hlooped, hexpects, helements, hcamera,
    hlayered hrunning⟩

/-- Before the first tick the stage is on show already, and the client was told nothing. -/
theorem not_mirrored_before_first_tick :
    ¬∀ (forest : List Operation) (config : Config) (stage : Stage) (hero : Raster)
      (sprites : SpriteCache) (p : Player),
      start forest (.initial config stage hero sprites) = .ok p →
        ∀ n, (Client.empty.replay (p.told n)).elements = (p.run n).2.reel.state.scene.elements := by
  intro h
  obtain ⟨p, hp⟩ : ∃ p,
      start [.leaf (.delay 1)] (.initial {} blankStage (.solid 24 30 0) ∅) = .ok p := ⟨_, rfl⟩
  have hzero : (∅ : Std.ExtTreeMap String Element) = p.reel.state.scene.elements :=
    h _ _ _ _ _ p hp 0
  obtain ⟨-, hstage, rfl⟩ := start_eq_ok hp
  rw [← hzero] at hstage
  exact Std.ExtTreeMap.not_mem_empty hstage

end Player

end DemoReel.Playback
