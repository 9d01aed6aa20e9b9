import SceneScript.Proofs.Run.Tick

/-! # Standing in the script

On every run of a project that is not edited, the position is found, a wait is one that the command
at the position asks for, and the known names are the declared ones.
-/

namespace SceneScript

/-- Only dialogues have choices. -/
theorem Command.exists_dialogue {command : Command} {choice : Choice}
    (h : choice ∈ command.choices?.getD []) :
    ∃ speaker text choices, command.action = .dialogue speaker text choices ∧ choice ∈ choices := by
  unfold choices? at h
  split at h
  · next speaker text choices haction => exact ⟨speaker, text, choices, haction, h⟩
  · cases h

/-- The state stands at a list of the project and fits what is written there. -/
structure State.Stands (project : Project) (state : State) : Prop where
  found : ∃ commands, project.resolve state.position = .ok commands
  hasNext : state.position.command.HasNext
  waits : state.waiting ≠ .nothing → ∃ command,
    project.commandAt state.position = .ok command ∧ state.waiting.Suits project command.action
  runs : state.waiting ≠ .nothing → state.finished = false
  names : Lookup.SameNames state.symbols (State.initial project).symbols

namespace State.Stands

variable {project : Project} {state next : State} {effects : List Effect}

/-- The command at the position asks for the wait. -/
theorem suits {reason : Waiting} (h : state.Stands project) (hwaiting : state.waiting = reason)
    (hreason : reason ≠ .nothing) :
    ∃ command, project.commandAt state.position = .ok command ∧
      reason.Suits project command.action := by
  subst hwaiting
  exact h.waits hreason

/-- While the run waits for a choice, an answer below the count stands at the position. -/
theorem exists_choice {count index : Index} (h : state.Stands project)
    (hwaiting : state.waiting = .choice count) (hindex : index < count) :
    ∃ command choice, project.commandAt state.position = .ok command ∧
      (command.choices?.getD [])[index.toNat]? = some choice := by
  obtain ⟨command, hcommand, speaker, text, choices, haction, -, rfl⟩ := h.suits hwaiting nofun
  have hlt : index.toNat < choices.length := by
    have hbelow : index.toNat < (UInt64.ofNat choices.length).toNat :=
      UInt64.lt_iff_toNat_lt.mp hindex
    rw [UInt64.toNat_ofNat'] at hbelow
    exact Nat.lt_of_lt_of_le hbelow (Nat.mod_le _ _)
  exact ⟨command, choices[index.toNat], hcommand, by simp [Command.choices?, haction, hlt]⟩

/-! ## Steps and answers -/

/-- A state that does not wait stands as soon as its position is found. -/
theorem of_waiting_nothing (found : ∃ commands, project.resolve state.position = .ok commands)
    (hasNext : state.position.command.HasNext) (hwaiting : state.waiting = .nothing)
    (names : Lookup.SameNames state.symbols (State.initial project).symbols) :
    state.Stands project :=
  ⟨found, hasNext, fun hwaits => absurd hwaiting hwaits, fun hwaits => absurd hwaiting hwaits, names⟩

theorem inScene {index : Index} {scene : Scene} (h : state.Stands project)
    (hscene : project.scene? index = some scene) (hwaiting : state.waiting = .nothing) :
    (state.inScene index scene).Stands project :=
  of_waiting_nothing ⟨scene.commands, Position.resolve_sceneStart hscene⟩ Index.hasNext_zero
    hwaiting h.names

theorem step (h : state.Stands project) (hpaused : state.isPaused = false)
    (hstep : state.step project = .ok (next, effects)) : next.Stands project := by
  obtain ⟨commands, hlist⟩ := h.found
  obtain ⟨hwaiting, hfinished⟩ := State.isPaused_eq_false.mp hpaused
  cases State.step_iff.mp hstep with
  | leave _ hleave =>
      exact of_waiting_nothing (Position.resolve_leave hlist hleave)
        (Position.hasNext_leave hlist hleave) hwaiting h.names
  | fall _ _ hscene => exact h.inScene hscene hwaiting
  | halt _ _ _ => exact of_waiting_nothing h.found h.hasNext hwaiting h.names
  | @advance execution hdone _ =>
      obtain ⟨command, hcommand, hexecute⟩ := hdone
      have done := Action.execute_done hexecute
      refine of_waiting_nothing ⟨commands, ?_⟩ ?_ (done.waiting_eq.trans hwaiting)
        (done.names.trans h.names)
      · rw [Position.resolve_forward, done.position_eq]
        exact hlist
      · rw [done.position_eq]
        exact Position.hasNext_forward hcommand
  | @enter execution frame hdone hflow =>
      obtain ⟨command, hcommand, hexecute⟩ := hdone
      have done := Action.execute_done hexecute
      have hleads := done.leads
      rw [hflow] at hleads
      obtain ⟨outer, houter, hplace⟩ := Position.commandAt_eq_ok.mp hcommand
      obtain ⟨body, hbody⟩ := Frame.exists_innerList_of_leads hplace hleads
      refine of_waiting_nothing ⟨body, ?_⟩ Index.hasNext_zero (done.waiting_eq.trans hwaiting)
        (done.names.trans h.names)
      rw [done.position_eq]
      exact Position.resolve_enter houter hbody
  | @jump execution target scene hdone _ hscene =>
      obtain ⟨command, -, hexecute⟩ := hdone
      have done := Action.execute_done hexecute
      exact of_waiting_nothing ⟨scene.commands, Position.resolve_sceneStart hscene⟩
        Index.hasNext_zero (done.waiting_eq.trans hwaiting) (done.names.trans h.names)
  | @wait execution reason hdone hflow =>
      obtain ⟨command, hcommand, hexecute⟩ := hdone
      have done := Action.execute_done hexecute
      have hleads := done.leads
      rw [hflow] at hleads
      have hposition : execution.state.position = state.position := done.position_eq
      refine ⟨⟨commands, ?_⟩, ?_, fun _ => ⟨command, ?_, hleads⟩,
        fun _ => done.finished_eq.trans hfinished, done.names.trans h.names⟩
      · rw [← hlist, ← hposition]
      · exact hposition ▸ h.hasNext
      · rw [← hcommand, ← hposition]

/-- Taking an answer to the dialogue at the position. -/
theorem pick {command : Command} {choice : Choice} {count : Index} (h : state.Stands project)
    (hwaiting : state.waiting = .choice count)
    (hcommand : project.commandAt state.position = .ok command)
    (hchoice : choice ∈ command.choices?.getD [])
    (hpick : state.pick project choice = .ok (next, effects)) : next.Stands project := by
  obtain ⟨_, ⟨flags, rfl⟩, hnames, ⟨hgoto, hscene, rfl⟩ | rfl⟩ := State.pick_kept hpick
  · refine ⟨h.found, h.hasNext, fun _ => ⟨command, hcommand, hscene, .inr ?_⟩,
      fun _ => h.runs (hwaiting ▸ nofun), hnames.trans h.names⟩
    obtain ⟨speaker, text, choices, haction, hmem⟩ := Command.exists_dialogue hchoice
    exact ⟨speaker, text, choices, choice, haction, hmem, hgoto, rfl⟩
  · exact of_waiting_nothing h.found (Position.hasNext_forward hcommand) rfl
      (hnames.trans h.names)

theorem answer (h : state.Stands project) (input : Input) :
    (state.answer project input).1.Stands project := by
  have hanswers := State.answers project state input
  generalize state.answer project input = result at hanswers ⊢
  cases hanswers with
  | ignored | refused _ _ => exact h
  | clicked hwaiting _ =>
      obtain ⟨command, hcommand, -⟩ := h.suits hwaiting nofun
      exact of_waiting_nothing h.found (Position.hasNext_forward hcommand) rfl h.names
  | stuck _ hlast => exact absurd h.hasNext hlast
  | chosen hchoice hchoose =>
      obtain ⟨command, choice, hcommand, hplace, hpick⟩ := State.exists_pick_of_choose hchoose
      exact h.pick hchoice hcommand (List.mem_of_getElem? hplace) hpick
  | arrived _ hscene =>
      exact of_waiting_nothing ⟨_, Position.resolve_sceneStart hscene⟩ Index.hasNext_zero rfl
        h.names
  | lost _ _ => exact of_waiting_nothing h.found h.hasNext rfl h.names

/-- A state that stands only fails where its command fails. -/
theorem step_error {fault : Fault} (h : state.Stands project)
    (hstep : state.step project = .error fault) :
    ∃ command, project.commandAt state.position = .ok command ∧
      command.action.execute project state state.position.command = .error fault := by
  obtain ⟨commands, hlist⟩ := h.found
  rcases State.step_eq_error.mp hstep with hresolve | hcommand
  · rw [hlist] at hresolve
    cases hresolve
  · exact hcommand

end State.Stands

theorem State.Stands.taken {project : Project} {state taken : State} {input : Option Input}
    {result : Except Fault (List Effect)} (h : state.Stands project)
    (htake : Interpreter.take project input state = (taken, result)) : taken.Stands project := by
  cases input with
  | none =>
      cases htake
      exact h
  | some given =>
      have hkept := h.answer given
      have hanswer : state.answer project given = (taken, result) := htake
      rw [hanswer] at hkept
      exact hkept

/-! ## Runs -/

namespace Interpreter

variable {project : Project} {interpreter : Interpreter}

/-- Inputs one after the other. -/
def after (project : Project) (inputs : List (Option Input)) : Interpreter :=
  inputs.foldl (fun interpreter input => (interpreter.tick project input).1) (.new project)

/-- What holds of a new run and is kept by ticks holds of every run. -/
theorem after_induction {holds : Interpreter → Prop} (new : holds (.new project))
    (tick : ∀ interpreter input, holds interpreter → holds (interpreter.tick project input).1)
    (inputs : List (Option Input)) : holds (after project inputs) := by
  unfold after
  generalize Interpreter.new project = interpreter at new ⊢
  induction inputs generalizing interpreter with
  | nil => exact new
  | cons input rest ih => exact ih _ (tick _ _ new)

theorem stands_begin (h : interpreter.state.Stands project)
    (hnew : interpreter.started = false → interpreter.state.waiting = .nothing) :
    (interpreter.begin project).1.Stands project := by
  rcases begin_cases project interpreter with heq | ⟨hstarted, ⟨scene, hscene, heq⟩ | ⟨-, heq⟩⟩
  · rw [heq]
    exact h
  · rw [heq]
    exact h.inScene hscene (hnew hstarted)
  · rw [heq]
    exact h

/-- A run stands in the script, unless there is no scene; one that has not begun does not wait. -/
structure Stands (project : Project) (interpreter : Interpreter) : Prop where
  stands : interpreter.state.Stands project ∨ (project.scenes = [] ∧
    interpreter.state.finished = true ∧ interpreter.state.waiting = .nothing)
  unbegun : interpreter.started = false → interpreter.state.waiting = .nothing

theorem Stands.of_unfinished (h : interpreter.Stands project)
    (hfinished : interpreter.state.finished = false) : interpreter.state.Stands project := by
  rcases h.stands with hstands | ⟨-, hends, -⟩
  · exact hstands
  · rw [hfinished] at hends
    cases hends

/-- A run that waits stands in the script. -/
theorem Stands.of_waiting (h : interpreter.Stands project)
    (hwaiting : interpreter.state.waiting ≠ .nothing) : interpreter.state.Stands project := by
  rcases h.stands with hstands | ⟨-, -, hnothing⟩
  · exact hstands
  · exact absurd hnothing hwaiting

/-- The beginning of a tick stands in the script. -/
theorem Stands.begun {begun : State} {result : Except Fault (List Effect)}
    (h : interpreter.Stands project) (hfinished : interpreter.state.finished = false)
    (hbegin : interpreter.begin project = (begun, result)) : begun.Stands project := by
  have hkept := stands_begin (h.of_unfinished hfinished) h.unbegun
  rw [hbegin] at hkept
  exact hkept

/-- Where one run of a project stands in the script, all do. -/
theorem Stands.of_stands {state : State} (h : interpreter.Stands project)
    (hstate : state.Stands project) : interpreter.state.Stands project := by
  rcases h.stands with hstands | ⟨hscenes, -, -⟩
  · exact hstands
  · obtain ⟨commands, hlist⟩ := hstate.found
    obtain ⟨scene, hscene⟩ := Position.exists_scene_of_resolve hlist
    simpa [hscenes] using Project.mem_scenes_of_scene? hscene

theorem stands_new : (Interpreter.new project).Stands project := by
  refine ⟨?_, fun _ => rfl⟩
  cases hscenes : project.scenes with
  | nil => exact .inr ⟨rfl, by simp [new, State.initial, hscenes], rfl⟩
  | cons scene rest =>
      have hscene : project.scene? 0 = some scene := by simp [Project.scene?, hscenes]
      exact .inl
        (.of_waiting_nothing ⟨scene.commands, Position.resolve_sceneStart hscene⟩
          Index.hasNext_zero rfl (.refl _))

theorem Stands.tick (h : interpreter.Stands project) (input : Option Input) :
    (interpreter.tick project input).1.Stands project := by
  cases hfinished : interpreter.state.finished with
  | true => simpa [Interpreter.tick, hfinished] using h
  | false =>
      have hstands := h.of_unfinished hfinished
      have hkeeps : (interpreter.tick project input).1.state.Stands project ∧
          ∀ fault, (interpreter.tick project input).2 = .error fault → True :=
        tick_keeps hstands ⟨stands_begin hstands h.unbegun, fun _ _ => trivial⟩
          (fun state given hstate _ _ => ⟨hstate.answer given, fun _ _ => trivial⟩)
          (fun state next effects hstate hpaused hstep => hstate.step hpaused hstep)
          (fun _ _ _ _ _ => trivial) trivial
      refine ⟨.inl hkeeps.1, fun hstarted => ?_⟩
      simp [Interpreter.tick, hfinished] at hstarted

theorem Stands.of_tick {next : Interpreter} {input : Option Input}
    {result : Except Fault Response} (h : interpreter.Stands project)
    (htick : interpreter.tick project input = (next, result)) : next.Stands project := by
  have hkept := h.tick input
  rw [htick] at hkept
  exact hkept

theorem stands_after (project : Project) (inputs : List (Option Input)) :
    (after project inputs).Stands project :=
  after_induction stands_new (fun _ input h => h.tick input) inputs

end Interpreter
end SceneScript
