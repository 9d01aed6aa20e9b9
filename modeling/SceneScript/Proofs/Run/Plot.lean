import SceneScript.Proofs.Run.Openings
import SceneScript.Proofs.Run.Standing
import SceneScript.Proofs.Script.Plot

/-! # Runs follow the plot

Commands are found by their places, so projects with one plot have the same runs. The plot has
everything that a run asks for; only the fault of a position that no longer fits quotes the
identifier of a command, and no run of a project that is not edited meets it.
-/

namespace SceneScript

variable {project : Project} {state : State}

/-! ## Look-ups -/

theorem Project.opensAlike_plot (project : Project) : project.OpensAlike project.plot where
  stages := by
    rw [plot, List.map_map]
    rfl
  flags := by
    rw [plot, List.map_map]
    rfl
  vars := by
    rw [plot, List.map_map]
    rfl

theorem Frame.innerList_plot {frame : Frame} {commands body : List Command}
    (h : frame.innerList project commands = .ok body) :
    frame.innerList project.plot (commands.map Command.plot) = .ok (body.map Command.plot) := by
  obtain ⟨owner, howner, hframe⟩ := innerList_eq_ok.mp h
  have hplace : Index.of? frame.owner (commands.map Command.plot) = some owner.plot := by
    rw [Index.of?_map, howner, Option.map_some]
  refine innerList_eq_ok.mpr ⟨owner.plot, hplace, ?_⟩
  rw [Command.plot_eq]
  cases frame with
  | branch index chosen =>
      obtain ⟨label, branches, taken, haction, htaken, rfl⟩ := hframe
      refine ⟨"", branches.map Branch.plot, taken.plot, by rw [haction]; rfl, ?_, rfl⟩
      rw [List.getElem?_map, htaken, Option.map_some]
  | group index id =>
      obtain ⟨haction, group, hgroup, rfl⟩ := hframe
      refine ⟨by rw [haction]; rfl, group.plot, ?_, Command.listPlot_eq_map _⟩
      rw [Project.findGroup?_plot, hgroup, Option.map_some]

namespace Project

theorem listAt_plot {scene : Index} {frames : List Frame} {commands : List Command}
    (h : project.listAt scene frames = .ok commands) :
    project.plot.listAt scene frames = .ok (commands.map Command.plot) := by
  induction frames using List.reverseRecOn generalizing commands with
  | nil =>
      obtain ⟨entered, hscene, rfl⟩ := listAt_eq_ok_nil.mp h
      refine listAt_eq_ok_nil.mpr ⟨entered.plot, ?_, Command.listPlot_eq_map _⟩
      unfold scene? at hscene ⊢
      rw [plot, Index.of?_map, hscene, Option.map_some]
  | append_singleton frames frame ih =>
      obtain ⟨outer, houter, hinner⟩ := listAt_eq_ok_append.mp h
      exact listAt_eq_ok_append.mpr ⟨_, ih houter, Frame.innerList_plot hinner⟩

theorem commandAt_plot {position : Position} {command : Command}
    (h : project.commandAt position = .ok command) :
    project.plot.commandAt position = .ok command.plot := by
  obtain ⟨commands, hlist, hplace⟩ := Position.commandAt_eq_ok.mp h
  refine Position.commandAt_eq_ok.mpr ⟨_, listAt_plot hlist, ?_⟩
  rw [Index.of?_map, hplace, Option.map_some]

end Project

/-! ## Commands, steps and answers -/

theorem Action.execute_plot (project : Project) (state : State) (index : Index)
    (action : Action Command) :
    action.plot.execute project.plot state index = action.execute project state index := by
  cases action with
  | branching label branches =>
      have hconditions : (branches.map Branch.plot).map (·.condition) =
          branches.map (·.condition) := by
        rw [List.map_map]
        rfl
      rw [plot, execute_branching, execute_branching, hconditions]
  | call group =>
      change execute project.plot state index (.call group) = _
      rw [execute_call, execute_call, project.checkGroup_plot]
  | goto scene withTransition =>
      change execute project.plot state index (.goto scene withTransition) = _
      rw [execute_goto, execute_goto, project.opensAlike_plot.check_eq]
  | setFlag name value =>
      change execute project.plot state index (.setFlag name value) = _
      rw [execute_setFlag, execute_setFlag]
  | setVariable name operation operand =>
      change execute project.plot state index (.setVariable name operation operand) = _
      rw [execute_setVariable, execute_setVariable]
  | dialogue speaker text choices => cases choices <;> rfl
  | _ => rfl

theorem State.step_plot (h : state.Stands project) :
    state.step project.plot = state.step project := by
  obtain ⟨commands, hlist⟩ := h.found
  have hplot : project.plot.resolve state.position = .ok (commands.map Command.plot) :=
    Project.listAt_plot hlist
  unfold step
  rw [hlist, hplot]
  simp only [bind, Except.bind, Index.of?_map]
  cases state.position.command.of? commands with
  | none => exact project.opensAlike_plot.endList_eq state
  | some command =>
      simp only [Option.map_some, Command.plot_eq, Action.execute_plot,
        project.opensAlike_plot.follow_eq]

theorem State.answer_plot (h : state.Stands project) (input : Input) :
    state.answer project.plot input = state.answer project input := by
  have hchoose : ∀ count index, state.waiting = .choice count →
      state.choose project.plot count index = state.choose project count index := by
    intro count index hwaiting
    by_cases hindex : count ≤ index
    · rw [choose_of_le hindex, choose_of_le hindex]
    · have hbelow := UInt64.not_le.mp hindex
      obtain ⟨command, hcommand, -⟩ := h.suits hwaiting nofun
      rw [choose_of_lt hbelow hcommand, choose_of_lt hbelow (Project.commandAt_plot hcommand),
        Command.choices?_plot]
      simp only [project.opensAlike_plot.pick_eq]
  have hentered := project.opensAlike_plot.enterScene_eq
  unfold answer
  cases hwaiting : state.waiting with
  | choice count => cases input <;> simp only [hchoose count _ hwaiting]
  | transition target => cases input <;> simp only [hentered]
  | _ => cases input <;> rfl

/-! ## Ticks -/

namespace Interpreter

variable {interpreter : Interpreter} {other : Project}

theorem tick_plot (h : interpreter.Stands project) (input : Option Input) :
    interpreter.tick project.plot input = interpreter.tick project input := by
  cases hfinished : interpreter.state.finished with
  | true => simp [tick, hfinished]
  | false =>
      refine tick_congr (project.opensAlike_plot.begin_eq interpreter)
        (stands_begin (h.of_unfinished hfinished) h.unbegun)
        (fun state given hstate => ⟨State.answer_plot hstate given, hstate.answer given⟩)
        (fun state hstate => State.step_plot hstate)
        (fun state next effects hstate hpaused hstep => hstate.step hpaused hstep)

/-- Projects with one plot take every input alike: the same effects, waits and faults come out of
it, and the run is left in the same state. -/
theorem tick_eq_of_plot_eq (h : project.plot = other.plot) (inputs : List (Option Input)) :
    after project inputs = after other inputs ∧ ∀ input,
      (after project inputs).tick project input = (after other inputs).tick other input := by
  have hnext : ∀ interpreter : Interpreter, interpreter.Stands project →
      interpreter.Stands other → ∀ input,
        interpreter.tick project input = interpreter.tick other input := by
    intro interpreter hproject hother input
    rw [← tick_plot hproject, ← tick_plot hother, h]
  have hsame : after project inputs = after other inputs := by
    induction inputs using List.reverseRecOn with
    | nil =>
        have hnew := project.opensAlike_plot.new_eq
        rw [h, other.opensAlike_plot.new_eq] at hnew
        exact hnew.symm
    | append_singleton inputs input ih =>
        have hproject := stands_after project inputs
        have hother := stands_after other inputs
        rw [← ih] at hother
        unfold after at ih hproject hother ⊢
        rw [List.foldl_concat, List.foldl_concat, ← ih]
        rw [hnext _ hproject hother input]
  refine ⟨hsame, fun input => ?_⟩
  have hother := stands_after other inputs
  rw [← hsame] at hother ⊢
  exact hnext _ (stands_after project inputs) hother input

/-- A question in a branch, and a welcome in a group. -/
def encounter : Project where
  flags := [{ id := "f", name := "met" }]
  scenes := [{ id := "a", commands := [⟨"1", .branching "" [.onFlag .if "met" .eq false
    [.dialogue "2" "" "Who are you?" [{ text := "Nobody", setFlag := "met" }, { text := "Odysseus" }],
      ⟨"3", .call "greet"⟩]]⟩] }]
  sharedCommands := [{ id := "greet", commands := [.dialogue "4" "" "Welcome." []] }]

/-- The same encounter after its author has tidied it up. -/
def tidyEncounter : Project where
  title := "At the cave"
  flags := [{ id := "flag-met", name := "met" }]
  scenes := [{
    id := "cave"
    name := "The cave"
    backgroundColor := "#302010"
    backgroundId := some "rocks"
    characterId := some "giant"
    commands := [⟨"ask", .branching "once" [.onFlag .if "met" .eq false
      [.dialogue "name" "" "Who are you?"
        [{ text := "Nobody", setFlag := "met" }, { text := "Odysseus" }],
        ⟨"answer", .call "greet"⟩]]⟩] }]
  sharedCommands := [{ id := "greet", name := "Greeting",
                       commands := [.dialogue "welcome" "" "Welcome." []] }]
  settings := { scale := 3, transitionDurationMs := 100 }
  characters := [{ id := "giant" }]
  backgrounds := [{ id := "rocks" }]

theorem tick_encounter_eq_tidyEncounter :
    encounter.plot = tidyEncounter.plot ∧ (after encounter [none]).state.waiting = .choice 2 ∧
      after encounter [none] = after tidyEncounter [none] ∧
      ∀ input, (after encounter [none]).tick encounter input =
        (after tidyEncounter [none]).tick tidyEncounter input :=
  have hplot : encounter.plot = tidyEncounter.plot := rfl
  ⟨hplot, rfl, tick_eq_of_plot_eq hplot [none]⟩

end Interpreter
end SceneScript
