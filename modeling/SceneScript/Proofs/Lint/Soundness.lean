import SceneScript.Proofs.Lint.Review
import SceneScript.Proofs.Run.Standing
import SceneScript.Proofs.Script.CallCycles

/-! # Reviewed projects run without faults

In a sound project no command fails in a state that knows the declared names. On every run, ticks
then only refuse choices that are not offered, and stop at the step limit.
-/

namespace SceneScript

/-! ## Names at the start -/

theorem Project.isSome_declared_flag {project : Project} {name : String} :
    Option.isSome (project.declared.flagValue name) = (project.findFlag? name).isSome :=
  Option.isSome_map

theorem Project.isSome_declared_variable {project : Project} {name : String} :
    Option.isSome (project.declared.variableValue name) = (project.findVariable? name).isSome :=
  Option.isSome_map

/-- A run starts with the declared names. -/
theorem State.sameNames_initial (project : Project) :
    Lookup.SameNames (State.initial project).symbols project.declared := by
  constructor
  · intro name
    rw [Project.isSome_declared_flag, Bool.eq_iff_iff]
    change ((Table.ofList _).find? name).isSome ↔ _
    rw [Table.isSome_find?_ofList]
    simp [Project.findFlag?]
  · intro name
    rw [Project.isSome_declared_variable, Bool.eq_iff_iff]
    change ((Table.ofList _).find? name).isSome ↔ _
    rw [Table.isSome_find?_ofList]
    simp [Project.findVariable?]

theorem State.isSome_flag {project : Project} {state : State} {name : String}
    (hnames : Lookup.SameNames state.symbols project.declared)
    (hdeclared : (project.findFlag? name).isSome) : (state.flags.find? name).isSome :=
  (hnames.flags name).trans (Project.isSome_declared_flag.trans hdeclared)

theorem State.isSome_variable {project : Project} {state : State} {name : String}
    (hnames : Lookup.SameNames state.symbols project.declared)
    (hdeclared : (project.findVariable? name).isSome) : (state.vars.find? name).isSome :=
  (hnames.vars name).trans (Project.isSome_declared_variable.trans hdeclared)

namespace Project.Sound

variable {project : Project} {state : State} {fault : Fault}

/-! ## Commands of a sound project -/

/-- Whatever list a way of frames leads to, its commands are sound. -/
theorem listAt (h : project.Sound) {scene : Index} {frames : List Frame} {commands : List Command}
    (hlist : project.listAt scene frames = .ok commands) :
    Command.AllSound project commands :=
  Project.listAt_induction h.scenes h.groups
    (fun _ hall _ hcommand _ hbranch inner hinner =>
      hall inner (Command.listSubcommands_body_subset hcommand hbranch hinner)) hlist

theorem commandAt (h : project.Sound) {position : Position} {command : Command}
    (hcommand : project.commandAt position = .ok command) : command.action.Sound project := by
  obtain ⟨commands, hlist, hplace⟩ := Position.commandAt_eq_ok.mp hcommand
  have hmem : command ∈ commands := Index.mem_of_of? hplace
  exact h.listAt hlist command (Command.mem_listSubcommands_of_mem hmem)

/-- Every group passes the check of its calls. -/
theorem checkGroup (h : project.Sound) {id : String} {group : CommandGroup}
    (hgroup : project.findGroup? id = some group) : project.checkGroup id ≠ .error fault := by
  intro hcheck
  cases Project.stops_of_checkGroup hcheck with
  | @missing called hreach hmissing =>
      rcases Relation.ReflTransGen.cases_tail hreach with rfl | ⟨caller, -, found, hfound, hmem⟩
      · cases hmissing.symm.trans hgroup
      · -- The caller is sound, so what it calls is there.
        obtain ⟨command, hcommand, haction⟩ := Command.mem_listCalls.mp hmem
        have hsound := h.groups found (List.mem_of_find?_eq_some hfound) command hcommand
        rw [haction] at hsound
        obtain ⟨group, hgroup⟩ := hsound
        cases hmissing.symm.trans hgroup
  | @circle called chain hcircle _ =>
      have hid : group.id = id := by simpa using List.find?_some hgroup
      rw [← hid] at hcheck
      exact h.acyclic group (List.mem_of_find?_eq_some hgroup) called chain hcheck

/-- A sound command does not fail where the declared names are known. -/
theorem execute_ne_error (h : project.Sound) {action : Action Command} {index : Index}
    (haction : action.Sound project) (hnames : Lookup.SameNames state.symbols project.declared) :
    action.execute project state index ≠ .error fault := by
  intro hfault
  cases action with
  | dialogue speaker text choices => cases choices <;> cases hfault
  | branching label branches =>
      obtain ⟨hstructure, hconditions⟩ := haction
      rw [Action.execute_branching] at hfault
      split at hfault
      · cases hfault
      · cases hfault
      · next cause hselect =>
          rcases Condition.select_error hselect with hmalformed | ⟨condition, hmem, hcondition⟩
          · rw [hstructure] at hmalformed
            cases hmalformed
          · obtain ⟨branch, hbranch, rfl⟩ := List.mem_map.mp hmem
            obtain ⟨holds, hholds⟩ := hconditions branch hbranch
            rw [Condition.evaluate_error hnames hcondition] at hholds
            cases hholds
  | setFlag name value =>
      simp only [Action.execute_setFlag, bind_eq_error, pure_ne_error, and_false, exists_false,
        or_false] at hfault
      have hknown := State.isSome_flag hnames haction
      rw [(State.setFlag_eq_error.mp hfault).1] at hknown
      cases hknown
  | setVariable name operation operand =>
      simp only [Action.execute_setVariable, bind_eq_error, pure_ne_error, and_false, exists_false,
        or_false] at hfault
      have hknown := State.isSome_variable hnames haction
      rw [(State.changeVariable_eq_error.mp hfault).1] at hknown
      cases hknown
  | call id =>
      obtain ⟨group, hgroup⟩ := haction
      simp only [Action.execute_call, bind_eq_error, pure_ne_error, and_false, exists_false,
        or_false] at hfault
      exact h.checkGroup hgroup hfault
  | goto target withTransition =>
      obtain ⟨scene, hscene⟩ := haction
      have hfound : project.sceneAt target = .ok scene := Project.sceneAt_eq_ok.mpr hscene
      rw [Action.execute_goto, hfound] at hfault
      cases withTransition <;> cases hfault
  | _ => cases hfault

/-! ## Answers -/

/-- A sound answer can always be taken. -/
theorem pick_ne_error {choice : Choice} (hchoice : choice.Sound project)
    (hnames : Lookup.SameNames state.symbols project.declared)
    (hplace : state.position.command.HasNext) : state.pick project choice ≠ .error fault := by
  intro hfault
  rcases State.pick_error hplace hfault with ⟨hgoto, hmissing⟩ | hflag
  · obtain ⟨scene, hscene⟩ := hchoice.target hgoto
    rw [hmissing] at hscene
    cases hscene
  · obtain ⟨name, value, heffect, hunknown⟩ := State.setChoiceFlag_error hflag
    have hknown := State.isSome_flag hnames (hchoice.flag name value heffect)
    rw [hunknown] at hknown
    cases hknown

/-- A choice is refused only when it is not offered. -/
theorem choose_error (h : project.Sound) (hstands : state.Stands project) {count index : Index}
    (hwaiting : state.waiting = .choice count)
    (hfault : state.choose project count index = .error fault) :
    count ≤ index ∧ fault = .invalidChoice index count := by
  by_cases hindex : count ≤ index
  · rw [State.choose_of_le hindex] at hfault
    cases hfault
    exact ⟨hindex, rfl⟩
  · have hbelow : index < count := UInt64.not_le.mp hindex
    obtain ⟨command, choice, hcommand, hplace⟩ := hstands.exists_choice hwaiting hbelow
    rw [State.choose_of_lt hbelow hcommand, hplace] at hfault
    obtain ⟨_, _, _, haction, hmem⟩ := Command.exists_dialogue (List.mem_of_getElem? hplace)
    have hsound := h.commandAt hcommand
    rw [haction] at hsound
    have hnames := hstands.names.trans (State.sameNames_initial project)
    exact absurd hfault
      (pick_ne_error (hsound choice hmem) hnames hstands.hasNext)

end Project.Sound

/-! ## Runs -/

namespace Interpreter

variable {project : Project} {fault : Fault}

/-- The run waits for one of so many answers of the dialogue at its position. -/
def Presents (project : Project) (interpreter : Interpreter) (count : Index) : Prop :=
  interpreter.state.waiting = .choice count ∧ ∃ command choices,
    project.commandAt interpreter.state.position = .ok command ∧
      command.choices? = some choices ∧ count = .ofNat choices.length

theorem presents_of_stands {interpreter : Interpreter} {count : Index}
    (hstands : interpreter.state.Stands project)
    (hwaiting : interpreter.state.waiting = .choice count) : interpreter.Presents project count := by
  obtain ⟨command, hcommand, hsuits⟩ := hstands.suits hwaiting nofun
  obtain ⟨speaker, text, choices, haction, -, hcount⟩ := hsuits
  exact ⟨hwaiting, command, choices, hcommand, by simp [Command.choices?, haction], hcount⟩

/-- What a tick may fail with in a sound project. -/
def Excused (project : Project) (interpreter : Interpreter) (input : Option Input) (fault : Fault) :
    Prop :=
  fault = .endless State.maxSteps ∨ ∃ count index, interpreter.Presents project count ∧
    input = some (.choose index) ∧ count ≤ index ∧ fault = .invalidChoice index count

theorem excused_of_answer {interpreter : Interpreter} {state : State} {input : Input}
    (hproject : project.Sound) (hrun : interpreter.state.Stands project)
    (hstands : state.Stands project) (hwaiting : state.waiting = interpreter.state.waiting)
    (hfault : (state.answer project input).2 = .error fault) :
    interpreter.Excused project (some input) fault := by
  have hanswers := State.answers project state input
  generalize state.answer project input = result at hanswers hfault
  cases hanswers with
  | ignored | clicked _ _ | chosen _ _ | arrived _ _ => cases hfault
  | stuck _ hlast => exact absurd hstands.hasNext hlast
  | refused hchoice hchoose =>
      cases hfault
      obtain ⟨hindex, rfl⟩ := hproject.choose_error hstands hchoice hchoose
      exact .inr ⟨_, _, presents_of_stands hrun (hwaiting.symm.trans hchoice), rfl, hindex, rfl⟩
  | lost htransition hmissing =>
      obtain ⟨command, -, hsuits⟩ := hstands.suits htransition nofun
      obtain ⟨⟨scene, hscene⟩, -⟩ := hsuits
      rw [hmissing] at hscene
      cases hscene

theorem excused_of_tick {interpreter : Interpreter} {input : Option Input}
    (hproject : project.Sound) (hrun : interpreter.Stands project)
    (hfault : (interpreter.tick project input).2 = .error fault) :
    interpreter.Excused project input fault := by
  cases hfinished : interpreter.state.finished with
  | true => simp [Interpreter.tick, hfinished] at hfault
  | false =>
      have hstands := hrun.of_unfinished hfinished
      have hbegin : Keeps (State.Stands project) (interpreter.Excused project input)
          (interpreter.begin project) := by
        refine ⟨stands_begin hstands hrun.unbegun, fun cause hcause => ?_⟩
        obtain ⟨commands, hlist⟩ := hstands.found
        obtain ⟨scene, hscene⟩ := Position.exists_scene_of_resolve hlist
        rcases begin_cases project interpreter with heq | ⟨-, ⟨_, -, heq⟩ | ⟨hmissing, -⟩⟩
        · rw [heq] at hcause
          cases hcause
        · rw [heq] at hcause
          cases hcause
        · rw [hmissing] at hscene
          cases hscene
      have hanswer : ∀ (state : State) (given : Input), state.Stands project →
          state.waiting = interpreter.state.waiting → input = some given →
          Keeps (State.Stands project) (interpreter.Excused project input)
            (state.answer project given) := by
        rintro state given hstate hwaiting rfl
        exact ⟨hstate.answer given, fun _ => excused_of_answer hproject hstands hstate hwaiting⟩
      have hstep : ∀ (state next : State) (effects : List Effect), state.Stands project →
          state.isPaused = false → state.step project = .ok (next, effects) →
          next.Stands project := fun state next effects hstate => hstate.step
      have hcommand : ∀ (state : State) (cause : Fault), state.Stands project →
          state.isPaused = false → state.step project = .error cause →
          interpreter.Excused project input cause := by
        intro state cause hstate _ herror
        obtain ⟨command, hcommand, hexecute⟩ := hstate.step_error herror
        have hnames := hstate.names.trans (State.sameNames_initial project)
        exact absurd hexecute (hproject.execute_ne_error (hproject.commandAt hcommand) hnames)
      exact (tick_keeps hstands hbegin hanswer hstep hcommand (.inl rfl)).2 fault hfault

/-- On every run of a project that is reviewed without an error, a tick only fails by the step limit
or by a choice that is not offered. -/
theorem tick_excused_of_review
    (hreview : ∀ finding ∈ project.review, finding.severity ≠ .error)
    (inputs : List (Option Input)) (input : Option Input)
    (hfault : ((after project inputs).tick project input).2 = .error fault) :
    (after project inputs).Excused project input fault :=
  excused_of_tick (Project.sound_of_review hreview) (stands_after project inputs) hfault

/-- One scene that asks a question with two answers. -/
def question : Project where
  flags := [{ id := "f", name := "yes" }]
  scenes := [{ id := "s", commands := [.dialogue "c" "" "Well?"
    [{ text := "Yes", setFlag := "yes", setFlagValue := true }, { text := "No" }]] }]

/-- A third answer to the question is refused. -/
theorem tick_excused_question :
    (∀ finding ∈ question.review, finding.severity ≠ .error) ∧
      ((after question [none]).tick question (some (.choose 2))).2 =
        .error (.invalidChoice 2 2) ∧
      (after question [none]).Excused question (some (.choose 2)) (.invalidChoice 2 2) :=
  ⟨by decide, rfl, tick_excused_of_review (by decide) [none] (some (.choose 2)) rfl⟩

end Interpreter
end SceneScript
