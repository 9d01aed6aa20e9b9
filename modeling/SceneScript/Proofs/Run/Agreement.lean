import SceneScript.Proofs.Run.Standing

/-! # Positions and waits

On every run of a project that is not edited, the position stays inside its list, what the run waits
for is written at the position, and no position is found to be invalid.
-/

namespace SceneScript

/-! ## Faults of commands -/

/-- The fault is not that a position does not fit the project. -/
def Fault.OfScript (fault : Fault) : Prop := ∀ cause, fault ≠ .invalidPosition cause

/-- The fault is about what a command asks for: neither about a position nor about an answer. -/
def Fault.OfCommand : Fault → Prop
  | .invalidPosition _ | .invalidChoice _ _ | .overflow => False
  | _ => True

/-- The fault is about something that a command names: a flag or a variable, a group, a scene or a
condition. -/
def Fault.OfContent : Fault → Prop
  | .invalidPosition _ | .invalidChoice _ _ | .endless _ | .overflow => False
  | _ => True

theorem Fault.OfContent.ofCommand {fault : Fault} (h : fault.OfContent) : fault.OfCommand := by
  cases fault with
  | endless limit => trivial
  | _ => exact h

theorem Fault.OfContent.ne_endless {fault : Fault} (h : fault.OfContent) (limit : Nat) :
    fault ≠ .endless limit := by
  rintro rfl
  exact h

theorem Fault.OfCommand.ofScript {fault : Fault} (h : fault.OfCommand) : fault.OfScript := by
  rintro cause rfl
  exact h

theorem Fault.OfCommand.ne_invalidChoice {fault : Fault} (h : fault.OfCommand)
    (index count : Index) : fault ≠ .invalidChoice index count := by
  rintro rfl
  exact h

/-- The fault says of an answer that there are not so many. -/
def Fault.OfAnswer (waiting : Waiting) (input : Input) (fault : Fault) : Prop :=
  ∃ count index, waiting = .choice count ∧ input = .choose index ∧ count ≤ index ∧
    fault = .invalidChoice index count

section

variable {project : Project} {state : State} {fault : Fault}

theorem Project.follow_ofContent {chain ids cleared : List String}
    (h : project.follow chain ids cleared = .error fault) : fault.OfContent := by
  fun_induction project.follow chain ids cleared generalizing fault with
  | case1 => cases h
  | case2 => cases h; trivial
  | case3 _ _ _ _ _ _ ih => exact ih h
  | case4 => cases h; trivial
  | case5 _ _ _ _ _ _ _ _ _ _ _ ih => exact ih h
  | case6 _ _ _ _ _ _ _ _ _ hinner ih =>
      cases h
      exact ih hinner

theorem Project.sceneAt_ofContent {index : Index} (h : project.sceneAt index = .error fault) :
    fault.OfContent := by
  obtain ⟨-, rfl⟩ := sceneAt_eq_error.mp h
  trivial

theorem Condition.evaluate_ofContent {condition : Condition} {symbols : Symbols}
    (h : condition.evaluate (m := Id) symbols = .error fault) : fault.OfContent := by
  unfold evaluate at h
  split at h
  · cases h
  · simp only [evaluateFlag, bind, pure] at h
    split at h
    · cases h; trivial
    · split at h
      · cases h; trivial
      · split at h <;> cases h
        trivial
  · simp only [evaluateVariable, bind, pure] at h
    split at h
    · cases h; trivial
    · split at h <;> cases h
      trivial

theorem Condition.select_ofContent {conditions : List Condition} {symbols : Symbols}
    (h : select (m := Id) conditions symbols = .error fault) : fault.OfContent := by
  rcases select_error h with hstructure | ⟨condition, -, hcondition⟩
  · unfold checkStructure at hstructure
    cases hkinds : checkKinds (conditions.map (·.kind)) <;> rw [hkinds] at hstructure <;>
      cases hstructure
    trivial
  · exact evaluate_ofContent hcondition

/-- Running a command asks for names, groups and scenes, and never for a position. -/
theorem Action.execute_ofContent {action : Action Command} {index : Index}
    (h : action.execute project state index = .error fault) : fault.OfContent := by
  cases action with
  | dialogue speaker text choices => cases choices <;> cases h
  | branching label branches =>
      rw [execute_branching] at h
      split at h
      · cases h
      · cases h
      · next hselect =>
          cases h
          exact Condition.select_ofContent hselect
  | setFlag name value =>
      simp only [execute_setFlag, bind_eq_error, pure_ne_error, and_false, exists_false,
        or_false] at h
      obtain ⟨-, rfl⟩ := State.setFlag_eq_error.mp h
      trivial
  | setVariable name operation operand =>
      simp only [execute_setVariable, bind_eq_error, pure_ne_error, and_false, exists_false,
        or_false] at h
      obtain ⟨-, rfl⟩ := State.changeVariable_eq_error.mp h
      trivial
  | call id =>
      simp only [execute_call, bind_eq_error, pure_ne_error, and_false, exists_false,
        or_false] at h
      exact Project.follow_ofContent (map_eq_error.mp h)
  | goto target withTransition =>
      rw [execute_goto, bind_eq_error] at h
      rcases h with hscene | ⟨scene, -, h⟩
      · exact Project.sceneAt_ofContent hscene
      · cases withTransition <;> cases h
  | _ => cases h

end

/-! ## Positions inside their list -/

/-- The position is at a command of a list that is found, or right behind the last one. -/
def Position.Within (project : Project) (position : Position) : Prop :=
  ∃ commands, project.resolve position = .ok commands ∧
    position.command.toNat ≤ commands.length

/-- Behind an item of a list there is a place of the list or its end. -/
theorem Index.toNat_succ_le_length {α : Type} {index : Index} {items : List α} {item : α}
    (h : Index.of? index items = some item) : (index + 1).toNat ≤ items.length := by
  rw [toNat_succ h]
  exact lt_length_of_of? h

namespace Position.Within

variable {project : Project} {position next : Position}

theorem sceneStart {index : Index} {scene : Scene} (h : project.scene? index = some scene) :
    (Position.sceneStart index).Within project :=
  ⟨scene.commands, resolve_sceneStart h, Nat.zero_le _⟩

theorem forward {command : Command} (h : project.commandAt position = .ok command) :
    position.forward.Within project := by
  obtain ⟨commands, hlist, hplace⟩ := commandAt_eq_ok.mp h
  exact ⟨commands, hlist, Index.toNat_succ_le_length hplace⟩

theorem enter {command : Command} {frame : Frame} (h : project.commandAt position = .ok command)
    (hleads : command.action.Leads project position.command (.enter frame)) :
    (position.enter frame).Within project := by
  obtain ⟨commands, hlist, hplace⟩ := commandAt_eq_ok.mp h
  obtain ⟨body, hbody⟩ := Frame.exists_innerList_of_leads hplace hleads
  exact ⟨body, resolve_enter hlist hbody, Nat.zero_le _⟩

/-- Behind a list, the place behind its owner is in the list around it. -/
theorem leave {body : List Command} (hlist : project.resolve position = .ok body)
    (hleave : position.leave? = .ok (some next)) : next.Within project := by
  obtain ⟨frames, frame, hframes, -, rfl⟩ := leave?_eq_some.mp hleave
  rw [Project.resolve, hframes] at hlist
  obtain ⟨commands, hcommands, hinner⟩ := Project.listAt_eq_ok_append.mp hlist
  obtain ⟨owner, howner, -⟩ := Frame.innerList_eq_ok.mp hinner
  exact ⟨commands, hcommands, Index.toNat_succ_le_length howner⟩

end Position.Within

/-! ## What every part of a tick keeps -/

/-- The state stands in the script, at a place of its list. -/
structure State.Placed (project : Project) (state : State) : Prop where
  stands : state.Stands project
  within : state.position.Within project

namespace State.Placed

variable {project : Project} {state next : State} {effects : List Effect}

theorem step (h : state.Placed project) (hpaused : state.isPaused = false)
    (hstep : state.step project = .ok (next, effects)) : next.Placed project := by
  refine ⟨h.stands.step hpaused hstep, ?_⟩
  cases State.step_iff.mp hstep with
  | leave hend hleave =>
      obtain ⟨commands, hlist, -⟩ := hend
      exact .leave hlist hleave
  | fall _ _ hscene => exact .sceneStart hscene
  | halt _ _ _ => exact h.within
  | @advance execution hdone _ =>
      obtain ⟨command, hcommand, hexecute⟩ := hdone
      rw [(Action.execute_done hexecute).position_eq]
      exact .forward hcommand
  | @enter execution frame hdone hflow =>
      obtain ⟨command, hcommand, hexecute⟩ := hdone
      have done := Action.execute_done hexecute
      have hleads := done.leads
      rw [hflow] at hleads
      rw [done.position_eq]
      exact .enter hcommand hleads
  | jump _ _ hscene => exact .sceneStart hscene
  | @wait execution reason hdone _ =>
      obtain ⟨command, -, hexecute⟩ := hdone
      change execution.state.position.Within project
      rw [(Action.execute_done hexecute).position_eq]
      exact h.within

theorem answer (h : state.Placed project) (input : Input) :
    (state.answer project input).1.Placed project := by
  refine ⟨h.stands.answer input, ?_⟩
  have hanswers := State.answers project state input
  generalize state.answer project input = result at hanswers ⊢
  cases hanswers with
  | ignored | stuck _ _ | refused _ _ | lost _ _ => exact h.within
  | clicked hwaiting _ =>
      obtain ⟨command, hcommand, -⟩ := h.stands.suits hwaiting (by simp)
      exact .forward hcommand
  | chosen _ hchoose =>
      obtain ⟨command, choice, hcommand, -, hpick⟩ := State.exists_pick_of_choose hchoose
      obtain ⟨_, ⟨flags, rfl⟩, -, ⟨-, -, rfl⟩ | rfl⟩ := State.pick_kept hpick
      · exact h.within
      · exact .forward hcommand
  | arrived _ hscene => exact .sceneStart hscene

end State.Placed

/-! ## Faults of ticks -/

section

variable {project : Project} {state : State} {fault : Fault}

theorem State.pick_ofContent {choice : Choice} (hplace : state.position.command.HasNext)
    (h : state.pick project choice = .error fault) : fault.OfContent := by
  rcases State.pick_error hplace h with ⟨hgoto, hmissing⟩ | hflag
  · -- With the scene missing, the check of the scene is what fails.
    have hscene : project.sceneAt choice.goto =
        .error (.missingScene choice.goto project.scenes.length) :=
      Project.sceneAt_eq_error.mpr ⟨hmissing, rfl⟩
    simp only [State.pick, hgoto, if_true, hscene] at h
    cases h
    trivial
  · unfold State.setChoiceFlag at hflag
    split at hflag
    · simp only [bind_eq_error, pure_ne_error, and_false, exists_false, or_false] at hflag
      obtain ⟨-, rfl⟩ := State.setFlag_eq_error.mp hflag
      trivial
    · cases hflag

/-- Only commands and answers behind the last one make an answer fail. -/
theorem State.Stands.answer_error {input : Input} (h : state.Stands project)
    (hfault : (state.answer project input).2 = .error fault) :
    fault.OfContent ∨ fault.OfAnswer state.waiting input := by
  have hanswers := State.answers project state input
  generalize state.answer project input = result at hanswers hfault
  cases hanswers with
  | ignored | clicked _ _ | chosen _ _ | arrived _ _ => cases hfault
  | stuck _ hlast => exact absurd h.hasNext hlast
  | @refused count index cause hwaiting hchoose =>
      cases hfault
      by_cases hindex : count ≤ index
      · rw [State.choose_of_le hindex] at hchoose
        cases hchoose
        exact .inr ⟨count, index, hwaiting, rfl, hindex, rfl⟩
      · have hbelow : index < count := UInt64.not_le.mp hindex
        obtain ⟨command, choice, hcommand, hchoice⟩ := h.exists_choice hwaiting hbelow
        rw [State.choose_of_lt hbelow hcommand, hchoice] at hchoose
        exact .inl (State.pick_ofContent h.hasNext hchoose)
  | lost _ _ =>
      cases hfault
      exact .inl trivial

theorem State.Stands.step_ofContent (h : state.Stands project)
    (hfault : state.step project = .error fault) : fault.OfContent := by
  obtain ⟨command, -, hexecute⟩ := h.step_error hfault
  exact Action.execute_ofContent hexecute

end

/-! ## Runs -/

namespace Interpreter

variable {project : Project} {interpreter : Interpreter}

/-- The run stands in the script, at a place of its list unless there is no scene. -/
structure Placed (project : Project) (interpreter : Interpreter) : Prop where
  stands : interpreter.Stands project
  within : project.scenes ≠ [] → interpreter.state.position.Within project

theorem Placed.placed (h : interpreter.Placed project)
    (hstands : interpreter.state.Stands project) : interpreter.state.Placed project := by
  refine ⟨hstands, h.within fun hscenes => ?_⟩
  obtain ⟨commands, hlist⟩ := hstands.found
  obtain ⟨scene, hscene⟩ := Position.exists_scene_of_resolve hlist
  simpa [hscenes] using Project.mem_scenes_of_scene? hscene

/-- A tick fails for what a command asks for, or for an answer behind the last one. -/
theorem Stands.tick_error {input : Option Input} {fault : Fault} (h : interpreter.Stands project)
    (hfault : (interpreter.tick project input).2 = .error fault) :
    fault.OfCommand ∨
      ∃ given, input = some given ∧ fault.OfAnswer interpreter.state.waiting given := by
  cases hfinished : interpreter.state.finished with
  | true =>
      simp only [Interpreter.tick, hfinished, if_true] at hfault
      cases hfault
  | false =>
      have hstands := h.of_unfinished hfinished
      have hbegin : Keeps (State.Stands project) (fun fault => fault.OfCommand ∨
          ∃ given, input = some given ∧ fault.OfAnswer interpreter.state.waiting given)
          (interpreter.begin project) := by
        refine ⟨stands_begin hstands h.unbegun, fun fault herror => .inl ?_⟩
        rcases begin_cases project interpreter with heq | ⟨-, ⟨scene, -, heq⟩ | ⟨-, heq⟩⟩ <;>
          rw [heq] at herror <;> cases herror
        trivial
      refine (tick_keeps hstands hbegin (fun state given hstate hwaiting hgiven =>
        ⟨hstate.answer given, fun fault herror => ?_⟩) (fun _ _ _ hstate => hstate.step)
        (fun _ _ hstate _ herror => .inl (hstate.step_ofContent herror).ofCommand)
        (.inl trivial)).2 fault hfault
      exact (hstate.answer_error herror).imp Fault.OfContent.ofCommand
        fun hanswer => ⟨given, hgiven, hwaiting ▸ hanswer⟩

theorem Placed.tick (h : interpreter.Placed project) (input : Option Input) :
    (interpreter.tick project input).1.Placed project := by
  cases hfinished : interpreter.state.finished with
  | true => simp [Interpreter.tick, hfinished, h]
  | false =>
      have hplaced := h.placed (h.stands.of_unfinished hfinished)
      have hbegin : (interpreter.begin project).1.Placed project := by
        refine ⟨stands_begin hplaced.stands h.stands.unbegun, ?_⟩
        rcases begin_cases project interpreter with heq | ⟨-, ⟨scene, hscene, heq⟩ | ⟨-, heq⟩⟩ <;>
          rw [heq]
        · exact hplaced.within
        · exact .sceneStart hscene
        · exact hplaced.within
      have hkeeps : (interpreter.tick project input).1.state.Placed project ∧
          ∀ fault, (interpreter.tick project input).2 = .error fault → True :=
        tick_keeps hplaced ⟨hbegin, fun _ _ => trivial⟩
          (fun state given hstate _ _ => ⟨hstate.answer given, fun _ _ => trivial⟩)
          (fun _ _ _ hstate => hstate.step) (fun _ _ _ _ _ => trivial) trivial
      exact ⟨h.stands.tick input, fun _ => hkeeps.1.within⟩

theorem placed_after (project : Project) (inputs : List (Option Input)) :
    (after project inputs).Placed project := by
  refine after_induction ⟨stands_new, fun hscenes => ?_⟩ (fun _ input h => h.tick input) inputs
  obtain ⟨scene, rest, hlist⟩ := List.exists_cons_of_ne_nil hscenes
  have hscene : project.scene? 0 = some scene := by simp [Project.scene?, hlist]
  exact .sceneStart hscene

end Interpreter

/-! ## What the position says about the wait -/

/-- The dialogues of the list, and of all lists inside it, have few enough choices to be counted. -/
def Command.CountsChoices (commands : List Command) : Prop :=
  ∀ command ∈ listSubcommands commands, ∀ choices, command.choices? = some choices →
    choices.length < UInt64.size

/-- Every choice has an index of its own, as in any project that fits in memory. -/
structure Project.CountsChoices (project : Project) : Prop where
  scenes : ∀ scene ∈ project.scenes, Command.CountsChoices scene.commands
  groups : ∀ group ∈ project.sharedCommands, Command.CountsChoices group.commands

theorem Project.CountsChoices.commandAt {project : Project} (h : project.CountsChoices)
    {position : Position} {command : Command} {choices : List Choice}
    (hcommand : project.commandAt position = .ok command)
    (hchoices : command.choices? = some choices) : choices.length < UInt64.size := by
  obtain ⟨commands, hlist, hplace⟩ := Position.commandAt_eq_ok.mp hcommand
  have hcounts : Command.CountsChoices commands :=
    Project.listAt_induction h.scenes h.groups
      (fun _ hall _ hmem _ hbranch inner hinner =>
        hall inner (Command.listSubcommands_body_subset hmem hbranch hinner)) hlist
  have hmem : command ∈ commands := Index.mem_of_of? hplace
  exact hcounts command (Command.mem_listSubcommands_of_mem hmem) _ hchoices

/-- The position is found, and the command there is one that leads to the wait. -/
structure State.Agrees (project : Project) (state : State) : Prop where
  within : project.scenes ≠ [] → state.position.Within project
  click : state.waiting = .click → ∃ command speaker text,
    project.commandAt state.position = .ok command ∧ command.action = .dialogue speaker text []
  choice : ∀ count, state.waiting = .choice count → ∃ command speaker text choices,
    project.commandAt state.position = .ok command ∧
      command.action = .dialogue speaker text choices ∧
      choices.length = count.toNat ∧ 1 ≤ count.toNat
  transition : ∀ target, state.waiting = .transition target →
    target.toNat < project.scenes.length ∧ ∃ command,
      project.commandAt state.position = .ok command ∧
        (command.action = .goto target true ∨ ∃ speaker text choices choice,
          command.action = .dialogue speaker text choices ∧ choice ∈ choices ∧
            choice.enableGoto = true ∧ choice.goto = target)

namespace Interpreter

variable {project : Project} {interpreter : Interpreter}

theorem Placed.agrees (h : interpreter.Placed project) (hcounts : project.CountsChoices) :
    interpreter.state.Agrees project where
  within := h.within
  click hwaiting := by
    have hstands := h.stands.of_waiting (by simp [hwaiting])
    obtain ⟨command, hcommand, speaker, text, haction⟩ := hstands.suits hwaiting (by simp)
    exact ⟨command, speaker, text, hcommand, haction⟩
  choice count hwaiting := by
    have hstands := h.stands.of_waiting (by simp [hwaiting])
    obtain ⟨command, hcommand, speaker, text, choices, haction, hchoices, rfl⟩ :=
      hstands.suits hwaiting (by simp)
    have hlength : choices.length < UInt64.size :=
      hcounts.commandAt hcommand (by simp [Command.choices?, haction])
    have hcount : (UInt64.ofNat choices.length).toNat = choices.length :=
      UInt64.toNat_ofNat_of_lt hlength
    refine ⟨command, speaker, text, choices, hcommand, haction, hcount.symm, ?_⟩
    rw [hcount]
    exact List.length_pos_iff.mpr hchoices
  transition target hwaiting := by
    have hstands := h.stands.of_waiting (by simp [hwaiting])
    obtain ⟨command, hcommand, ⟨scene, hscene⟩, haction⟩ := hstands.suits hwaiting (by simp)
    exact ⟨Index.lt_length_of_of? hscene, command, hcommand, haction⟩

/-- What is asked for is there: a run that waits has its command. -/
theorem Placed.activeCommand_ne_error (h : interpreter.Placed project) (fault : Fault) :
    interpreter.state.activeCommand project ≠ .error fault := by
  unfold State.activeCommand
  split
  · next hactive =>
      have hwaiting : interpreter.state.waiting ≠ .nothing := by
        simp only [Bool.and_eq_true, State.isWaiting, bne_iff_ne] at hactive
        exact hactive.1
      obtain ⟨command, hcommand, -⟩ := (h.stands.of_waiting hwaiting).waits hwaiting
      simp [hcommand, Except.map]
  · simp

/-- On every run of a project that is not edited, position and wait agree, and neither a tick nor
the question for the active command meets an invalid position. -/
theorem agrees_after (hcounts : project.CountsChoices) (inputs : List (Option Input)) :
    (after project inputs).state.Agrees project ∧
      (∀ input cause,
        ((after project inputs).tick project input).2 ≠ .error (.invalidPosition cause)) ∧
      ∀ cause, (after project inputs).state.activeCommand project ≠
        .error (.invalidPosition cause) := by
  have hplaced := placed_after project inputs
  refine ⟨hplaced.agrees hcounts, fun input cause hfault => ?_,
    fun cause => hplaced.activeCommand_ne_error _⟩
  rcases hplaced.stands.tick_error hfault with hcommand | ⟨_, -, _, _, -, -, -, hchoice⟩
  · exact hcommand.ofScript cause rfl
  · cases hchoice

/-- A question in a branch, one of its answers leading to a second scene. -/
def junction : Project where
  flags := [{ id := "f", name := "lost", value := true }]
  scenes := [
    { id := "a", commands := [⟨"b", .branching "" [
        .onFlag .if "lost" .eq true [⟨"m", .stopTrack .music⟩,
          .dialogue "d" "" "Where to?" [{ text := "Stay" },
            { text := "Go", enableGoto := true, goto := 1, setFlag := "lost" }]]]⟩] },
    { id := "z", commands := [.dialogue "e" "" "There" []] }]

theorem countsChoices_junction : junction.CountsChoices := by
  refine ⟨?_, by simp [junction]⟩
  simp [junction, Command.CountsChoices, Command.listSubcommands, Command.subcommands,
    Branch.listSubcommands, Command.choices?, Branch.onFlag, Command.dialogue, UInt64.size]

/-- The second answer waits for the second scene, at the question inside the branch. -/
theorem agrees_junction :
    junction.CountsChoices ∧
      (after junction [none, some (.choose 1)]).state.waiting = .transition 1 ∧
      (after junction [none, some (.choose 1)]).state.position = ⟨0, [.branch 0 0], 1⟩ ∧
      (after junction [none, some (.choose 1)]).state.Agrees junction :=
  ⟨countsChoices_junction, rfl, rfl, (agrees_after countsChoices_junction _).1⟩

end Interpreter
end SceneScript
