import SceneScript.Proofs.Run.Hosting
import SceneScript.Proofs.Run.Refinement

/-! # Runs where groups are in place

A call does what the commands of its group do in its place. Each step of a run is the same step in
the inlined project, or none, where it enters or leaves a group.
-/

namespace SceneScript

variable {project : Project} {state other next final : State} {flat : Position}
  {effects : List Effect} {fault : Fault}

theorem Project.scene?_inlined (project : Project) {index : Index} {scene : Scene}
    (hscene : project.scene? index = some scene) :
    project.inlined.scene? index =
      some (scene.rewrite (Command.splice (project.expansion []))) := by
  rw [project.rewritesScenes_inlined.scene?_eq, hscene]
  rfl

/-! ## Commands -/

/-- A frame into a branch of the command at another position. -/
def Flow.moved (flat : Position) : Flow → Flow
  | .enter (.branch _ chosen) => .enter (.branch flat.command chosen)
  | flow => flow

/-- What the same command does at another position. -/
def Execution.moved (flat : Position) (execution : Execution) : Execution :=
  { state := { execution.state with position := flat }, effects := execution.effects,
    flow := execution.flow.moved flat }

theorem Action.execute_inlined {action : Action Command} {index : Index}
    (hscene : flat.scene = state.position.scene) (hcall : ∀ id, action ≠ .call id) :
    (action.inlined project).execute project.inlined { state with position := flat } flat.command =
      (action.execute project state index).map (Execution.moved flat) := by
  cases action with
  | dialogue speaker text choices => cases choices <;> rfl
  | branching label branches =>
      have hconditions : (branches.map (Branch.rewrite (Command.splice (project.expansion [])))).map
          (·.condition) = branches.map (·.condition) := List.map_map
      have hsymbols : { state with position := flat }.symbols = state.symbols := rfl
      simp only [inlined, execute_branching, hconditions, hsymbols]
      cases Condition.select (m := Id) (branches.map (·.condition)) state.symbols with
      | error fault => rfl
      | ok chosen => cases chosen <;> rfl
  | setFlag name value =>
      simp only [inlined, execute_setFlag, State.setFlag]
      cases state.flags.find? name <;> rfl
  | setVariable name operation operand =>
      simp only [inlined, execute_setVariable, State.changeVariable]
      cases state.vars.find? name <;> rfl
  | call id => exact absurd rfl (hcall id)
  | goto target withTransition =>
      simp only [inlined, execute_goto, project.rewritesScenes_inlined.sceneAt_eq, hscene]
      cases project.sceneAt target with
      | error fault => rfl
      | ok scene => cases withTransition <;> rfl
  | _ => rfl

/-- A call enters its group and does nothing else. -/
theorem Action.eq_of_execute_call {index : Index} {id : String} {execution : Execution}
    (h : (Action.call id).execute project state index = .ok execution) :
    execution = { state, flow := .enter (.group index id) } := by
  rw [execute_call] at h
  obtain ⟨_, -, h⟩ := bind_eq_ok.mp h
  cases h
  rfl

/-! ## Steps -/

/-- The other state is the same, but for its position alongside. -/
def State.Together (project : Project) (state other : State) : Prop :=
  ∃ flat, state.position.Alongside project flat ∧ other = { state with position := flat }

namespace State

theorem Together.isPaused_eq (h : state.Together project other) :
    other.isPaused = state.isPaused := by
  obtain ⟨flat, -, rfl⟩ := h
  rfl

theorem Together.waiting_eq (h : state.Together project other) : other.waiting = state.waiting := by
  obtain ⟨flat, -, rfl⟩ := h
  rfl

theorem Together.finished_eq (h : state.Together project other) :
    other.finished = state.finished := by
  obtain ⟨flat, -, rfl⟩ := h
  rfl

/-- What a command other than a call does, it does in the inlined project, and goes on alongside. -/
theorem performs_inlined {execution : Execution} (hinlinable : project.Inlinable)
    (h : state.position.Alongside project flat) (hperforms : state.Performs project execution)
    (hgroup : ∀ owner id, execution.flow ≠ .enter (.group owner id)) :
    { state with position := flat }.Performs project.inlined (execution.moved flat) ∧
      execution.state.position = state.position ∧
      state.position.forward.Alongside project flat.forward := by
  obtain ⟨command, hcommand, hexecute⟩ := hperforms
  have hcall : ∀ id, command.action ≠ .call id := by
    intro id haction
    rw [haction] at hexecute
    rw [Action.eq_of_execute_call hexecute] at hgroup
    exact hgroup _ _ rfl
  obtain ⟨hhere, hnext⟩ := h.advance hinlinable hcommand hcall
  have hmoved := (Action.execute_inlined h.1 hcall).trans (congrArg _ hexecute)
  exact ⟨⟨_, hhere, hmoved⟩, (Action.execute_done hexecute).position_eq, hnext⟩

/-- A step enters or leaves a group, or it is a step of the inlined project. -/
theorem step_inlined (hinlinable : project.Inlinable) (htogether : state.Together project other)
    (hstep : state.step project = .ok (next, effects)) :
    (effects = [] ∧ next.Together project other) ∨
      ∃ after, other.step project.inlined = .ok (after, effects) ∧ next.Together project after := by
  obtain ⟨flat, h, rfl⟩ := htogether
  have hplace : flat.scene = state.position.scene := h.1
  cases step_iff.mp hstep with
  | @leave outer hend hleave =>
      rcases h.leave hinlinable hend hleave with hgroup | ⟨hover, after, hout, hbranch⟩
      · exact .inl ⟨rfl, flat, hgroup, rfl⟩
      · exact .inr ⟨_, step_iff.mpr (.leave hover hout), after, hbranch, rfl⟩
  | @fall scene hend hleave hscene =>
      obtain ⟨hover, hout⟩ := h.leave_none hinlinable hend hleave
      have hends : { state with position := flat }.AtEnd project.inlined := hover
      rw [← hplace] at hscene ⊢
      have hgoes := step_iff.mpr (.fall hends hout (project.scene?_inlined hscene))
      exact .inr ⟨_, hgoes, _, .sceneStart hscene, rfl⟩
  | halt hend hleave hlast =>
      obtain ⟨hover, hout⟩ := h.leave_none hinlinable hend hleave
      have hnone : project.inlined.scene? (flat.scene + 1) = none := by
        rw [project.rewritesScenes_inlined.scene?_eq, hplace, hlast]
        rfl
      exact .inr ⟨_, step_iff.mpr (.halt hover hout hnone), flat, h, rfl⟩
  | @advance execution hperforms hflow =>
      obtain ⟨hdone, hsame, hnext⟩ := performs_inlined hinlinable h hperforms (by rw [hflow]; nofun)
      have hmoved : (execution.moved flat).flow = .next := congrArg (Flow.moved flat) hflow
      have hgoes := step_iff.mpr (.advance hdone hmoved)
      refine .inr ⟨_, hgoes, flat.forward, ?_, rfl⟩
      rw [hsame]
      exact hnext
  | @enter execution frame hperforms hflow =>
      obtain ⟨command, hcommand, hexecute⟩ := id hperforms
      have hleads := (Action.execute_done hexecute).leads
      rw [hflow] at hleads
      cases frame with
      | branch owner chosen =>
          obtain ⟨rfl, label, branches, taken, haction, htaken⟩ := hleads
          obtain ⟨hdone, hsame, -⟩ :=
            performs_inlined hinlinable h hperforms (by rw [hflow]; nofun)
          have hmoved : (execution.moved flat).flow = .enter (.branch flat.command chosen) :=
            congrArg (Flow.moved flat) hflow
          have hgoes := step_iff.mpr (.enter hdone hmoved)
          refine .inr ⟨_, hgoes, flat.enter (.branch flat.command chosen), ?_, rfl⟩
          rw [hsame]
          exact h.enter_branch hinlinable hcommand haction htaken
      | group owner id =>
          obtain ⟨rfl, haction, -⟩ := hleads
          rw [haction] at hexecute
          obtain rfl := Action.eq_of_execute_call hexecute
          exact .inl ⟨rfl, flat, h.enter_group hinlinable hcommand haction, rfl⟩
  | @jump execution target scene hperforms hflow hscene =>
      obtain ⟨hdone, -, -⟩ := performs_inlined hinlinable h hperforms (by rw [hflow]; nofun)
      have hmoved : (execution.moved flat).flow = .jump target := congrArg (Flow.moved flat) hflow
      have hgoes := step_iff.mpr (.jump hdone hmoved (project.scene?_inlined hscene))
      exact .inr ⟨_, hgoes, .sceneStart target, .sceneStart hscene, rfl⟩
  | @wait execution reason hperforms hflow =>
      obtain ⟨hdone, hsame, -⟩ := performs_inlined hinlinable h hperforms (by rw [hflow]; nofun)
      have hmoved : (execution.moved flat).flow = .wait reason := congrArg (Flow.moved flat) hflow
      have hgoes := step_iff.mpr (.wait hdone hmoved)
      refine .inr ⟨_, hgoes, flat, ?_, rfl⟩
      rw [hsame]
      exact h

/-- A step fails for the same cause in the inlined project. -/
theorem step_inlined_error (hinlinable : project.Inlinable)
    (htogether : state.Together project other) (hstep : state.step project = .error fault) :
    other.step project.inlined = .error fault := by
  obtain ⟨flat, h, rfl⟩ := htogether
  rcases step_eq_error.mp hstep with hresolve | ⟨command, hcommand, hexecute⟩
  · obtain ⟨list, hlist⟩ := h.exists_list
    rw [hlist] at hresolve
    cases hresolve
  · have hcall : ∀ id, command.action ≠ .call id := by
      intro id haction
      have hcheck := Project.checkGroup_eq_ok.mpr (h.callable hinlinable hcommand haction)
      rw [haction, Action.execute_call, hcheck] at hexecute
      cases hexecute
    obtain ⟨hhere, -⟩ := h.advance hinlinable hcommand hcall
    have hfails := (Action.execute_inlined h.1 hcall).trans (congrArg _ hexecute)
    exact step_eq_error.mpr (.inr ⟨_, hhere, hfails⟩)

/-! ## Runs -/

/-- A run that is not cut off is a run of the inlined project, which needs no more steps. -/
theorem run_inlined {limit steps : Nat} {result : Except Fault (List Effect)}
    (hinlinable : project.Inlinable) (htogether : state.Together project other)
    (hpaused : state.isPaused = false) (hrun : state.run project limit steps = (final, result))
    (hends : result ≠ .error (.endless limit)) :
    ∃ last, other.run project.inlined limit steps = (last, result) ∧
      final.Together project last := by
  induction steps generalizing state other result with
  | zero =>
      cases hrun
      exact absurd rfl hends
  | succ steps ih =>
      rcases run_succ_eq.mp hrun with ⟨fault, hstep, rfl, rfl⟩ | ⟨next, first, hstep, hrest⟩
      · have hfails := step_inlined_error hinlinable htogether hstep
        exact ⟨other, run_succ_eq.mpr (.inl ⟨fault, hfails, rfl, rfl⟩), htogether⟩
      · rcases step_inlined hinlinable htogether hstep with ⟨rfl, hsame⟩ |
          ⟨after, hinlined, hafter⟩
        · -- The inlined project saves the step.
          have hgoes := hsame.isPaused_eq.symm.trans (htogether.isPaused_eq.trans hpaused)
          rcases hrest with ⟨hstops, -, -⟩ | ⟨-, later, hlater, rfl⟩
          · rw [hgoes] at hstops
            cases hstops
          · have hnothing : later.map (([] : List Effect) ++ ·) = later := by cases later <;> rfl
            rw [hnothing] at hends ⊢
            obtain ⟨last, hlast, hfinal⟩ := ih hsame hgoes hlater hends
            exact ⟨last, run_of_le (Nat.le_succ steps) hlast hends, hfinal⟩
        · rcases hrest with ⟨hstops, rfl, rfl⟩ | ⟨hgoes, later, hlater, rfl⟩
          · have hstops' := hafter.isPaused_eq.trans hstops
            exact ⟨after, run_succ_eq.mpr (.inr ⟨_, _, hinlined, .inl ⟨hstops', rfl, rfl⟩⟩), hafter⟩
          · have hcomplete : later ≠ .error (.endless limit) := by
              rintro rfl
              exact hends rfl
            have hgoes' := hafter.isPaused_eq.trans hgoes
            obtain ⟨last, hlast, hfinal⟩ := ih hafter hgoes hlater hcomplete
            exact ⟨last, run_succ_eq.mpr (.inr ⟨_, _, hinlined,
              .inr ⟨hgoes', later, hlast, rfl⟩⟩), hfinal⟩

/-! ## Answers -/

theorem setChoiceFlag_moved (state : State) (flat : Position) (choice : Choice) :
    { state with position := flat }.setChoiceFlag choice =
      (state.setChoiceFlag choice).map fun (flagged, effects) =>
        ({ flagged with position := flat }, effects) := by
  unfold setChoiceFlag
  cases choice.flagEffect with
  | none => rfl
  | some effect =>
      obtain ⟨name, value⟩ := effect
      simp only [setFlag]
      cases state.flags.find? name <;> rfl

/-- An answer is taken or refused in both projects. -/
def AnswersTogether (project : Project)
    (result inlined : Except Fault (State × List Effect)) : Prop :=
  (∃ next other effects, result = .ok (next, effects) ∧ inlined = .ok (other, effects) ∧
      next.Together project other) ∨
    ∃ fault, result = .error fault ∧ inlined = .error fault

theorem pick_inlined (h : state.position.Alongside project flat)
    (hadvance : state.position.advance = .ok state.position.forward)
    (hflat : flat.advance = .ok flat.forward)
    (hnext : state.position.forward.Alongside project flat.forward) (choice : Choice) :
    AnswersTogether project (state.pick project choice)
      ({ state with position := flat }.pick project.inlined choice) := by
  rw [project.rewritesScenes_inlined.pick_eq]
  unfold pick
  rw [setChoiceFlag_moved state flat choice]
  cases hset : state.setChoiceFlag choice with
  | error fault =>
      refine .inr ?_
      cases choice.enableGoto with
      | false => exact ⟨fault, rfl, rfl⟩
      | true =>
          cases project.sceneAt choice.goto with
          | error missing => exact ⟨missing, rfl, rfl⟩
          | ok scene => exact ⟨fault, rfl, rfl⟩
  | ok flagged =>
      obtain ⟨flagged, noted⟩ := flagged
      obtain ⟨flags, rfl, -⟩ := setChoiceFlag_kept hset
      cases choice.enableGoto with
      | false =>
          refine .inl ⟨{ state with flags, waiting := .nothing, position := state.position.forward },
            _, noted, ?_, ?_, flat.forward, hnext, rfl⟩
          · simp only [bind, Except.bind, hadvance]
            rfl
          · simp only [Except.map, bind, Except.bind, hflat]
            rfl
      | true =>
          cases project.sceneAt choice.goto with
          | error missing => exact .inr ⟨missing, rfl, rfl⟩
          | ok scene =>
              refine .inl ⟨_, _, _, rfl, ?_, flat, h, rfl⟩
              simp only [Except.map, bind, Except.bind, pure, Except.pure, if_true, h.1]

theorem choose_inlined {command : Command} {speaker text : String} {choices : List Choice}
    (hinlinable : project.Inlinable) (htogether : state.Together project other)
    (hcommand : project.commandAt state.position = .ok command)
    (haction : command.action = .dialogue speaker text choices) (count index : Index) :
    AnswersTogether project (state.choose project count index)
      (other.choose project.inlined count index) := by
  obtain ⟨flat, h, rfl⟩ := htogether
  obtain ⟨hhere, hnext⟩ := h.advance hinlinable hcommand (by rw [haction]; exact nofun)
  by_cases hindex : count ≤ index
  · rw [choose_of_le hindex, choose_of_le hindex]
    exact .inr ⟨_, rfl, rfl⟩
  · have hbelow := UInt64.not_le.mp hindex
    have hinlined :=
      @choose_of_lt project.inlined { state with position := flat } _ _ _ hbelow hhere
    rw [choose_of_lt hbelow hcommand, hinlined]
    have hchoices : Command.choices? { command with action := command.action.inlined project } =
        command.choices? := by simp [Command.choices?, haction, Action.inlined]
    rw [hchoices]
    cases (command.choices?.getD [])[index.toNat]? with
    | none => exact .inr ⟨_, rfl, rfl⟩
    | some choice =>
        exact pick_inlined h (Position.advance_of_commandAt hcommand)
          (Position.advance_of_commandAt hhere) hnext choice

/-- A state that stands takes or refuses an input as in the inlined project. -/
theorem answer_inlined {taken : State} {result : Except Fault (List Effect)} {input : Input}
    (hinlinable : project.Inlinable) (hstands : state.Stands project)
    (htogether : state.Together project other)
    (hanswer : state.answer project input = (taken, result)) :
    ∃ last, other.answer project.inlined input = (last, result) ∧ taken.Together project last := by
  have hsame := htogether.waiting_eq
  -- Both states ignore an input that does not answer their wait.
  have ignored (hstate : state.answer project input = (state, .ok []))
      (hother : other.answer project.inlined input = (other, .ok [])) :
      ∃ last, other.answer project.inlined input = (last, result) ∧
        taken.Together project last := by
    rw [hstate] at hanswer
    cases hanswer
    exact ⟨other, hother, htogether⟩
  cases hwaiting : state.waiting with
  | nothing => exact ignored (by simp [answer, hwaiting]) (by simp [answer, hsame, hwaiting])
  | click =>
      cases input with
      | click =>
          obtain ⟨command, hcommand, speaker, text, haction⟩ := hstands.suits hwaiting (by simp)
          obtain ⟨flat, h, rfl⟩ := htogether
          obtain ⟨hhere, hnext⟩ := h.advance hinlinable hcommand (by simp [haction])
          simp only [answer, hwaiting, Position.advance_of_commandAt hcommand,
            Position.advance_of_commandAt hhere] at hanswer ⊢
          cases hanswer
          exact ⟨_, rfl, flat.forward, hnext, rfl⟩
      | _ => exact ignored (by simp [answer, hwaiting]) (by simp [answer, hsame, hwaiting])
  | choice count =>
      cases input with
      | choose index =>
          obtain ⟨command, hcommand, speaker, text, choices, haction, -⟩ :=
            hstands.suits hwaiting (by simp)
          simp only [answer, hsame, hwaiting] at hanswer ⊢
          rcases choose_inlined hinlinable htogether hcommand haction count index with
            ⟨next, last, effects, hchoose, hinlined, hnext⟩ | ⟨fault, hchoose, hinlined⟩
          · rw [hchoose] at hanswer
            cases hanswer
            exact ⟨last, by rw [hinlined], hnext⟩
          · rw [hchoose] at hanswer
            cases hanswer
            exact ⟨other, by rw [hinlined], htogether⟩
      | _ => exact ignored (by simp [answer, hwaiting]) (by simp [answer, hsame, hwaiting])
  | transition target =>
      cases input with
      | transitionFinished =>
          obtain ⟨command, -, ⟨scene, hscene⟩, -⟩ := hstands.suits hwaiting (by simp)
          obtain ⟨flat, h, rfl⟩ := htogether
          simp only [answer, hwaiting, project.rewritesScenes_inlined.enterScene_eq,
            enterScene_of_scene? hscene] at hanswer ⊢
          cases hanswer
          exact ⟨_, rfl, .sceneStart target, .sceneStart hscene, rfl⟩
      | _ => exact ignored (by simp [answer, hwaiting]) (by simp [answer, hsame, hwaiting])

end State

/-! ## Ticks -/

namespace Interpreter

variable {interpreter other next : Interpreter} {input : Option Input} {begun taken : State}
  {result : Except Fault (List Effect)}

theorem begin_inlined (hstarted : other.started = interpreter.started)
    (htogether : interpreter.state.Together project other.state)
    (hbegin : interpreter.begin project = (begun, result)) :
    ∃ last, other.begin project.inlined = (last, result) ∧ begun.Together project last := by
  obtain ⟨state, started⟩ := interpreter
  obtain ⟨_, _⟩ := other
  obtain ⟨flat, h, rfl⟩ := htogether
  cases hstarted
  cases started with
  | true =>
      cases hbegin
      exact ⟨_, rfl, flat, h, rfl⟩
  | false =>
      obtain ⟨list, hlist⟩ := h.exists_list
      obtain ⟨scene, hscene⟩ := Position.exists_scene_of_resolve hlist
      have hplace : flat.scene = state.position.scene := h.1
      simp only [begin, project.rewritesScenes_inlined.enterScene_eq, hplace,
        State.enterScene_of_scene? hscene, Bool.false_eq_true, if_false] at hbegin ⊢
      cases hbegin
      exact ⟨_, rfl, _, .sceneStart hscene, rfl⟩

theorem take_inlined {reached : State} (hinlinable : project.Inlinable)
    (hstands : state.Stands project) (htogether : state.Together project reached)
    (htake : take project input state = (taken, result)) :
    ∃ last, take project.inlined input reached = (last, result) ∧ taken.Together project last := by
  cases input with
  | none =>
      cases htake
      exact ⟨reached, rfl, htogether⟩
  | some given => exact State.answer_inlined hinlinable hstands htogether htake

/-- Up to the first step, a tick of a run that goes on is the same in the inlined project. -/
theorem ready_inlined {entered : List Effect} (hinlinable : project.Inlinable)
    (hstands : interpreter.Stands project) (hstarted : other.started = interpreter.started)
    (htogether : interpreter.state.Together project other.state)
    (hfinished : interpreter.state.finished = false)
    (hbegin : interpreter.begin project = (begun, .ok entered))
    (htake : take project input begun = (taken, result)) :
    ∃ first last, other.begin project.inlined = (first, .ok entered) ∧
      take project.inlined input first = (last, result) ∧ taken.Together project last := by
  have hbegun := hstands.begun hfinished hbegin
  obtain ⟨first, hfirst, hentered⟩ := begin_inlined hstarted htogether hbegin
  obtain ⟨last, hlast, hanswered⟩ := take_inlined hinlinable hbegun hentered htake
  exact ⟨first, last, hfirst, hlast, hanswered⟩

/-- The other run is the same, but for its position alongside. Without a scene there is none. -/
def Together (project : Project) (interpreter other : Interpreter) : Prop :=
  (interpreter.state.finished = true ∧ other = interpreter) ∨
    (other.started = interpreter.started ∧ interpreter.state.Together project other.state)

/-- A tick that is not cut off is the same tick in the inlined project. -/
theorem tick_inlined {response : Except Fault Response} (hinlinable : project.Inlinable)
    (hstands : interpreter.Stands project) (htogether : interpreter.Together project other)
    (htick : interpreter.tick project input = (next, response))
    (hends : response ≠ .error (.endless State.maxSteps)) :
    ∃ last, other.tick project.inlined input = (last, response) ∧ next.Together project last := by
  rcases htogether with ⟨hfinished, rfl⟩ | ⟨hstarted, htogether⟩
  · have hover : ∀ project : Project, other.tick project input = (other, .ok ⟨[], .nothing⟩) :=
      fun _ => if_pos hfinished
    rw [hover] at htick
    cases htick
    exact ⟨other, hover _, .inl ⟨hfinished, rfl⟩⟩
  · have hsame := htogether.finished_eq
    have hticked := ticked project input interpreter
    rw [htick] at hticked
    cases hticked with
    | ended hfinished =>
        exact ⟨other, if_pos (hsame.trans hfinished), .inr ⟨hstarted, htogether⟩⟩
    | unready hfinished hbegin =>
        obtain ⟨first, hfirst, hentered⟩ := begin_inlined hstarted htogether hbegin
        exact ⟨⟨first, true⟩, tick_of_unready (hsame.trans hfinished) hfirst, .inr ⟨rfl, hentered⟩⟩
    | refused hfinished hbegin htake =>
        obtain ⟨first, second, hfirst, hsecond, hanswered⟩ :=
          ready_inlined hinlinable hstands hstarted htogether hfinished hbegin htake
        exact ⟨⟨second, true⟩, tick_of_refused (hsame.trans hfinished) hfirst hsecond,
          .inr ⟨rfl, hanswered⟩⟩
    | waits hfinished hbegin htake hwaiting =>
        obtain ⟨first, second, hfirst, hsecond, hanswered⟩ :=
          ready_inlined hinlinable hstands hstarted htogether hfinished hbegin htake
        have hwaits : second.waiting ≠ .nothing := by rwa [hanswered.waiting_eq]
        refine ⟨⟨second, true⟩, ?_, .inr ⟨rfl, hanswered⟩⟩
        rw [tick_of_waiting (hsame.trans hfinished) hfirst hsecond hwaits, hanswered.waiting_eq]
    | runs hfinished hbegin htake hpaused hrun =>
        obtain ⟨first, second, hfirst, hsecond, hanswered⟩ :=
          ready_inlined hinlinable hstands hstarted htogether hfinished hbegin htake
        obtain ⟨third, hthird, hfinal⟩ := State.run_inlined hinlinable hanswered hpaused hrun nofun
        have hgoes := hanswered.waiting_eq.trans (State.isPaused_eq_false.mp hpaused).1
        refine ⟨⟨third, true⟩, ?_, .inr ⟨rfl, hfinal⟩⟩
        rw [tick_of_run (hsame.trans hfinished) hfirst hsecond hgoes hthird, hfinal.waiting_eq]
        rfl
    | fails hfinished hbegin htake hpaused hrun =>
        obtain ⟨first, second, hfirst, hsecond, hanswered⟩ :=
          ready_inlined hinlinable hstands hstarted htogether hfinished hbegin htake
        obtain ⟨third, hthird, hfinal⟩ := State.run_inlined hinlinable hanswered hpaused hrun
          fun heq => hends (by cases heq; rfl)
        have hgoes := hanswered.waiting_eq.trans (State.isPaused_eq_false.mp hpaused).1
        exact ⟨⟨third, true⟩, tick_of_run (hsame.trans hfinished) hfirst hsecond hgoes hthird,
          .inr ⟨rfl, hfinal⟩⟩

/-! ## Transcripts -/

end Interpreter

/-- The tick has set off too many steps. -/
def Moment.isCutOff (moment : Moment) : Bool :=
  match moment.result with
  | .error (.endless _) => true
  | _ => false

namespace Interpreter

variable {interpreter other : Interpreter}

theorem Together.observed_eq (h : interpreter.Together project other) :
    other.state.flags = interpreter.state.flags ∧ other.state.vars = interpreter.state.vars ∧
      other.state.stage = interpreter.state.stage ∧
      other.state.finished = interpreter.state.finished := by
  rcases h with ⟨-, rfl⟩ | ⟨-, flat, -, hother⟩
  · exact ⟨rfl, rfl, rfl, rfl⟩
  · rw [hother]
    exact ⟨rfl, rfl, rfl, rfl⟩

/-- Up to the first tick that is cut off, both runs show the same. -/
theorem Together.transcript (hinlinable : project.Inlinable) (hstands : interpreter.Stands project)
    (htogether : interpreter.Together project other) (inputs : List (Option Input)) :
    (interpreter.transcript project inputs).takeWhile (fun moment => !moment.isCutOff) <+:
      other.transcript project.inlined inputs := by
  induction inputs generalizing interpreter other with
  | nil => exact List.prefix_rfl
  | cons input inputs ih =>
      have hnext := hstands.tick input
      cases htick : interpreter.tick project input with
      | mk next response =>
          rw [htick] at hnext
          by_cases hends : response = .error (.endless State.maxSteps)
          · subst hends
            simp [Interpreter.transcript, htick, Moment.isCutOff]
          · obtain ⟨last, hlast, hlater⟩ := tick_inlined hinlinable hstands htogether htick hends
            obtain ⟨hflags, hvars, hstage, hfinished⟩ := hlater.observed_eq
            simp only [Interpreter.transcript, htick, hlast, hflags, hvars, hstage, hfinished]
            rw [List.takeWhile_cons]
            split
            · exact (List.prefix_cons_inj _).mpr (ih hnext hlater)
            · exact List.nil_prefix

/-- Where every call that a scene leads to passes its check, the inlined project makes no calls, and
its runs show what the runs of the project show, up to the first tick there that sets off too many
steps. -/
theorem transcript_inlined (haddressable : project.Addressable)
    (hinlined : project.inlined.Addressable)
    (hcalls : ∀ scene ∈ project.scenes, ∀ id ∈ Command.listCalls scene.commands,
      project.checkGroup id = .ok ()) :
    (∀ scene ∈ project.inlined.scenes, Command.listCalls scene.commands = []) ∧
      ∀ inputs,
        ((new project).transcript project inputs).takeWhile (fun moment => !moment.isCutOff) <+:
          (new project.inlined).transcript project.inlined inputs := by
  have hcallable : ∀ scene ∈ project.scenes, ∀ id ∈ Command.listCalls scene.commands,
      project.Callable id :=
    fun scene hscene id hid => Project.checkGroup_eq_ok.mp (hcalls scene hscene id hid)
  constructor
  · intro scene hscene
    obtain ⟨original, horiginal, rfl⟩ := List.mem_map.mp hscene
    exact Project.listCalls_inline (hcallable original horiginal)
  · intro inputs
    rw [project.rewritesScenes_inlined.new_eq]
    have htogether : (new project).Together project (new project) := by
      cases hscenes : project.scenes with
      | nil => exact .inl ⟨by simp [new, State.initial, hscenes], rfl⟩
      | cons scene rest =>
          have hscene : project.scene? 0 = some scene := by
            simp [Project.scene?, hscenes]
          exact .inr ⟨rfl, .sceneStart 0, .sceneStart hscene, rfl⟩
    exact htogether.transcript ⟨haddressable, hinlined, hcallable⟩ stands_new inputs

/-- A group that calls an empty group and another one, called at the top and in a branch. -/
def chorus : Project where
  flags := [{ id := "f", name := "loud", value := true }]
  vars := [{ id := "v", name := "count" }]
  scenes := [{ id := "a", commands := [⟨"1", .call "greet"⟩, ⟨"2", .branching ""
    [.onFlag .if "loud" .eq true [⟨"3", .call "count"⟩, ⟨"4", .call "greet"⟩]]⟩] }]
  sharedCommands := [
    { id := "greet", commands := [⟨"5", .call "silence"⟩, .dialogue "6" "" "Hello" [],
        ⟨"7", .call "count"⟩] },
    { id := "count", commands := [⟨"8", .setVariable "count" .add 1⟩] },
    { id := "silence" }]

example :
    ((new chorus).transcript chorus [none, some .click, some .click]).map (·.result) =
      [.ok ⟨[.sceneEntered 0, .say "" "Hello"], .click⟩,
        .ok ⟨[.variableChanged "count" 1, .variableChanged "count" 2, .say "" "Hello"], .click⟩,
        .ok ⟨[.variableChanged "count" 3, .halted], .nothing⟩] := by
  cbv

theorem scenes_inlined_chorus : chorus.inlined.scenes = [{ id := "a", commands := [
    .dialogue "6" "" "Hello" [], ⟨"8", .setVariable "count" .add 1⟩,
    ⟨"2", .branching "" [.onFlag .if "loud" .eq true [⟨"8", .setVariable "count" .add 1⟩,
      .dialogue "6" "" "Hello" [], ⟨"8", .setVariable "count" .add 1⟩]]⟩] }] := by
  cbv

theorem checkGroup_chorus : ∀ scene ∈ chorus.scenes, ∀ id ∈ Command.listCalls scene.commands,
    chorus.checkGroup id = .ok () := by
  intro scene hscene id hid
  have hmem : id ∈ chorus.scenes.flatMap fun scene => Command.listCalls scene.commands :=
    List.mem_flatMap.mpr ⟨scene, hscene, hid⟩
  have hcalls : (chorus.scenes.flatMap fun scene => Command.listCalls scene.commands) =
      ["greet", "count", "greet"] := rfl
  have hnames : id = "greet" ∨ id = "count" ∨ id = "greet" := by simpa [hcalls] using hmem
  rcases hnames with rfl | rfl | rfl <;> cbv

theorem addressable_chorus : chorus.Addressable := by
  refine ⟨by decide, ?_, ?_⟩ <;>
    simp [chorus, Command.Addressable, Command.listSubcommands, Command.subcommands,
      Branch.listSubcommands, Command.branches, Branch.onFlag, Command.dialogue, Index.capacity]

theorem addressable_inlined_chorus : chorus.inlined.Addressable := by
  refine ⟨by rw [scenes_inlined_chorus]; decide, ?_, addressable_chorus.groups⟩
  simp [scenes_inlined_chorus, Command.Addressable, Command.listSubcommands, Command.subcommands,
    Branch.listSubcommands, Command.branches, Branch.onFlag, Command.dialogue, Index.capacity]

theorem transcript_inlined_chorus :
    chorus.Addressable ∧ chorus.inlined.Addressable ∧
      (∀ scene ∈ chorus.scenes, ∀ id ∈ Command.listCalls scene.commands,
        chorus.checkGroup id = .ok ()) ∧
      (∀ scene ∈ chorus.inlined.scenes, Command.listCalls scene.commands = []) ∧
      ∀ inputs,
        ((new chorus).transcript chorus inputs).takeWhile (fun moment => !moment.isCutOff) <+:
          (new chorus.inlined).transcript chorus.inlined inputs :=
  ⟨addressable_chorus, addressable_inlined_chorus, checkGroup_chorus,
    transcript_inlined addressable_chorus addressable_inlined_chorus checkGroup_chorus⟩

end Interpreter
end SceneScript
