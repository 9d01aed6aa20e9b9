import SceneScript.Proofs.Run.Tick

/-! # What happens in a tick

A tick is made of single events, each with at most one effect: a name or the stage changes, a scene
is entered, or something is told that changes nothing. Facts about effects are proved by induction
on the events.
-/

namespace SceneScript

/-- The effect changes neither names nor the stage. -/
def Effect.isQuiet : Effect → Bool
  | .dialogue .. | .choices _ | .sound _ | .beginTransition .. | .halted => true
  | _ => false

namespace State

/-- Effects, and what has happened with them on the way from one state to another. -/
inductive Unfolds (project : Project) : State → List Effect → State → Prop where
  /-- The run moves inside of its scene, or its wait changes. -/
  | moves {state next : State} (hscene : next.position.scene = state.position.scene)
      (hflags : next.flags = state.flags) (hvars : next.vars = state.vars)
      (hstage : next.stage = state.stage) : Unfolds project state [] next
  | tells {state : State} {effect : Effect} (hquiet : effect.isQuiet = true) :
      Unfolds project state [effect] state
  | sets (state : State) (name : String) (value : Bool) :
      Unfolds project state [.flagChanged name value]
        { state with flags := state.flags.insert name value }
  | changes (state : State) (name : String) (value : UInt8) :
      Unfolds project state [.variableChanged name value]
        { state with vars := state.vars.insert name value }
  | stages (state : State) (change : VisibilityChange) :
      Unfolds project state [.visibility change] { state with stage := state.stage.change change }
  | enters (state : State) {index : Index} {scene : Scene}
      (hscene : project.scene? index = some scene) :
      Unfolds project state [.sceneEntered index] (state.inScene index scene)
  | append {state middle next : State} {effects later : List Effect}
      (h : Unfolds project state effects middle) (hlater : Unfolds project middle later next) :
      Unfolds project state (effects ++ later) next

variable {project : Project} {state next final : State} {effects : List Effect}

theorem Unfolds.refl (state : State) : Unfolds project state [] state := .moves rfl rfl rfl rfl

/-- Behind the last effect the run may move on. -/
theorem Unfolds.moved {moved : State} (h : Unfolds project state effects next)
    (hscene : moved.position.scene = next.position.scene) (hflags : moved.flags = next.flags)
    (hvars : moved.vars = next.vars) (hstage : moved.stage = next.stage) :
    Unfolds project state effects moved := by
  rw [← List.append_nil effects]
  exact h.append (.moves hscene hflags hvars hstage)

/-! ## Steps -/

theorem unfolds_execute {action : Action Command} {index : Index} {execution : Execution}
    (h : action.execute project state index = .ok execution) :
    state.Unfolds project execution.effects execution.state := by
  cases Action.executes h with
  | speaks speaker text => exact .tells rfl
  | asks speaker text choice rest =>
      have hboth : state.Unfolds project ([.say speaker text] ++
          [.choices ((choice :: rest).map (·.text))]) state := .append (.tells rfl) (.tells rfl)
      exact hboth
  | flags _ => exact .sets ..
  | changes _ => exact .changes ..
  | departs _ | sounds _ => exact .tells rfl
  | stages change => exact .stages ..
  | branches _ | passes | calls _ | jumps _ => exact .refl state

theorem unfolds_step (h : state.step project = .ok (next, effects)) :
    state.Unfolds project effects next := by
  cases step_iff.mp h with
  | leave _ hleave =>
      obtain ⟨frames, frame, -, -, rfl⟩ := Position.leave?_eq_some.mp hleave
      exact .moves rfl rfl rfl rfl
  | fall _ _ hscene => exact .enters state hscene
  | halt _ _ _ => exact Unfolds.moved (.tells rfl) rfl rfl rfl rfl
  | advance hdone _ | enter hdone _ | wait hdone _ =>
      obtain ⟨command, -, hexecute⟩ := hdone
      exact (unfolds_execute hexecute).moved rfl rfl rfl rfl
  | jump hdone _ hscene =>
      obtain ⟨command, -, hexecute⟩ := hdone
      exact (unfolds_execute hexecute).append (.enters _ hscene)

theorem unfolds_run {limit steps : Nat}
    (h : state.run project limit steps = (final, .ok effects)) :
    state.Unfolds project effects final := by
  induction steps generalizing state effects with
  | zero => cases h
  | succ steps ih =>
      obtain ⟨next, first, hstep, ⟨-, rfl, rfl⟩ | ⟨-, later, hlater, rfl⟩⟩ := run_succ_eq_ok.mp h
      · exact unfolds_step hstep
      · exact (unfolds_step hstep).append (ih hlater)

/-! ## Answers -/

theorem unfolds_setChoiceFlag {choice : Choice}
    (h : state.setChoiceFlag choice = .ok (next, effects)) :
    state.Unfolds project effects next := by
  unfold setChoiceFlag at h
  split at h
  · obtain ⟨flagged, hset, h⟩ := bind_eq_ok.mp h
    obtain ⟨-, rfl⟩ := setFlag_eq_ok.mp hset
    cases h
    exact .sets ..
  · cases h
    exact .refl state

theorem unfolds_pick {choice : Choice} (h : state.pick project choice = .ok (next, effects)) :
    state.Unfolds project effects next := by
  unfold pick at h
  split at h
  · obtain ⟨scene, -, h⟩ := bind_eq_ok.mp h
    obtain ⟨⟨flagged, noted⟩, hflag, h⟩ := bind_eq_ok.mp h
    cases h
    exact ((unfolds_setChoiceFlag hflag).append (.tells rfl)).moved rfl rfl rfl rfl
  · obtain ⟨⟨flagged, noted⟩, hflag, h⟩ := bind_eq_ok.mp h
    obtain ⟨position, hposition, h⟩ := bind_eq_ok.mp h
    obtain ⟨-, rfl⟩ := Position.advance_eq_ok.mp hposition
    cases h
    exact (unfolds_setChoiceFlag hflag).moved rfl rfl rfl rfl

theorem unfolds_answer {input : Input} (h : state.answer project input = (next, .ok effects)) :
    state.Unfolds project effects next := by
  have hanswers := answers project state input
  rw [h] at hanswers
  cases hanswers with
  | ignored => exact .refl state
  | clicked _ _ => exact .moves rfl rfl rfl rfl
  | chosen _ hchoose =>
      obtain ⟨_, _, -, -, hpick⟩ := exists_pick_of_choose hchoose
      exact unfolds_pick hpick
  | arrived _ hscene =>
      have hmoved : state.Unfolds project [] { state with waiting := .nothing } :=
        .moves rfl rfl rfl rfl
      exact hmoved.append (.enters _ hscene)

end State

/-! ## Ticks -/

namespace Interpreter

variable {project : Project} {interpreter next : Interpreter} {input : Option Input}
  {effects : List Effect}

theorem unfolds_begin {begun : State} (h : interpreter.begin project = (begun, .ok effects)) :
    interpreter.state.Unfolds project effects begun := by
  rcases begin_cases project interpreter with heq | ⟨-, ⟨scene, hscene, heq⟩ | ⟨-, heq⟩⟩ <;>
    rw [heq] at h <;> cases h
  · exact .refl _
  · exact .enters _ hscene

theorem unfolds_take {state taken : State} (h : take project input state = (taken, .ok effects)) :
    state.Unfolds project effects taken := by
  cases input with
  | none =>
      cases h
      exact .refl state
  | some given => exact State.unfolds_answer h

theorem unfolds_tick {response : Response}
    (h : interpreter.tick project input = (next, .ok response)) :
    interpreter.state.Unfolds project response.effects next.state := by
  have hticked := ticked project input interpreter
  rw [h] at hticked
  cases hticked with
  | ended _ => exact .refl _
  | waits _ hbegin htake _ => exact (unfolds_begin hbegin).append (unfolds_take htake)
  | runs _ hbegin htake _ hrun =>
      exact ((unfolds_begin hbegin).append (unfolds_take htake)).append (State.unfolds_run hrun)

end Interpreter
end SceneScript
