import SceneScript.Proofs.Index
import SceneScript.Proofs.Script.CallGraph
import SceneScript.Proofs.Script.Conditions
import SceneScript.Proofs.Table
import SceneScript.Run.Execution

/-! # What one command does

A command that succeeds leaves the position, the wait and the known names alone, and leads to a
place that exists.
-/

namespace SceneScript

/-! ## Look-ups -/

theorem Project.sceneAt_eq_ok {project : Project} {index : Index} {scene : Scene} :
    project.sceneAt index = .ok scene ↔ project.scene? index = some scene := by
  unfold sceneAt
  cases project.scene? index <;> simp

theorem Project.sceneAt_eq_error {project : Project} {index : Index} {fault : Fault} :
    project.sceneAt index = .error fault ↔
      project.scene? index = none ∧ fault = .missingScene index project.scenes.length := by
  unfold sceneAt
  cases project.scene? index <;> simp [eq_comm]

theorem Project.groupAt_eq_ok {project : Project} {id : String} {group : CommandGroup} :
    project.groupAt id = .ok group ↔ project.findGroup? id = some group := by
  unfold groupAt
  cases project.findGroup? id <;> simp

theorem Project.groupAt_eq_error {project : Project} {id : String} {fault : Fault} :
    project.groupAt id = .error fault ↔
      project.findGroup? id = none ∧ fault = .missingGroup id := by
  unfold groupAt
  cases project.findGroup? id <;> simp [eq_comm]

/-! ## Flags and variables -/

theorem State.setFlag_eq_ok {state next : State} {name : String} {value : Bool} :
    state.setFlag name value = .ok next ↔
      (state.flags.find? name).isSome ∧
        next = { state with flags := state.flags.insert name value } := by
  unfold setFlag
  cases state.flags.find? name <;> simp [eq_comm]

theorem State.setFlag_eq_error {state : State} {name : String} {value : Bool} {fault : Fault} :
    state.setFlag name value = .error fault ↔
      state.flags.find? name = none ∧ fault = .undefined .flag name := by
  unfold setFlag
  cases state.flags.find? name <;> simp [eq_comm]

theorem State.changeVariable_eq_ok {state next : State} {name : String} {operation : VariableOp}
    {operand : Int64} {value : UInt8} :
    state.changeVariable name operation operand = .ok (next, value) ↔
      ∃ current, state.vars.find? name = some current ∧ value = operation.apply current operand ∧
        next = { state with vars := state.vars.insert name value } := by
  unfold changeVariable
  cases state.vars.find? name with
  | none => simp
  | some current =>
      simp only [Except.ok.injEq, Prod.mk.injEq, Option.some.injEq, exists_eq_left']
      constructor
      · rintro ⟨rfl, rfl⟩
        exact ⟨rfl, rfl⟩
      · rintro ⟨rfl, rfl⟩
        exact ⟨rfl, rfl⟩

theorem State.changeVariable_eq_error {state : State} {name : String} {operation : VariableOp}
    {operand : Int64} {fault : Fault} :
    state.changeVariable name operation operand = .error fault ↔
      state.vars.find? name = none ∧ fault = .undefined .variable name := by
  unfold changeVariable
  cases state.vars.find? name <;> simp [eq_comm]

theorem State.sameNames_insert_flag {state : State} {name : String} (value : Bool)
    (hname : (state.flags.find? name).isSome) :
    Lookup.SameNames { state with flags := state.flags.insert name value }.symbols state.symbols :=
  ⟨Table.isSome_find?_insert value hname, fun _ => rfl⟩

theorem State.sameNames_insert_var {state : State} {name : String} (value : UInt8)
    (hname : (state.vars.find? name).isSome) :
    Lookup.SameNames { state with vars := state.vars.insert name value }.symbols state.symbols :=
  ⟨fun _ => rfl, Table.isSome_find?_insert value hname⟩

/-! ## Equations -/

namespace Work

variable {α β : Type}

theorem run_get_bind (next : State → Work α) (state : State) :
    (get >>= next : Work α).run.run state = (next state).run.run state := rfl

/-- A check that fails ends the work where it stands. -/
theorem run_check_bind (check : Except Fault α) (next : α → Work β) (state : State) :
    (liftM check >>= next : Work β).run.run state =
      match check with
      | .ok value => (next value).run.run state
      | .error fault => (.error fault, state) := by
  cases check <;> rfl

end Work

namespace Action

variable {project : Project} {state : State} {index : Index}

theorem execute_branching {label : String} {branches : List (Branch Command)} :
    (branching label branches).execute project state index =
      match Condition.select (m := Id) (branches.map (·.condition)) state.symbols with
      | .ok (some chosen) => .ok { state, flow := .enter (.branch index chosen) }
      | .ok none => .ok { state }
      | .error fault => .error fault := by
  rw [execute, perform, Work.run_get_bind]
  generalize Condition.select (m := Id) (branches.map (·.condition)) state.symbols = selected
  match selected with
  | .ok (some _) | .ok none | .error _ => rfl

theorem execute_setFlag {name : String} {value : Bool} :
    (setFlag name value).execute project state index = do
      return { state := ← state.setFlag name value, effects := [.flagChanged name value] } := by
  rw [execute, perform, Work.writeFlag, Work.run_get_bind, Work.run_check_bind]
  cases state.setFlag name value <;> rfl

theorem execute_setVariable {name : String} {operation : VariableOp} {operand : Int64} :
    (setVariable name operation operand).execute project state index = do
      let (state, value) ← state.changeVariable name operation operand
      return { state, effects := [.variableChanged name value] } := by
  rw [execute, perform, Work.writeVariable, Work.run_get_bind, Work.run_check_bind]
  cases state.changeVariable name operation operand <;> rfl

theorem execute_call {id : String} :
    (call id).execute project state index = do
      project.checkGroup id
      return { state, flow := .enter (.group index id) } := by
  rw [execute, perform, Work.run_check_bind]
  cases project.checkGroup id <;> rfl

theorem execute_goto {target : Index} {withTransition : Bool} :
    (goto target withTransition).execute project state index = do
      let _ ← project.sceneAt target
      if withTransition then
        return { state, effects := [.beginTransition state.position.scene target],
                 flow := .wait (.transition target) }
      else
        return { state, flow := .jump target } := by
  rw [execute, perform, Work.run_check_bind]
  cases project.sceneAt target with
  | error fault => rfl
  | ok scene => cases withTransition <;> rfl

end Action

/-! ## Rules -/

/-- Showing a character also sets its animation; hiding it leaves the animation alone. -/
def Stage.change (stage : Stage) (change : VisibilityChange) : Stage :=
  match change.layer, change.visible with
  | .background, visible => { stage with backgroundVisible := visible }
  | .character, true => { stage with characterVisible := true, animation := change.animation }
  | .character, false => { stage with characterVisible := false }

/-- Everything that an action can do. An action of sound gives one cue, and an action of the stage
tells of its change; the others change a name, or decide where the run goes. -/
inductive Action.Executes (project : Project) (state : State) (index : Index) :
    Action Command → Execution → Prop where
  | speaks (speaker text : String) : Executes project state index (.dialogue speaker text [])
      { state, effects := [.say speaker text], flow := .wait .click }
  | asks (speaker text : String) (choice : Choice) (rest : List Choice) :
      Executes project state index (.dialogue speaker text (choice :: rest))
        { state, effects := [.say speaker text, .choices ((choice :: rest).map (·.text))],
          flow := .wait (.choice (.ofNat (choice :: rest).length)) }
  | branches {label : String} {branches : List (Branch Command)} {chosen : Index}
      (hselect : Condition.select (m := Id) (branches.map (·.condition)) state.symbols =
        .ok (some chosen)) :
      Executes project state index (.branching label branches)
        { state, flow := .enter (.branch index chosen) }
  | passes {label : String} {branches : List (Branch Command)} :
      Executes project state index (.branching label branches) { state }
  | flags {name : String} {value : Bool} (hname : (state.flags.find? name).isSome) :
      Executes project state index (.setFlag name value)
        { state := { state with flags := state.flags.insert name value },
          effects := [.flagChanged name value] }
  | changes {name : String} {operation : VariableOp} {operand : Int64} {current : UInt8}
      (hcurrent : state.vars.find? name = some current) :
      Executes project state index (.setVariable name operation operand)
        { state := { state with vars := state.vars.insert name (operation.apply current operand) },
          effects := [.variableChanged name (operation.apply current operand)] }
  | calls {id : String} (hcheck : project.checkGroup id = .ok ()) :
      Executes project state index (.call id) { state, flow := .enter (.group index id) }
  | departs {target : Index} {scene : Scene} (hscene : project.scene? target = some scene) :
      Executes project state index (.goto target true)
        { state, effects := [.beginTransition state.position.scene target],
          flow := .wait (.transition target) }
  | jumps {target : Index} {scene : Scene} (hscene : project.scene? target = some scene) :
      Executes project state index (.goto target false) { state, flow := .jump target }
  | sounds {action : Action Command} (cue : SoundCue) :
      Executes project state index action { state, effects := [.sound cue] }
  | stages {action : Action Command} (change : VisibilityChange) :
      Executes project state index action
        { state := { state with stage := state.stage.change change },
          effects := [.visibility change] }

theorem Action.executes {project : Project} {state : State} {index : Index}
    {action : Action Command} {execution : Execution}
    (h : action.execute project state index = .ok execution) :
    action.Executes project state index execution := by
  cases action with
  | dialogue speaker text choices =>
      cases choices with
      | nil => cases h; exact .speaks speaker text
      | cons choice rest => cases h; exact .asks speaker text choice rest
  | branching label branches =>
      rw [execute_branching] at h
      split at h
      · next chosen hselect => cases h; exact .branches hselect
      · cases h; exact .passes
      · cases h
  | setFlag name value =>
      simp only [execute_setFlag, bind_eq_ok, pure_eq_ok, State.setFlag_eq_ok] at h
      obtain ⟨next, ⟨hname, rfl⟩, rfl⟩ := h
      exact .flags hname
  | setVariable name operation operand =>
      simp only [execute_setVariable, bind_eq_ok, pure_eq_ok] at h
      obtain ⟨⟨next, value⟩, hchange, rfl⟩ := h
      obtain ⟨current, hcurrent, rfl, rfl⟩ := State.changeVariable_eq_ok.mp hchange
      exact .changes hcurrent
  | call id =>
      simp only [execute_call, bind_eq_ok, pure_eq_ok] at h
      obtain ⟨_, hcheck, rfl⟩ := h
      exact .calls hcheck
  | goto target withTransition =>
      simp only [execute_goto, bind_eq_ok, Project.sceneAt_eq_ok] at h
      obtain ⟨scene, hscene, h⟩ := h
      cases withTransition with
      | true => cases h; exact .departs hscene
      | false => cases h; exact .jumps hscene
  | startTrack track sound => cases h; exact .sounds (.ofStart track sound)
  | stopTrack track => cases h; exact .sounds (.stop track)
  | fadeTrack track fade => cases h; exact .sounds (.ofFade track fade)
  | playSound sound => cases h; exact .sounds (.ofEffect sound)
  | showCharacter fadeMs animation => cases h; exact .stages ⟨.character, true, fadeMs, animation⟩
  | hideCharacter fadeMs => cases h; exact .stages ⟨.character, false, fadeMs, none⟩
  | showBackground fadeMs => cases h; exact .stages ⟨.background, true, fadeMs, none⟩
  | hideBackground fadeMs => cases h; exact .stages ⟨.background, false, fadeMs, none⟩

/-! ## Where commands lead -/

/-- An action may make a run wait for this. -/
def Waiting.Suits (project : Project) (action : Action Command) : Waiting → Prop
  | .nothing => False
  | .click => ∃ speaker text, action = .dialogue speaker text []
  | .choice count => ∃ speaker text choices,
      action = .dialogue speaker text choices ∧ choices ≠ [] ∧ count = .ofNat choices.length
  | .transition target => (∃ scene, project.scene? target = some scene) ∧
      (action = .goto target true ∨ ∃ speaker text choices choice,
        action = .dialogue speaker text choices ∧ choice ∈ choices ∧ choice.enableGoto ∧
          choice.goto = target)

/-- The action of the command at `index` can lead there. -/
def Action.Leads (project : Project) (index : Index) (action : Action Command) : Flow → Prop
  | .next => True
  | .enter (.branch owner chosen) => owner = index ∧ ∃ label branches taken,
      action = .branching label branches ∧ branches[chosen.toNat]? = some taken
  | .enter (.group owner id) => owner = index ∧ action = .call id ∧
      ∃ group, project.findGroup? id = some group
  | .jump target => ∃ scene, project.scene? target = some scene
  | .wait reason => reason.Suits project action

/-- What every successful command keeps, and where it leads. -/
structure Action.Done (project : Project) (state : State) (index : Index)
    (action : Action Command) (execution : Execution) : Prop where
  position_eq : execution.state.position = state.position
  waiting_eq : execution.state.waiting = state.waiting
  finished_eq : execution.state.finished = state.finished
  names : Lookup.SameNames execution.state.symbols state.symbols
  leads : action.Leads project index execution.flow

theorem Action.execute_done {project : Project} {state : State} {index : Index}
    {action : Action Command} {execution : Execution}
    (h : action.execute project state index = .ok execution) :
    action.Done project state index execution := by
  cases executes h with
  | speaks speaker text => exact ⟨rfl, rfl, rfl, .refl _, speaker, text, rfl⟩
  | asks speaker text choice rest =>
      exact ⟨rfl, rfl, rfl, .refl _, speaker, text, _, rfl, List.cons_ne_nil _ _, rfl⟩
  | @branches label branches chosen hselect =>
      have hlt := Condition.select_lt hselect
      rw [List.length_map] at hlt
      exact ⟨rfl, rfl, rfl, .refl _, rfl, label, branches, _, rfl, List.getElem?_eq_getElem hlt⟩
  | flags hname => exact ⟨rfl, rfl, rfl, State.sameNames_insert_flag _ hname, trivial⟩
  | changes hcurrent =>
      exact ⟨rfl, rfl, rfl, State.sameNames_insert_var _ (by simp [hcurrent]), trivial⟩
  | calls hcheck =>
      exact ⟨rfl, rfl, rfl, .refl _, rfl, rfl, Project.exists_findGroup?_of_checkGroup hcheck⟩
  | departs hscene => exact ⟨rfl, rfl, rfl, .refl _, ⟨_, hscene⟩, .inl rfl⟩
  | jumps hscene => exact ⟨rfl, rfl, rfl, .refl _, _, hscene⟩
  | passes | sounds _ | stages _ => exact ⟨rfl, rfl, rfl, .refl _, trivial⟩

/-- A group is entered by a call of it, after its check. -/
theorem Action.checkGroup_of_enter {project : Project} {state : State} {index owner : Index}
    {action : Action Command} {execution : Execution} {id : String}
    (h : action.execute project state index = .ok execution)
    (hflow : execution.flow = .enter (.group owner id)) :
    action = .call id ∧ project.checkGroup id = .ok () := by
  cases executes h with
  | calls hcheck =>
      cases hflow
      exact ⟨rfl, hcheck⟩
  | _ => cases hflow

end SceneScript
