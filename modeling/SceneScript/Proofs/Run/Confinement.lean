import SceneScript.Proofs.Run.Execution

/-! # What one command may write

A command works on the state in place. If it fails it has written nothing, and if it succeeds it has
written at most the one flag, variable or layer of the stage that it names.
-/

namespace SceneScript

/-! ## Cells -/

/-- What a command can write. -/
inductive Cell where
  | flag (name : String)
  | variable (name : String)
  | layer (layer : StageLayer)
  deriving DecidableEq, Repr

/-- The one cell that an action names, if it names any. -/
def Action.cell? : Action Command → Option Cell
  | .setFlag name _ => some (.flag name)
  | .setVariable name _ _ => some (.variable name)
  | .showCharacter _ _ | .hideCharacter _ => some (.layer .character)
  | .showBackground _ | .hideBackground _ => some (.layer .background)
  | _ => none

/-- Two states have the same names, and agree outside one cell. -/
structure State.SameOutside (cell? : Option Cell) (before after : State) : Prop where
  position_eq : after.position = before.position
  waiting_eq : after.waiting = before.waiting
  finished_eq : after.finished = before.finished
  flagNames : after.flags.names = before.flags.names
  variableNames : after.vars.names = before.vars.names
  flags : ∀ name, cell? ≠ some (.flag name) → after.flags.find? name = before.flags.find? name
  vars : ∀ name, cell? ≠ some (.variable name) → after.vars.find? name = before.vars.find? name
  background : cell? ≠ some (.layer .background) →
    after.stage.backgroundVisible = before.stage.backgroundVisible
  character : cell? ≠ some (.layer .character) →
    after.stage.characterVisible = before.stage.characterVisible ∧
      after.stage.animation = before.stage.animation

namespace State.SameOutside

theorem refl (cell? : Option Cell) (state : State) : SameOutside cell? state state :=
  ⟨rfl, rfl, rfl, rfl, rfl, fun _ _ => rfl, fun _ _ => rfl, fun _ => rfl, fun _ => ⟨rfl, rfl⟩⟩

theorem insert_flag {state : State} {name : String} (value : Bool)
    (hname : (state.flags.find? name).isSome) :
    SameOutside (some (.flag name)) state
      { state with flags := state.flags.insert name value } := by
  refine ⟨rfl, rfl, rfl, Table.names_insert value hname, rfl, ?_, fun _ _ => rfl, fun _ => rfl,
    fun _ => ⟨rfl, rfl⟩⟩
  intro other hother
  rw [Table.find?_insert, if_neg]
  rintro rfl
  exact hother rfl

theorem insert_variable {state : State} {name : String} (value : UInt8)
    (hname : (state.vars.find? name).isSome) :
    SameOutside (some (.variable name)) state
      { state with vars := state.vars.insert name value } := by
  refine ⟨rfl, rfl, rfl, rfl, Table.names_insert value hname, fun _ _ => rfl, ?_, fun _ => rfl,
    fun _ => ⟨rfl, rfl⟩⟩
  intro other hother
  rw [Table.find?_insert, if_neg]
  rintro rfl
  exact hother rfl

theorem set_background (state : State) (visible : Bool) :
    SameOutside (some (.layer .background)) state
      { state with stage := { state.stage with backgroundVisible := visible } } :=
  ⟨rfl, rfl, rfl, rfl, rfl, fun _ _ => rfl, fun _ _ => rfl, fun h => absurd rfl h,
    fun _ => ⟨rfl, rfl⟩⟩

theorem set_character (state : State) (visible : Bool) (animation : Option FrameAnimation) :
    SameOutside (some (.layer .character)) state
      { state with stage := { state.stage with characterVisible := visible, animation } } :=
  ⟨rfl, rfl, rfl, rfl, rfl, fun _ _ => rfl, fun _ _ => rfl, fun _ => rfl, fun h => absurd rfl h⟩

end State.SameOutside

namespace Action

variable {project : Project} {state : State} {index : Index} {action : Action Command}

theorem execute_sameOutside {execution : Execution}
    (h : action.execute project state index = .ok execution) :
    State.SameOutside action.cell? state execution.state := by
  cases action with
  | dialogue speaker text choices => cases choices <;> cases h <;> exact .refl _ state
  | branching label branches =>
      rw [execute_branching] at h
      split at h <;> cases h <;> exact .refl _ state
  | setFlag name value =>
      simp only [execute_setFlag, bind_eq_ok, pure_eq_ok, State.setFlag_eq_ok] at h
      obtain ⟨next, ⟨hname, rfl⟩, rfl⟩ := h
      exact .insert_flag value hname
  | setVariable name operation operand =>
      simp only [execute_setVariable, bind_eq_ok, pure_eq_ok] at h
      obtain ⟨⟨next, value⟩, hchange, rfl⟩ := h
      obtain ⟨current, hcurrent, rfl, rfl⟩ := State.changeVariable_eq_ok.mp hchange
      exact .insert_variable _ (by rw [hcurrent, Option.isSome_some])
  | call id =>
      simp only [execute_call, bind_eq_ok, pure_eq_ok] at h
      obtain ⟨_, -, rfl⟩ := h
      exact .refl _ state
  | goto target withTransition =>
      simp only [execute_goto, bind_eq_ok] at h
      obtain ⟨_, -, h⟩ := h
      cases withTransition <;> cases h <;> exact .refl _ state
  | showCharacter fadeMs animation => cases h; exact .set_character state true animation
  | hideCharacter fadeMs => cases h; exact .set_character state false state.stage.animation
  | showBackground fadeMs => cases h; exact .set_background state true
  | hideBackground fadeMs => cases h; exact .set_background state false
  | startTrack _ _ | stopTrack _ | fadeTrack _ _ | playSound _ => cases h; exact .refl _ state

/-- A command that fails has not written anything. -/
theorem state_of_perform_error {fault : Fault} {after : State}
    (h : (action.perform project index).run.run state = (.error fault, after)) : after = state := by
  cases action with
  | dialogue speaker text choices => cases choices <;> cases h
  | branching label branches =>
      rw [perform, Work.run_get_bind] at h
      split at h <;> cases h
      rfl
  | setFlag name value =>
      rw [perform, Work.writeFlag, Work.run_get_bind, Work.run_check_bind] at h
      split at h <;> cases h
      rfl
  | setVariable name operation operand =>
      rw [perform, Work.writeVariable, Work.run_get_bind, Work.run_check_bind] at h
      split at h <;> cases h
      rfl
  | call id =>
      rw [perform, Work.run_check_bind] at h
      split at h <;> cases h
      rfl
  | goto target withTransition =>
      rw [perform, Work.run_check_bind] at h
      split at h
      · cases withTransition <;> cases h
      · cases h
        rfl
  | _ => cases h

/-- A command that fails leaves the state as it was. One that succeeds keeps the position, the wait,
the end and all names, changes at most the one flag, variable or layer that it names, and leads to a
scene, a branch of its own or a group that exists. -/
theorem perform_confined (project : Project) (index : Index) (command : Command) (state : State) :
    match (command.action.perform project index).run.run state with
    | (.error _, after) => after = state
    | (.ok outcome, after) =>
      State.SameOutside command.action.cell? state after ∧
        command.action.Leads project index outcome.flow := by
  split
  · next hperform => exact state_of_perform_error hperform
  · next outcome after hperform =>
      have hexecute : command.action.execute project state index =
          .ok ⟨after, outcome.effects, outcome.flow⟩ := by
        rw [execute, hperform]
      exact ⟨execute_sameOutside hexecute, (execute_done hexecute).leads⟩

end Action
end SceneScript
