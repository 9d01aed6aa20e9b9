import SceneScript.Proofs.Run.Position

/-! # Single steps

Everything that one step can do, as rules. The rules do not mention how a step is computed; facts
about steps are proved by cases on them.
-/

namespace SceneScript.State

variable {project : Project} {state next : State} {effects : List Effect} {fault : Fault}

/-! ## Entering scenes -/

/-- A state at the start of a scene. -/
def inScene (state : State) (index : Index) (scene : Scene) : State :=
  { state with position := .sceneStart index, stage := scene.stage }

theorem enterScene_eq_ok {index : Index} :
    state.enterScene project index = .ok (next, effects) ↔
      ∃ scene, project.scene? index = some scene ∧ next = state.inScene index scene ∧
        effects = [.sceneEntered index] := by
  unfold enterScene
  rw [bind_eq_ok]
  refine exists_congr fun scene => and_congr Project.sceneAt_eq_ok ?_
  rw [pure_eq_ok, Prod.mk.injEq]
  exact and_congr eq_comm eq_comm

theorem enterScene_eq_error {index : Index} :
    state.enterScene project index = .error fault ↔
      project.scene? index = none ∧ fault = .missingScene index project.scenes.length := by
  unfold enterScene
  rw [bind_eq_error, Project.sceneAt_eq_error]
  simp

theorem enterScene_of_scene? {index : Index} {scene : Scene}
    (h : project.scene? index = some scene) :
    state.enterScene project index = .ok (state.inScene index scene, [.sceneEntered index]) :=
  enterScene_eq_ok.mpr ⟨scene, h, rfl, rfl⟩

/-! ## Rules -/

/-- The list at the position has no command left. -/
def AtEnd (project : Project) (state : State) : Prop :=
  ∃ commands, project.resolve state.position = .ok commands ∧
    Index.of? state.position.command commands = none

/-- The command at the position does this. -/
def Performs (project : Project) (state : State) (execution : Execution) : Prop :=
  ∃ command, project.commandAt state.position = .ok command ∧
    command.action.execute project state state.position.command = .ok execution

/-- A step leaves a list that has ended, or runs one command and goes where it leads. -/
inductive Step (project : Project) (state : State) : State → List Effect → Prop where
  | leave {position : Position} (hend : state.AtEnd project)
      (hleave : state.position.leave? = .ok (some position)) :
      Step project state { state with position } []
  | fall {scene : Scene} (hend : state.AtEnd project) (hleave : state.position.leave? = .ok none)
      (hscene : project.scene? (state.position.scene + 1) = some scene) :
      Step project state (state.inScene (state.position.scene + 1) scene)
        [.sceneEntered (state.position.scene + 1)]
  | halt (hend : state.AtEnd project) (hleave : state.position.leave? = .ok none)
      (hlast : project.scene? (state.position.scene + 1) = none) :
      Step project state { state with finished := true } [.halted]
  | advance {execution : Execution} (hdone : state.Performs project execution)
      (hflow : execution.flow = .next) :
      Step project state { execution.state with position := execution.state.position.forward }
        execution.effects
  | enter {execution : Execution} {frame : Frame} (hdone : state.Performs project execution)
      (hflow : execution.flow = .enter frame) :
      Step project state { execution.state with position := execution.state.position.enter frame }
        execution.effects
  | jump {execution : Execution} {target : Index} {scene : Scene}
      (hdone : state.Performs project execution) (hflow : execution.flow = .jump target)
      (hscene : project.scene? target = some scene) :
      Step project state (execution.state.inScene target scene)
        (execution.effects ++ [.sceneEntered target])
  | wait {execution : Execution} {reason : Waiting} (hdone : state.Performs project execution)
      (hflow : execution.flow = .wait reason) :
      Step project state { execution.state with waiting := reason } execution.effects

/-! ## The end of a list -/

theorem endList_of_leave {position : Position} (h : state.position.leave? = .ok (some position)) :
    state.endList project = .ok ({ state with position }, []) := by
  unfold endList
  rw [h]
  rfl

theorem endList_of_scene {commands : List Command} {scene : Scene}
    (hlist : project.resolve state.position = .ok commands)
    (hleave : state.position.leave? = .ok none)
    (hscene : project.scene? (state.position.scene + 1) = some scene) :
    state.endList project = .ok (state.inScene (state.position.scene + 1) scene,
      [.sceneEntered (state.position.scene + 1)]) := by
  unfold endList
  rw [hleave, Position.next_scene hlist]
  exact (if_pos (by rw [hscene]; rfl)).trans (enterScene_of_scene? hscene)

theorem endList_of_last {commands : List Command}
    (hlist : project.resolve state.position = .ok commands)
    (hleave : state.position.leave? = .ok none)
    (hlast : project.scene? (state.position.scene + 1) = none) :
    state.endList project = .ok ({ state with finished := true }, [.halted]) := by
  unfold endList
  rw [hleave, Position.next_scene hlist]
  exact if_neg (by simp [hlast])

/-- The end of a list that is found leads on in every state. -/
theorem endList_eq_ok (hend : state.AtEnd project) :
    state.endList project = .ok (next, effects) ↔
      (∃ position, state.position.leave? = .ok (some position) ∧ next = { state with position } ∧
        effects = []) ∨
      (state.position.leave? = .ok none ∧ ∃ scene,
        project.scene? (state.position.scene + 1) = some scene ∧
        next = state.inScene (state.position.scene + 1) scene ∧
        effects = [.sceneEntered (state.position.scene + 1)]) ∨
      (state.position.leave? = .ok none ∧ project.scene? (state.position.scene + 1) = none ∧
        next = { state with finished := true } ∧ effects = [.halted]) := by
  obtain ⟨commands, hlist, -⟩ := hend
  match hleave : state.position.leave? with
  | .error fault => exact absurd hleave (Position.leave?_ne_error hlist)
  | .ok (some position) =>
      rw [endList_of_leave hleave]
      simp [eq_comm]
  | .ok none =>
      cases hscene : project.scene? (state.position.scene + 1) with
      | some scene =>
          rw [endList_of_scene hlist hleave hscene]
          simp [eq_comm]
      | none =>
          rw [endList_of_last hlist hleave hscene]
          simp [eq_comm]

theorem endList_ne_error (hend : state.AtEnd project) : state.endList project ≠ .error fault := by
  intro h
  obtain ⟨commands, hlist, -⟩ := hend
  match hleave : state.position.leave? with
  | .error fault => exact Position.leave?_ne_error hlist hleave
  | .ok (some position) => cases (endList_of_leave hleave).symm.trans h
  | .ok none =>
      cases hscene : project.scene? (state.position.scene + 1) with
      | some scene => cases (endList_of_scene hlist hleave hscene).symm.trans h
      | none => cases (endList_of_last hlist hleave hscene).symm.trans h

/-! ## Steps by the rules -/

/-- Behind a command that was found there is a place. -/
theorem follow_next {execution : Execution} (hdone : state.Performs project execution) :
    execution.state.follow project .next =
      .ok ({ execution.state with position := execution.state.position.forward }, []) := by
  obtain ⟨command, hcommand, hexecute⟩ := hdone
  rw [follow, (Action.execute_done hexecute).position_eq,
    Position.advance_of_commandAt hcommand]
  rfl

theorem step_eq_ok :
    state.step project = .ok (next, effects) ↔
      (state.AtEnd project ∧ state.endList project = .ok (next, effects)) ∨
      ∃ execution later, state.Performs project execution ∧
        execution.state.follow project execution.flow = .ok (next, later) ∧
        effects = execution.effects ++ later := by
  unfold step AtEnd Performs
  simp only [bind_eq_ok, Position.commandAt_eq_ok]
  constructor
  · rintro ⟨commands, hlist, h⟩
    cases hcommand : Index.of? state.position.command commands with
    | none =>
        rw [hcommand] at h
        exact .inl ⟨⟨commands, hlist, hcommand⟩, h⟩
    | some command =>
        rw [hcommand] at h
        simp only [bind_eq_ok, pure_eq_ok, Prod.mk.injEq] at h
        obtain ⟨execution, hexecute, ⟨after, later⟩, hfollow, rfl, rfl⟩ := h
        exact .inr ⟨execution, later, ⟨command, ⟨commands, hlist, hcommand⟩, hexecute⟩, hfollow, rfl⟩
  · rintro (⟨⟨commands, hlist, hcommand⟩, h⟩ |
      ⟨execution, later, ⟨command, ⟨commands, hlist, hcommand⟩, hexecute⟩, hfollow, rfl⟩)
    · exact ⟨commands, hlist, by rw [hcommand]; exact h⟩
    · refine ⟨commands, hlist, ?_⟩
      rw [hcommand]
      simp only [bind_eq_ok, pure_eq_ok]
      exact ⟨execution, hexecute, (next, later), hfollow, rfl⟩

theorem step_of_atEnd (h : state.AtEnd project) : state.step project = state.endList project := by
  obtain ⟨commands, hlist, hplace⟩ := h
  unfold step
  simp only [hlist, hplace, bind, Except.bind]

/-- A step is computed exactly by the rules. -/
theorem step_iff :
    state.step project = .ok (next, effects) ↔ Step project state next effects := by
  rw [step_eq_ok]
  constructor
  · rintro (⟨hend, h⟩ | ⟨execution, later, hdone, hfollow, rfl⟩)
    · rcases (endList_eq_ok hend).mp h with ⟨position, hleave, rfl, rfl⟩ |
        ⟨hleave, scene, hscene, rfl, rfl⟩ | ⟨hleave, hlast, rfl, rfl⟩
      · exact .leave hend hleave
      · exact .fall hend hleave hscene
      · exact .halt hend hleave hlast
    · cases hflow : execution.flow with
      | next =>
          rw [hflow] at hfollow
          cases (follow_next hdone).symm.trans hfollow
          simpa using Step.advance hdone hflow
      | enter frame =>
          rw [hflow] at hfollow
          cases hfollow
          simpa using Step.enter hdone hflow
      | jump target =>
          rw [hflow] at hfollow
          obtain ⟨scene, hscene, rfl, rfl⟩ := enterScene_eq_ok.mp hfollow
          exact .jump hdone hflow hscene
      | wait reason =>
          rw [hflow] at hfollow
          cases hfollow
          simpa using Step.wait hdone hflow
  · intro h
    cases h with
    | leave hend hleave => exact .inl ⟨hend, (endList_eq_ok hend).mpr (.inl ⟨_, hleave, rfl, rfl⟩)⟩
    | fall hend hleave hscene =>
        exact .inl ⟨hend, (endList_eq_ok hend).mpr (.inr (.inl ⟨hleave, _, hscene, rfl, rfl⟩))⟩
    | halt hend hleave hlast =>
        exact .inl ⟨hend, (endList_eq_ok hend).mpr (.inr (.inr ⟨hleave, hlast, rfl, rfl⟩))⟩
    | advance hdone hflow =>
        exact .inr ⟨_, [], hdone, by rw [hflow]; exact follow_next hdone, by simp⟩
    | enter hdone hflow => exact .inr ⟨_, [], hdone, by rw [hflow]; rfl, by simp⟩
    | jump hdone hflow hscene =>
        exact .inr ⟨_, _, hdone, by rw [hflow]; exact enterScene_of_scene? hscene, rfl⟩
    | wait hdone hflow => exact .inr ⟨_, [], hdone, by rw [hflow]; rfl, by simp⟩

/-- A call whose check succeeds enters the group. -/
theorem step_of_call {name id : String}
    (hcommand : project.commandAt state.position = .ok ⟨name, .call id⟩)
    (hcheck : project.checkGroup id = .ok ()) :
    state.step project =
      .ok ({ state with position := state.position.enter (.group state.position.command id) },
        []) := by
  have hdone : state.Performs project
      { state, flow := .enter (.group state.position.command id) } := by
    refine ⟨_, hcommand, ?_⟩
    rw [Action.execute_call, hcheck]
    rfl
  exact step_iff.mpr (.enter hdone rfl)

/-- Only a position that is not found and a command that fails stop a step. -/
theorem step_eq_error :
    state.step project = .error fault ↔
      project.resolve state.position = .error fault ∨
      ∃ command, project.commandAt state.position = .ok command ∧
        command.action.execute project state state.position.command = .error fault := by
  unfold step
  rw [bind_eq_error]
  refine or_congr_right ?_
  simp only [Position.commandAt_eq_ok]
  constructor
  · rintro ⟨commands, hlist, h⟩
    cases hcommand : Index.of? state.position.command commands with
    | none =>
        rw [hcommand] at h
        exact absurd h (endList_ne_error ⟨commands, hlist, hcommand⟩)
    | some command =>
        rw [hcommand] at h
        simp only [bind_eq_error, pure_ne_error, exists_false, and_false, or_false] at h
        refine ⟨command, ⟨commands, hlist, hcommand⟩, ?_⟩
        rcases h with h | ⟨execution, hexecute, h⟩
        · exact h
        · -- A command that succeeds has a place behind it, and never leads to a missing scene.
          have hleads := (Action.execute_done hexecute).leads
          cases hflow : execution.flow with
          | next =>
              have hdone : state.Performs project execution :=
                ⟨command, Position.commandAt_eq_ok.mpr ⟨commands, hlist, hcommand⟩, hexecute⟩
              rw [hflow, follow_next hdone] at h
              cases h
          | jump target =>
              rw [hflow] at h hleads
              obtain ⟨scene, hscene⟩ := hleads
              rw [follow, enterScene_of_scene? hscene] at h
              cases h
          | _ => rw [hflow] at h; cases h
  · rintro ⟨command, ⟨commands, hlist, hcommand⟩, h⟩
    refine ⟨commands, hlist, ?_⟩
    rw [hcommand]
    exact bind_eq_error.mpr (.inl h)

end SceneScript.State
