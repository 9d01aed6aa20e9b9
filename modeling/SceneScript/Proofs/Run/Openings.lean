import SceneScript.Proofs.Run.Step

/-! # Scenes that open alike

Before its commands, a run asks of a scene only whether it exists and how its stage is set. Projects
that agree in this, and in the values at the start, begin runs, enter scenes and end lists alike.
-/

namespace SceneScript

/-- The other project has as many scenes, on the same stages, and begins with the same values. -/
structure Project.OpensAlike (project other : Project) : Prop where
  stages : other.scenes.map Scene.stage = project.scenes.map Scene.stage
  flags : other.flags.map (fun flag => (flag.name, flag.value)) =
    project.flags.map fun flag => (flag.name, flag.value)
  vars : other.vars.map (fun entry => (entry.name, entry.value)) =
    project.vars.map fun entry => (entry.name, entry.value)

/-- Entering a scene asks for its stage. -/
theorem State.enterScene_eq_map (project : Project) (state : State) (index : Index) :
    state.enterScene project index = ((project.sceneAt index).map Scene.stage).map fun stage =>
      ({ state with position := .sceneStart index, stage }, [.sceneEntered index]) := by
  unfold enterScene
  cases project.sceneAt index <;> rfl

namespace Project.OpensAlike

variable {project other : Project}

theorem scenes_length (h : project.OpensAlike other) :
    other.scenes.length = project.scenes.length := by
  simpa using congrArg List.length h.stages

theorem scene?_stage (h : project.OpensAlike other) (index : Index) :
    (other.scene? index).map Scene.stage = (project.scene? index).map Scene.stage := by
  rw [scene?, scene?, ← Index.of?_map, ← Index.of?_map, h.stages]

theorem isSome_scene? (h : project.OpensAlike other) (index : Index) :
    (other.scene? index).isSome = (project.scene? index).isSome := by
  simpa using congrArg Option.isSome (h.scene?_stage index)

theorem sceneAt_stage (h : project.OpensAlike other) (index : Index) :
    (other.sceneAt index).map Scene.stage = (project.sceneAt index).map Scene.stage := by
  have hfound := h.scene?_stage index
  unfold sceneAt
  rw [h.scenes_length]
  cases hother : other.scene? index <;> cases hscene : project.scene? index <;>
    simp_all [Except.map]

theorem enterScene_eq (h : project.OpensAlike other) (state : State) (index : Index) :
    state.enterScene other index = state.enterScene project index := by
  rw [State.enterScene_eq_map, State.enterScene_eq_map, h.sceneAt_stage]

theorem endList_eq (h : project.OpensAlike other) (state : State) :
    state.endList other = state.endList project := by
  unfold State.endList
  simp only [h.isSome_scene?, h.enterScene_eq]

theorem follow_eq (h : project.OpensAlike other) (state : State) (flow : Flow) :
    state.follow other flow = state.follow project flow := by
  cases flow with
  | jump scene => exact h.enterScene_eq state scene
  | _ => rfl

theorem begin_eq (h : project.OpensAlike other) (interpreter : Interpreter) :
    interpreter.begin other = interpreter.begin project := by
  unfold Interpreter.begin
  simp only [h.enterScene_eq]

/-- Where only the existence of a scene is asked for, the check ends alike. -/
theorem check_eq {α : Type} (h : project.OpensAlike other) (index : Index)
    (later : Except Fault α) :
    (other.sceneAt index >>= fun _ => later) = (project.sceneAt index >>= fun _ => later) := by
  have hstage := h.sceneAt_stage index
  cases hother : other.sceneAt index <;> cases hscene : project.sceneAt index <;>
    simp_all [Except.map, bind, Except.bind]

theorem pick_eq (h : project.OpensAlike other) (state : State) (choice : Choice) :
    state.pick other choice = state.pick project choice := by
  unfold State.pick
  rw [h.check_eq]

/-- New runs are the same. -/
theorem new_eq (h : project.OpensAlike other) :
    Interpreter.new other = Interpreter.new project := by
  have hempty : other.scenes.isEmpty = project.scenes.isEmpty := by
    rw [← List.isEmpty_map (f := Scene.stage), h.stages, List.isEmpty_map]
  simp only [Interpreter.new, State.initial, h.flags, h.vars, hempty, ← List.head?_map, h.stages]

end Project.OpensAlike
end SceneScript
