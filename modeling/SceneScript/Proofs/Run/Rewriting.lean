import SceneScript.Proofs.Run.Openings
import SceneScript.Proofs.Script.Rewriting

/-! # Rewritten scenes

Scenes begin, end and follow each other as they did before their commands were rewritten.
-/

namespace SceneScript

/-- The other project begins with the same values, and its scenes are those of the project with
rewritten commands. -/
structure Project.RewritesScenes (project other : Project) (leaf : Command → List Command) :
    Prop where
  scenes : other.scenes = project.scenes.map (Scene.rewrite leaf)
  flags : other.flags = project.flags
  vars : other.vars = project.vars

namespace Project.RewritesScenes

variable {project other : Project} {leaf : Command → List Command} {state : State}
  {interpreter : Interpreter}

theorem scenes_length (h : project.RewritesScenes other leaf) :
    other.scenes.length = project.scenes.length := by
  rw [h.scenes, List.length_map]

theorem scene?_eq (h : project.RewritesScenes other leaf) (index : Index) :
    other.scene? index = (project.scene? index).map (Scene.rewrite leaf) := by
  rw [scene?, scene?, h.scenes, Index.of?_map]

theorem sceneAt_eq (h : project.RewritesScenes other leaf) (index : Index) :
    other.sceneAt index = (project.sceneAt index).map (Scene.rewrite leaf) := by
  unfold sceneAt
  rw [h.scene?_eq, h.scenes_length]
  cases project.scene? index <;> rfl

/-- The stage of a scene has nothing to do with its commands. -/
theorem opensAlike (h : project.RewritesScenes other leaf) : project.OpensAlike other where
  stages := by
    rw [h.scenes, List.map_map]
    rfl
  flags := by rw [h.flags]
  vars := by rw [h.vars]

theorem enterScene_eq (h : project.RewritesScenes other leaf) (state : State) (index : Index) :
    state.enterScene other index = state.enterScene project index :=
  h.opensAlike.enterScene_eq state index

theorem endList_eq (h : project.RewritesScenes other leaf) (state : State) :
    state.endList other = state.endList project :=
  h.opensAlike.endList_eq state

theorem follow_eq (h : project.RewritesScenes other leaf) (state : State) (flow : Flow) :
    state.follow other flow = state.follow project flow :=
  h.opensAlike.follow_eq state flow

theorem begin_eq (h : project.RewritesScenes other leaf) (interpreter : Interpreter) :
    interpreter.begin other = interpreter.begin project :=
  h.opensAlike.begin_eq interpreter

theorem pick_eq (h : project.RewritesScenes other leaf) (state : State) (choice : Choice) :
    state.pick other choice = state.pick project choice :=
  h.opensAlike.pick_eq state choice

/-- New runs are the same. -/
theorem new_eq (h : project.RewritesScenes other leaf) :
    Interpreter.new other = Interpreter.new project :=
  h.opensAlike.new_eq

end Project.RewritesScenes
end SceneScript
