import SceneScript.Proofs.Run.Drive
import SceneScript.Proofs.Run.Unfolding

/-! # What effects tell

Whoever sees nothing of a run but its effects can tell where it is, which values its names have and
what is on the stage: replaying the effects from the initial state leads to what the state holds.
-/

namespace SceneScript

/-! ## Replaying effects -/

/-- The part of a state that effects tell of. -/
structure Chronicle where
  scene : Index
  flags : Table Bool
  vars : Table UInt8
  stage : Stage
  deriving DecidableEq

namespace Chronicle

variable {project : Project} {chronicle : Chronicle}

/-- A scene that is entered resets the stage. -/
def note (project : Project) (chronicle : Chronicle) : Effect → Chronicle
  | .sceneEntered index => { chronicle with
      scene := index
      stage := ((project.scene? index).map Scene.stage).getD chronicle.stage }
  | .flagChanged name value => { chronicle with flags := chronicle.flags.insert name value }
  | .variableChanged name value => { chronicle with vars := chronicle.vars.insert name value }
  | .visibility change => { chronicle with stage := chronicle.stage.change change }
  | _ => chronicle

def replay (project : Project) (chronicle : Chronicle) (effects : List Effect) : Chronicle :=
  effects.foldl (note project) chronicle

@[simp] theorem replay_nil : chronicle.replay project [] = chronicle := rfl

@[simp] theorem replay_cons (effect : Effect) (effects : List Effect) :
    chronicle.replay project (effect :: effects) =
      (chronicle.note project effect).replay project effects := rfl

@[simp] theorem replay_append (effects later : List Effect) :
    chronicle.replay project (effects ++ later) =
      (chronicle.replay project effects).replay project later :=
  List.foldl_append

end Chronicle

namespace State

variable {project : Project} {state next final : State} {effects : List Effect}

def chronicle (state : State) : Chronicle :=
  ⟨state.position.scene, state.flags, state.vars, state.stage⟩

/-- The effects tell of everything that has changed from one state to the other. -/
def Tells (project : Project) (state : State) (effects : List Effect) (next : State) : Prop :=
  state.chronicle.replay project effects = next.chronicle

theorem Tells.append {middle : State} {later : List Effect}
    (h : state.Tells project effects middle) (hlater : middle.Tells project later next) :
    state.Tells project (effects ++ later) next := by
  unfold Tells at h hlater ⊢
  rw [Chronicle.replay_append, h, hlater]

/-- Each event tells of the scene, the name or the part of the stage that it changes. -/
theorem tells_of_unfolds (h : state.Unfolds project effects next) :
    state.Tells project effects next := by
  induction h with
  | moves hscene hflags hvars hstage =>
      simp [Tells, chronicle, hscene, hflags, hvars, hstage]
  | @tells state effect hquiet =>
      cases effect with
      | sceneEntered _ | flagChanged _ _ | variableChanged _ _ | visibility _ => cases hquiet
      | _ => rfl
  | sets _ _ _ | changes _ _ _ | stages _ _ => rfl
  | enters state hscene =>
      simp [Tells, Chronicle.note, chronicle, inScene, hscene, Position.sceneStart]
  | append _ _ ih ihlater => exact ih.append ihlater

end State

/-! ## Whole runs -/

namespace Interpreter

variable {project : Project} {interpreter next : Interpreter} {inputs : List (Option Input)}
  {effects : List Effect}

/-- As long as no tick fails, the effects of all ticks together tell everything. -/
theorem replay_drive (h : (new project).drive project inputs = .ok (next, effects)) :
    (State.initial project).chronicle.replay project effects = next.state.chronicle := by
  have hkept : ∀ (interpreter : Interpreter) (before : List Effect) (input : Option Input)
      (next : Interpreter) (response : Response),
      (State.initial project).Tells project before interpreter.state →
      interpreter.tick project input = (next, .ok response) →
      (State.initial project).Tells project (before ++ response.effects) next.state :=
    fun _ _ _ _ _ hbefore htick => hbefore.append (State.tells_of_unfolds (unfolds_tick htick))
  have hstart : (State.initial project).Tells project [] (new project).state := rfl
  exact drive_induction hstart hkept h

/-- A question on a stage with a character, whose answer leads to a dark stage. -/
def matinee : Project where
  flags := [{ id := "f", name := "lit" }]
  vars := [{ id := "v", name := "act", value := 254 }]
  scenes := [
    { id := "a", commands := [⟨"1", .setFlag "lit" true⟩, ⟨"2", .setVariable "act" .add 9⟩,
        ⟨"3", .showCharacter 0 (some ⟨2, 16, 100, true⟩)⟩, .dialogue "4" "" "Again?"
        [{ text := "Yes", enableGoto := true, goto := 1, setFlag := "lit" }]] },
    { id := "b", characterVisible := false, commands := [⟨"5", .hideBackground 0⟩,
        .dialogue "6" "" "Dark" []] }]

/-- The answer, and the end of the transition to the dark stage. -/
def matineeInputs : List (Option Input) := [none, some (.choose 0), some .transitionFinished]

def matineeEffects : List Effect :=
  [.sceneEntered 0, .flagChanged "lit" true, .variableChanged "act" 255,
    .visibility ⟨.character, true, 0, some ⟨2, 16, 100, true⟩⟩, .say "" "Again?", .choices ["Yes"],
    .flagChanged "lit" false, .beginTransition 0 1, .sceneEntered 1,
    .visibility ⟨.background, false, 0, none⟩, .say "" "Dark"]

theorem exists_drive_matinee : ∃ final,
    (new matinee).drive matinee matineeInputs = .ok (final, matineeEffects) ∧
      final.state.stage = ⟨false, false, none⟩ :=
  ⟨_, rfl, rfl⟩

theorem replay_matinee : ∃ final,
    (new matinee).drive matinee matineeInputs = .ok (final, matineeEffects) ∧
      (State.initial matinee).chronicle.replay matinee matineeEffects = final.state.chronicle := by
  obtain ⟨final, hdrive, -⟩ := exists_drive_matinee
  exact ⟨final, hdrive, replay_drive hdrive⟩

end Interpreter
end SceneScript
