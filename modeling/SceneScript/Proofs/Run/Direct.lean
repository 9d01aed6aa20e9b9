import SceneScript.Proofs.Run.Rewriting

/-! # Gotos that jump at once

A project keeps its scenes, groups, calls and positions when all gotos give up their transitions.
-/

namespace SceneScript

def Action.withoutTransition : Action Command → Action Command
  | .goto scene _ => .goto scene false
  | action => action

def Command.withoutTransition (command : Command) : List Command :=
  [{ command with action := command.action.withoutTransition }]

/-- The project with no transition on any goto. -/
def Project.direct (project : Project) : Project :=
  { project with
    scenes := project.scenes.map (Scene.rewrite Command.withoutTransition)
    sharedCommands := project.sharedCommands.map (CommandGroup.rewrite Command.withoutTransition) }

/-! ## Commands -/

/-- An action, with its branches, that does without transitions. -/
def Action.direct : Action Command → Action Command
  | .branching label branches =>
    .branching label (branches.map (Branch.rewrite Command.withoutTransition))
  | action => action.withoutTransition

def Command.direct (command : Command) : Command := { command with action := command.action.direct }

namespace Command

theorem rewrite_withoutTransition (command : Command) :
    command.rewrite withoutTransition = [command.direct] := by
  obtain ⟨id, action⟩ := command
  cases action with
  | branching label branches => exact rewrite_branching rfl
  | _ => rfl

theorem listRewrite_withoutTransition (commands : List Command) :
    listRewrite withoutTransition commands = commands.map direct :=
  listRewrite_eq_map rewrite_withoutTransition commands

theorem choices?_direct (command : Command) : command.direct.choices? = command.choices? := by
  obtain ⟨id, action⟩ := command
  cases action <;> rfl

/-- Calls stay, in the same order. -/
theorem listCalls_direct (commands : List Command) :
    listCalls (commands.map direct) = listCalls commands := by
  have hleaf : ∀ command : Command,
      leafCalls withoutTransition command = command.callee?.toList := by
    intro command
    obtain ⟨id, action⟩ := command
    cases action <;> rfl
  rw [← listRewrite_withoutTransition, listCalls_listRewrite, List.flatMap_congr fun c _ => hleaf c]
  exact (List.filterMap_eq_flatMap_toList ..).symm

end Command

/-! ## Look-ups -/

namespace Project

variable (project : Project)

theorem rewritesScenes_direct : project.RewritesScenes project.direct Command.withoutTransition :=
  ⟨rfl, rfl, rfl⟩

theorem findGroup?_direct (id : String) : project.direct.findGroup? id =
    (project.findGroup? id).map (CommandGroup.rewrite Command.withoutTransition) :=
  List.find?_map

theorem checkGroup_direct (id : String) : project.direct.checkGroup id = project.checkGroup id := by
  have hcalls : ∀ id,
      (project.direct.findGroup? id).map (fun group => Command.listCalls group.commands) =
        (project.findGroup? id).map fun group => Command.listCalls group.commands := by
    intro id
    rw [findGroup?_direct, Option.map_map]
    congr 1
    funext group
    rw [Function.comp, CommandGroup.rewrite, Command.listRewrite_withoutTransition,
      Command.listCalls_direct]
  rw [checkGroup, checkGroup, follow_congr hcalls]

end Project

theorem Frame.innerList_direct (project : Project) (commands : List Command) (frame : Frame) :
    frame.innerList project.direct (commands.map Command.direct) =
      (frame.innerList project commands).map (List.map Command.direct) := by
  unfold innerList
  rw [Index.of?_map]
  cases frame.owner.of? commands with
  | none => rfl
  | some owner =>
      obtain ⟨id, action⟩ := owner
      cases frame with
      | branch index chosen =>
          cases action with
          | branching label branches =>
              simp only [Option.map_some, Command.direct, Action.direct, List.getElem?_map]
              cases branches[chosen.toNat]? with
              | none => rfl
              | some taken =>
                  simp only [Option.map_some, Except.map, Branch.rewrite,
                    Command.listRewrite_withoutTransition]
          | _ => rfl
      | group index called =>
          cases action with
          | call group =>
              simp only [Option.map_some, Command.direct, Action.direct, Action.withoutTransition]
              split
              · simp only [Project.groupAt, Project.findGroup?_direct]
                cases project.findGroup? called with
                | none => rfl
                | some group =>
                    simp only [Option.map_some, Except.map, CommandGroup.rewrite,
                      Command.listRewrite_withoutTransition]
              · rfl
          | _ => rfl

namespace Project

variable (project : Project)

theorem listAt_direct (scene : Index) (frames : List Frame) :
    project.direct.listAt scene frames =
      (project.listAt scene frames).map (List.map Command.direct) := by
  induction frames using List.reverseRecOn with
  | nil =>
      rw [listAt_nil, listAt_nil, project.rewritesScenes_direct.sceneAt_eq]
      cases project.sceneAt scene with
      | error fault => rfl
      | ok entered =>
          simp only [Except.map, Scene.rewrite, Command.listRewrite_withoutTransition]
  | append_singleton frames frame ih =>
      rw [listAt_append, listAt_append, ih]
      cases project.listAt scene frames with
      | error fault => rfl
      | ok commands => exact Frame.innerList_direct project commands frame

/-- Every command stands where it stood. -/
theorem commandAt_direct (position : Position) :
    project.direct.commandAt position = (project.commandAt position).map Command.direct := by
  unfold commandAt resolve
  rw [listAt_direct]
  cases project.listAt position.scene position.frames with
  | error fault => rfl
  | ok commands =>
      simp only [Except.map, bind, Except.bind, Index.of?_map, List.length_map]
      cases position.command.of? commands <;> rfl

end Project
end SceneScript
