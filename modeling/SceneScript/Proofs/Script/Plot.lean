import Mathlib.Data.List.Basic
import SceneScript.Proofs.Script.CallGraph

/-! # Plots

The plot of a project is what is left of it without what only its author and its pictures go by: the
identifiers of commands, scenes, flags and variables, the labels of branchings, the names of scenes
and groups, the title, the colours and pictures of scenes, the settings and the asset entries.
-/

namespace SceneScript

mutual

/-- The command without its identifier and, at any depth, without labels. -/
def Command.plot : Command → Command
  | ⟨_, .branching _ branches⟩ => ⟨"", .branching "" (Branch.listPlot branches)⟩
  | ⟨_, action⟩ => ⟨"", action⟩
termination_by structural command => command

def Branch.listPlot : List (Branch Command) → List (Branch Command)
  | [] => []
  | ⟨condition, body⟩ :: rest => ⟨condition, Command.listPlot body⟩ :: Branch.listPlot rest
termination_by structural branches => branches

def Command.listPlot : List Command → List Command
  | [] => []
  | command :: rest => command.plot :: Command.listPlot rest
termination_by structural commands => commands

end

/-- Scenes are found by their place. -/
def Scene.plot (scene : Scene) : Scene :=
  { id := "", characterVisible := scene.characterVisible,
    commands := Command.listPlot scene.commands }

/-- Groups are found by their identifier. -/
def CommandGroup.plot (group : CommandGroup) : CommandGroup :=
  { id := group.id, commands := Command.listPlot group.commands }

def Project.plot (project : Project) : Project :=
  { resolution := project.resolution
    flags := project.flags.map fun flag => { flag with id := "" }
    vars := project.vars.map fun entry => { entry with id := "" }
    scenes := project.scenes.map Scene.plot
    sharedCommands := project.sharedCommands.map CommandGroup.plot }

/-! ## Commands -/

theorem Command.listPlot_eq_map (commands : List Command) :
    listPlot commands = commands.map plot := by
  induction commands with
  | nil => rfl
  | cons command rest ih => rw [listPlot, ih, List.map_cons]

/-- A branch keeps its condition. -/
def Branch.plot (branch : Branch Command) : Branch Command :=
  ⟨branch.condition, branch.body.map Command.plot⟩

theorem Branch.listPlot_eq_map (branches : List (Branch Command)) :
    listPlot branches = branches.map plot := by
  induction branches with
  | nil => rfl
  | cons branch rest ih => rw [listPlot, ih, Command.listPlot_eq_map, List.map_cons, plot]

def Action.plot : Action Command → Action Command
  | .branching _ branches => .branching "" (branches.map Branch.plot)
  | action => action

namespace Command

theorem plot_eq (command : Command) : command.plot = ⟨"", command.action.plot⟩ := by
  obtain ⟨id, action⟩ := command
  cases action with
  | branching label branches => rw [plot, Branch.listPlot_eq_map, Action.plot]
  | _ => rfl

theorem choices?_plot (command : Command) : command.plot.choices? = command.choices? := by
  rw [plot_eq]
  obtain ⟨id, action⟩ := command
  cases action <;> rfl

theorem callee?_plot (command : Command) : command.plot.callee? = command.callee? := by
  rw [plot_eq]
  obtain ⟨id, action⟩ := command
  cases action <;> rfl

theorem branches_plot (command : Command) :
    command.plot.branches = command.branches.map Branch.plot := by
  rw [plot_eq]
  obtain ⟨id, action⟩ := command
  cases action <;> rfl

theorem listSubcommands_plot_of {commands : List Command}
    (h : ∀ command ∈ commands, command.plot.subcommands = command.subcommands.map plot) :
    listSubcommands (commands.map plot) = (listSubcommands commands).map plot := by
  rw [listSubcommands_eq_flatMap, listSubcommands_eq_flatMap, List.flatMap_map, List.map_flatMap]
  exact List.flatMap_congr h

theorem subcommands_plot (command : Command) :
    command.plot.subcommands = command.subcommands.map plot := by
  induction command using Command.induction with
  | nest command ih =>
      have hbodies : ∀ branch ∈ command.branches, listSubcommands (branch.body.map plot) =
          (listSubcommands branch.body).map plot :=
        fun branch hbranch => listSubcommands_plot_of (ih branch hbranch)
      rw [subcommands_eq, subcommands_eq, List.map_cons, branches_plot, List.flatMap_map,
        List.map_flatMap]
      exact congrArg _ (List.flatMap_congr hbodies)

/-- Calls stay, in the same order. -/
theorem listCalls_plot (commands : List Command) :
    listCalls (commands.map plot) = listCalls commands := by
  rw [listCalls, listSubcommands_plot_of fun command _ => subcommands_plot command,
    List.filterMap_map, listCalls]
  exact congrArg (List.filterMap · _) (funext callee?_plot)

end Command

/-! ## Groups -/

namespace Project

theorem findGroup?_plot (project : Project) (id : String) :
    project.plot.findGroup? id = (project.findGroup? id).map CommandGroup.plot :=
  List.find?_map

theorem checkGroup_plot (project : Project) (id : String) :
    project.plot.checkGroup id = project.checkGroup id := by
  have hcalls : ∀ id,
      (project.plot.findGroup? id).map (fun group => Command.listCalls group.commands) =
        (project.findGroup? id).map fun group => Command.listCalls group.commands := by
    intro id
    rw [findGroup?_plot, Option.map_map]
    congr 1
    funext group
    rw [Function.comp, CommandGroup.plot, Command.listPlot_eq_map, Command.listCalls_plot]
  rw [checkGroup, checkGroup, follow_congr hcalls]

end Project
end SceneScript
