import SceneScript.Fault
import SceneScript.Project.Basic
/-!
# Calls between groups

A called group runs in the place of its call, so the calls must come to an end. The search goes from
call to call in order and stops at the first call that leads nowhere or back.
-/

namespace SceneScript

mutual

/-- A command, then all commands in its branches, in the order of the script. -/
def Command.subcommands : Command → List Command
  | ⟨id, .branching label branches⟩ =>
    ⟨id, .branching label branches⟩ :: Branch.listSubcommands branches
  | command => [command]
termination_by structural command => command

def Branch.listSubcommands : List (Branch Command) → List Command
  | [] => []
  | ⟨_, body⟩ :: rest => Command.listSubcommands body ++ Branch.listSubcommands rest
termination_by structural branches => branches

def Command.listSubcommands : List Command → List Command
  | [] => []
  | command :: rest => command.subcommands ++ Command.listSubcommands rest
termination_by structural commands => commands

end

/-- The group that a command calls. -/
def Command.callee? (command : Command) : Option String :=
  match command.action with
  | .call group => some group
  | _ => none

/-- The groups that commands call, those in their branches included. -/
def Command.listCalls (commands : List Command) : List String :=
  (Command.listSubcommands commands).filterMap Command.callee?

namespace Project

variable (project : Project)

/-- The groups that do not stand on a chain of calls. -/
def offChain (chain : List String) : List CommandGroup :=
  project.sharedCommands.filter fun group => !chain.contains group.id

variable {project}

theorem offChain_append_lt {chain : List String} {id : String} {group : CommandGroup}
    (hfound : project.findGroup? id = some group) (hid : chain.contains id = false) :
    (project.offChain (chain ++ [id])).length < (project.offChain chain).length := by
  have hgroup : group.id = id := by
    simpa using List.find?_some hfound
  have hmem : group ∈ project.sharedCommands := List.mem_of_find?_eq_some hfound
  have hsplit : project.offChain (chain ++ [id]) =
      (project.offChain chain).filter fun g => !(g.id == id) := by
    simp only [offChain, List.filter_filter]
    congr 1
    funext g
    cases hc : chain.contains g.id <;> cases hg : g.id == id <;> simp_all
  rw [hsplit]
  refine List.length_filter_lt_length_iff_exists.mpr ⟨group, ?_, by simp [hgroup]⟩
  rw [offChain, List.mem_filter]
  exact ⟨hmem, by simp [hgroup] at hid ⊢; exact hid⟩

variable (project)

/-- Follows the calls `ids`, made behind the calls of `chain`. Groups in `cleared` have been
searched without a fault; the result adds those searched here. -/
def follow (chain : List String) (ids cleared : List String) : Except Fault (List String) :=
  match ids with
  | [] => .ok cleared
  | id :: rest =>
    if _hchain : chain.contains id then
      .error (.cyclicGroup id (chain.dropWhile (· != id) ++ [id]))
    else if cleared.contains id then follow chain rest cleared
    else
      match _hfound : project.findGroup? id with
      | none => .error (.missingGroup id)
      | some group =>
        match follow (chain ++ [id]) (Command.listCalls group.commands) cleared with
        | .ok cleared => follow chain rest (id :: cleared)
        | .error fault => .error fault
termination_by ((project.offChain chain).length, ids.length)
decreasing_by
  · exact .right _ (by simp)
  · exact .left _ _ (offChain_append_lt _hfound (by simpa using _hchain))
  · exact .right _ (by simp)

/-- Every call that a group leads to names a group, and none leads back. -/
def checkGroup (id : String) : Except Fault Unit := (project.follow [] [id] []).map fun _ => ()

end Project
end SceneScript
