import Mathlib.Data.List.Basic
import SceneScript.Proofs.Script.CallGraph

/-! # Rewriting scripts

A rewriting puts a list of commands in the place of each command that holds no branches, at any
depth. Branching commands stay where they are, with their bodies rewritten.
-/

namespace SceneScript

mutual

/-- What `leaf` puts in the place of a command, or the branching command with rewritten bodies. -/
def Command.rewrite (leaf : Command → List Command) : Command → List Command
  | ⟨id, .branching label branches⟩ => [⟨id, .branching label (Branch.listRewrite leaf branches)⟩]
  | command => leaf command
termination_by structural command => command

def Branch.listRewrite (leaf : Command → List Command) :
    List (Branch Command) → List (Branch Command)
  | [] => []
  | ⟨condition, body⟩ :: rest =>
    ⟨condition, Command.listRewrite leaf body⟩ :: Branch.listRewrite leaf rest
termination_by structural branches => branches

def Command.listRewrite (leaf : Command → List Command) : List Command → List Command
  | [] => []
  | command :: rest => command.rewrite leaf ++ Command.listRewrite leaf rest
termination_by structural commands => commands

end

section Rewriting

variable {leaf other : Command → List Command}

/-- A branch keeps its condition. -/
def Branch.rewrite (leaf : Command → List Command) (branch : Branch Command) : Branch Command :=
  ⟨branch.condition, Command.listRewrite leaf branch.body⟩

theorem Branch.listRewrite_eq_map (branches : List (Branch Command)) :
    listRewrite leaf branches = branches.map (rewrite leaf) := by
  induction branches with
  | nil => rfl
  | cons branch rest ih => rw [listRewrite, ih, List.map_cons, rewrite]

namespace Command

variable {command : Command} {commands : List Command}

theorem listRewrite_eq_flatMap (commands : List Command) :
    listRewrite leaf commands = commands.flatMap (rewrite leaf) := by
  induction commands with
  | nil => rfl
  | cons command rest ih => rw [listRewrite, ih, List.flatMap_cons]

theorem rewrite_branching {label : String} {branches : List (Branch Command)}
    (haction : command.action = .branching label branches) :
    command.rewrite leaf =
      [{ command with action := .branching label (branches.map (Branch.rewrite leaf)) }] := by
  obtain ⟨id, action⟩ := command
  cases haction
  rw [rewrite, Branch.listRewrite_eq_map]

theorem rewrite_leaf (haction : ∀ label branches, command.action ≠ .branching label branches) :
    command.rewrite leaf = leaf command := by
  obtain ⟨id, action⟩ := command
  cases action with
  | branching label branches => exact absurd rfl (haction label branches)
  | _ => rfl

/-- Only what stands in the place of the commands in the list matters, at any depth. -/
theorem rewrite_congr (h : ∀ inner ∈ command.subcommands, leaf inner = other inner) :
    command.rewrite leaf = command.rewrite other := by
  induction command using Command.induction with
  | nest command ih =>
      by_cases haction : ∃ label branches, command.action = .branching label branches
      · obtain ⟨label, branches, haction⟩ := haction
        have hbranches : command.branches = branches := by rw [Command.branches, haction]
        have hbodies : branches.map (Branch.rewrite leaf) = branches.map (Branch.rewrite other) := by
          refine List.map_congr_left fun branch hbranch => ?_
          rw [← hbranches] at hbranch
          have hbody : branch.body.flatMap (rewrite leaf) = branch.body.flatMap (rewrite other) := by
            refine List.flatMap_congr fun inner hinner => ih branch hbranch inner hinner ?_
            intro deep hdeep
            exact h deep (mem_subcommands_of_body hbranch
              (mem_listSubcommands.mpr ⟨inner, hinner, hdeep⟩))
          rw [Branch.rewrite, Branch.rewrite, listRewrite_eq_flatMap, listRewrite_eq_flatMap, hbody]
        rw [rewrite_branching haction, rewrite_branching haction, hbodies]
      · have hleaf : ∀ label branches, command.action ≠ .branching label branches :=
          fun label branches heq => haction ⟨label, branches, heq⟩
        rw [rewrite_leaf hleaf, rewrite_leaf hleaf]
        exact h command (mem_subcommands_self command)

theorem listRewrite_congr (h : ∀ inner ∈ listSubcommands commands, leaf inner = other inner) :
    listRewrite leaf commands = listRewrite other commands := by
  rw [listRewrite_eq_flatMap, listRewrite_eq_flatMap]
  refine List.flatMap_congr fun command hcommand => rewrite_congr fun inner hinner => ?_
  exact h inner (mem_listSubcommands.mpr ⟨command, hcommand, hinner⟩)

/-- Where each command is replaced by one command, nothing moves. -/
theorem listRewrite_eq_map {replace : Command → Command}
    (h : ∀ command : Command, command.rewrite leaf = [replace command]) (commands : List Command) :
    listRewrite leaf commands = commands.map replace := by
  induction commands with
  | nil => rfl
  | cons command rest ih => rw [listRewrite, ih, h, List.map_cons, List.singleton_append]

/-! ## Calls -/

theorem listCalls_append (first second : List Command) :
    listCalls (first ++ second) = listCalls first ++ listCalls second := by
  simp only [listCalls, listSubcommands_eq_flatMap, List.flatMap_append, List.filterMap_append]

/-- The calls that `leaf` puts in the place of a command. -/
def leafCalls (leaf : Command → List Command) (command : Command) : List String :=
  match command.action with
  | .branching .. => []
  | _ => listCalls (leaf command)

theorem listCalls_listRewrite_of
    (h : ∀ inner ∈ commands,
      listCalls (inner.rewrite leaf) = inner.subcommands.flatMap (leafCalls leaf)) :
    listCalls (listRewrite leaf commands) = (listSubcommands commands).flatMap (leafCalls leaf) := by
  induction commands with
  | nil => rfl
  | cons command rest ih =>
      obtain ⟨hcommand, hrest⟩ := List.forall_mem_cons.mp h
      rw [listRewrite, listCalls_append, hcommand, ih hrest, listSubcommands, List.flatMap_append]

/-- A rewritten command calls what stands in the place of its commands without branches. -/
theorem listCalls_rewrite (command : Command) :
    listCalls (command.rewrite leaf) = command.subcommands.flatMap (leafCalls leaf) := by
  induction command using Command.induction with
  | nest command ih =>
      obtain ⟨id, action⟩ := command
      cases action with
      | branching label branches =>
          have hbodies : ∀ branch ∈ branches, listCalls (listRewrite leaf branch.body) =
              (listSubcommands branch.body).flatMap (leafCalls leaf) :=
            fun branch hbranch => listCalls_listRewrite_of (ih branch hbranch)
          have hcalls : listCalls [⟨id, .branching label (branches.map (Branch.rewrite leaf))⟩] =
              branches.flatMap fun branch => listCalls (listRewrite leaf branch.body) := by
            simp only [listCalls, listSubcommands, List.append_nil, subcommands_eq, Command.branches,
              List.filterMap_cons, callee?, List.filterMap_flatMap, List.flatMap_map, Branch.rewrite]
          rw [rewrite_branching rfl, hcalls, List.flatMap_congr hbodies, subcommands_eq,
            List.flatMap_cons, List.flatMap_assoc]
          rfl
      | _ =>
          rw [subcommands_eq]
          exact (List.append_nil _).symm

theorem listCalls_listRewrite (commands : List Command) :
    listCalls (listRewrite leaf commands) = (listSubcommands commands).flatMap (leafCalls leaf) :=
  listCalls_listRewrite_of fun command _ => listCalls_rewrite command

end Command

def Scene.rewrite (leaf : Command → List Command) (scene : Scene) : Scene :=
  { scene with commands := Command.listRewrite leaf scene.commands }

def CommandGroup.rewrite (leaf : Command → List Command) (group : CommandGroup) : CommandGroup :=
  { group with commands := Command.listRewrite leaf group.commands }

end Rewriting
end SceneScript
