import SceneScript.Script.Calls

/-! # Commands inside commands

Commands nest through the bodies of branches. An induction over commands gets its hypothesis for
all commands in all bodies, so that proofs need not follow the three kinds of lists.
-/

namespace SceneScript

/-! ## Branches and bodies -/

/-- The branches of a command. -/
def Command.branches (command : Command) : List (Branch Command) :=
  match command.action with
  | .branching _ branches => branches
  | _ => []

theorem Command.mem_branches {command : Command} {branch : Branch Command}
    (h : branch ∈ command.branches) :
    ∃ label branches, command.action = .branching label branches ∧ branch ∈ branches := by
  unfold Command.branches at h
  split at h
  · next label branches haction => exact ⟨label, branches, haction, h⟩
  · cases h

theorem Command.mem_branches_of_action {command : Command} {label : String}
    {branches : List (Branch Command)} {branch : Branch Command}
    (haction : command.action = .branching label branches) (h : branch ∈ branches) :
    branch ∈ command.branches := by
  rw [Command.branches, haction]
  exact h

theorem Command.sizeOf_lt_of_mem_body {command inner : Command} {branch : Branch Command}
    (hbranch : branch ∈ command.branches) (hinner : inner ∈ branch.body) :
    sizeOf inner < sizeOf command := by
  obtain ⟨id, action⟩ := command
  obtain ⟨label, branches, rfl, hmem⟩ := Command.mem_branches hbranch
  have hbody := List.sizeOf_lt_of_mem hinner
  have hbranches := List.sizeOf_lt_of_mem hmem
  obtain ⟨condition, body⟩ := branch
  simp only [Command.mk.sizeOf_spec, Action.branching.sizeOf_spec, Branch.mk.sizeOf_spec]
    at hbody hbranches ⊢
  omega

/-- What holds of a command as soon as it holds of all commands in its bodies holds of every
command. -/
@[elab_as_elim]
theorem Command.induction {motive : Command → Prop}
    (nest : ∀ command : Command,
      (∀ branch ∈ command.branches, ∀ inner ∈ branch.body, motive inner) → motive command)
    (command : Command) : motive command :=
  nest command fun branch hbranch inner hinner =>
    have := sizeOf_lt_of_mem_body hbranch hinner
    Command.induction nest inner
termination_by sizeOf command

/-! ## Commands at any depth -/

theorem Command.listSubcommands_eq_flatMap (commands : List Command) :
    listSubcommands commands = commands.flatMap subcommands := by
  induction commands with
  | nil => rfl
  | cons command rest ih => rw [listSubcommands, ih, List.flatMap_cons]

theorem Branch.listSubcommands_eq_flatMap (branches : List (Branch Command)) :
    listSubcommands branches = branches.flatMap fun branch =>
      Command.listSubcommands branch.body := by
  induction branches with
  | nil => rfl
  | cons branch rest ih => rw [listSubcommands, ih, List.flatMap_cons]

theorem Command.subcommands_eq (command : Command) :
    command.subcommands = command :: command.branches.flatMap fun branch =>
      listSubcommands branch.body := by
  obtain ⟨id, action⟩ := command
  cases action with
  | branching label inner => rw [subcommands, Branch.listSubcommands_eq_flatMap, branches]
  | _ => rfl

theorem Command.mem_subcommands_self (command : Command) : command ∈ command.subcommands := by
  rw [subcommands_eq]
  exact List.mem_cons_self

theorem Command.mem_listSubcommands {command : Command} {commands : List Command} :
    command ∈ listSubcommands commands ↔ ∃ outer ∈ commands, command ∈ outer.subcommands := by
  rw [listSubcommands_eq_flatMap, List.mem_flatMap]

theorem Command.mem_listSubcommands_of_mem {command : Command} {commands : List Command}
    (h : command ∈ commands) : command ∈ listSubcommands commands :=
  mem_listSubcommands.mpr ⟨command, h, mem_subcommands_self command⟩

/-- A command in a body of a command. -/
theorem Command.mem_subcommands_of_body {command inner : Command} {branch : Branch Command}
    (hbranch : branch ∈ command.branches) (hinner : inner ∈ listSubcommands branch.body) :
    inner ∈ command.subcommands := by
  rw [subcommands_eq]
  exact List.mem_cons_of_mem _ (List.mem_flatMap.mpr ⟨branch, hbranch, hinner⟩)

/-- A list holds all commands that the bodies of its commands hold. -/
theorem Command.listSubcommands_body_subset {command : Command} {commands : List Command}
    {branch : Branch Command} (hcommand : command ∈ commands)
    (hbranch : branch ∈ command.branches) :
    listSubcommands branch.body ⊆ listSubcommands commands := by
  intro inner hinner
  exact mem_listSubcommands.mpr ⟨command, hcommand, mem_subcommands_of_body hbranch hinner⟩

end SceneScript
