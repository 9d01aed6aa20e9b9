import SceneScript.Lint.Review
import SceneScript.Proofs.Script.Nesting

/-! # Findings at any depth

A review of a list of commands is made of the findings of all commands in it, at any depth, and of the
conditions of their branches.
-/

namespace SceneScript.Review

variable {project : Project} {place : Place} {index : Nat}

/-- A command is judged by its action and by its branches. -/
theorem ofCommand_eq (place : Place) (command : Command) :
    ofCommand project place command =
      ofAction project place command.action ++ ofBranches project place 0 command.branches := by
  obtain ⟨id, action⟩ := command
  cases action with
  | branching label branches => rfl
  | _ => exact (List.append_nil _).symm

section Everywhere

variable {holds : Finding → Prop}

/-- What is true of all findings in the bodies is true of those of the branches, if it is true of
those of conditions. -/
theorem forall_ofBranches {branches : List (Branch Command)}
    (hcondition : ∀ place (condition : Condition), ∀ finding ∈
      ofCheck place (condition.evaluate (m := Id) project.declared), holds finding)
    (hbody : ∀ branch ∈ branches, ∀ place, ∀ finding ∈
      ofCommands project place 0 branch.body, holds finding) :
    ∀ finding ∈ ofBranches project place index branches, holds finding := by
  induction branches generalizing index with
  | nil => exact List.forall_mem_nil _
  | cons branch rest ih =>
      obtain ⟨condition, body⟩ := branch
      obtain ⟨hfirst, hrest⟩ := List.forall_mem_cons.mp hbody
      rw [ofBranches]
      intro finding hfinding
      rcases List.mem_append.mp hfinding with hfinding | hfinding
      · rcases List.mem_append.mp hfinding with hfinding | hfinding
        · exact hcondition _ condition finding hfinding
        · exact hfirst _ finding hfinding
      · exact ih hrest finding hfinding

theorem forall_ofCommands {commands : List Command}
    (hcommand : ∀ command ∈ commands, ∀ place, ∀ finding ∈ ofCommand project place command,
      holds finding) :
    ∀ finding ∈ ofCommands project place index commands, holds finding := by
  induction commands generalizing index with
  | nil => exact List.forall_mem_nil _
  | cons command rest ih =>
      obtain ⟨hfirst, hrest⟩ := List.forall_mem_cons.mp hcommand
      rw [ofCommands]
      intro finding hfinding
      rcases List.mem_append.mp hfinding with hfinding | hfinding
      · exact hfirst _ finding hfinding
      · exact ih hrest finding hfinding

/-- What is true of the findings of actions and of conditions is true of those of a command, at any
depth. -/
theorem forall_ofCommand
    (haction : ∀ place action, ∀ finding ∈ ofAction project place action, holds finding)
    (hcondition : ∀ place (condition : Condition), ∀ finding ∈
      ofCheck place (condition.evaluate (m := Id) project.declared), holds finding)
    (command : Command) : ∀ place, ∀ finding ∈ ofCommand project place command, holds finding := by
  induction command using Command.induction with
  | nest command ih =>
      intro place finding hfinding
      rw [ofCommand_eq] at hfinding
      rcases List.mem_append.mp hfinding with hfinding | hfinding
      · exact haction place _ finding hfinding
      · refine forall_ofBranches hcondition (fun branch hbranch place => ?_) finding hfinding
        exact forall_ofCommands fun inner hinner => ih branch hbranch inner hinner

end Everywhere

/-! ## Findings of single commands -/

variable (project)

theorem exists_ofCommand_subset {command : Command} {commands : List Command}
    (hcommand : command ∈ commands) (list : Place) (index : Nat) :
    ∃ place, ofCommand project place command ⊆ ofCommands project list index commands := by
  induction commands generalizing index with
  | nil => cases hcommand
  | cons first rest ih =>
      rw [ofCommands]
      rcases List.mem_cons.mp hcommand with rfl | hrest
      · exact ⟨_, List.subset_append_left _ _⟩
      · obtain ⟨place, hsubset⟩ := ih hrest (index + 1)
        exact ⟨place, List.subset_append_of_subset_right _ hsubset⟩

theorem exists_ofBody_subset {branch : Branch Command} {branches : List (Branch Command)}
    (hbranch : branch ∈ branches) (owner : Place) (index : Nat) :
    ∃ place, ofCommands project place 0 branch.body ⊆
      ofBranches project owner index branches := by
  induction branches generalizing index with
  | nil => cases hbranch
  | cons first rest ih =>
      obtain ⟨condition, body⟩ := first
      rw [ofBranches]
      rcases List.mem_cons.mp hbranch with rfl | hrest
      · exact ⟨_, List.subset_append_of_subset_left _ (List.subset_append_right _ _)⟩
      · obtain ⟨place, hsubset⟩ := ih hrest (index + 1)
        exact ⟨place, List.subset_append_of_subset_right _ hsubset⟩

/-- Every command inside of a command is judged with it. -/
theorem exists_ofInner_subset (command : Command) :
    ∀ inner ∈ command.subcommands, ∀ place, ∃ spot, ofCommand project spot inner ⊆
      ofCommand project place command := by
  induction command using Command.induction with
  | nest command ih =>
      intro inner hinner place
      rw [Command.subcommands_eq, List.mem_cons, List.mem_flatMap] at hinner
      rcases hinner with rfl | ⟨branch, hbranch, hinner⟩
      · exact ⟨place, List.Subset.refl _⟩
      · obtain ⟨outer, houter, hinner⟩ := Command.mem_listSubcommands.mp hinner
        obtain ⟨body, hbody⟩ := exists_ofBody_subset project hbranch place 0
        obtain ⟨around, haround⟩ := exists_ofCommand_subset project houter body 0
        obtain ⟨spot, hspot⟩ := ih branch hbranch outer houter inner hinner around
        rw [ofCommand_eq place command]
        exact ⟨spot, List.subset_append_of_subset_right _
          (List.Subset.trans hspot (List.Subset.trans haround hbody))⟩

theorem exists_ofSubcommand_subset {inner : Command} {commands : List Command}
    (hinner : inner ∈ Command.listSubcommands commands) (list : Place) (index : Nat) :
    ∃ place, ofCommand project place inner ⊆ ofCommands project list index commands := by
  obtain ⟨command, hcommand, hinner⟩ := Command.mem_listSubcommands.mp hinner
  obtain ⟨around, haround⟩ := exists_ofCommand_subset project hcommand list index
  obtain ⟨spot, hspot⟩ := exists_ofInner_subset project command inner hinner around
  exact ⟨spot, List.Subset.trans hspot haround⟩

end SceneScript.Review
