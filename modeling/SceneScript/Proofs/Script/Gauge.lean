import Mathlib.Algebra.BigOperators.Group.List.Basic
import Mathlib.Algebra.GroupWithZero.Nat
import SceneScript.Proofs.Index
import SceneScript.Proofs.Script.CallGraph

/-! # Measuring scripts

A gauge measures a script by a number: a command that leads into a list counts more than this list,
and of several branches only the greatest counts. How deep a script nests is such a measure, and so
is how many steps a run through it can take.
-/

namespace SceneScript

/-- What single commands count, and how they count together. -/
structure Gauge where
  /-- A command that leads into no list. -/
  plain : Nat
  /-- What a command counts more than the list that it leads into. -/
  nest : Nat
  /-- A command together with those behind it. -/
  join : Nat → Nat → Nat
  left_le : ∀ first rest, first ≤ join first rest
  right_le : ∀ first rest, rest ≤ join first rest

/-- How many lists can stand inside each other. -/
def Gauge.nesting : Gauge where
  plain := 0
  nest := 1
  join := max
  left_le := Nat.le_max_left
  right_le := Nat.le_max_right

/-- How many steps commands can take: one for a command, another one to leave the list that it leads
into, and those in that list. -/
def Gauge.weight : Gauge where
  plain := 1
  nest := 2
  join := (· + ·)
  left_le := Nat.le_add_right
  right_le first rest := Nat.le_add_left rest first

mutual

/-- What a command counts where each group counts this much. -/
def Gauge.command (gauge : Gauge) (group : String → Nat) : Command → Nat
  | ⟨_, .branching _ branches⟩ => gauge.nest + gauge.branches group branches
  | ⟨_, .call id⟩ => gauge.nest + group id
  | _ => gauge.plain
termination_by structural command => command

/-- The greatest of the bodies, as at most one of them is run. -/
def Gauge.branches (gauge : Gauge) (group : String → Nat) : List (Branch Command) → Nat
  | [] => 0
  | ⟨_, body⟩ :: rest => max (gauge.commands group body) (gauge.branches group rest)
termination_by structural branches => branches

def Gauge.commands (gauge : Gauge) (group : String → Nat) : List Command → Nat
  | [] => 0
  | command :: rest => gauge.join (gauge.command group command) (gauge.commands group rest)
termination_by structural commands => commands

end

namespace Gauge

variable {gauge : Gauge} {group other : String → Nat} {command : Command} {commands : List Command}

theorem commands_eq_foldr (commands : List Command) :
    gauge.commands group commands = (commands.map (gauge.command group)).foldr gauge.join 0 := by
  induction commands with
  | nil => rfl
  | cons command rest ih => rw [Gauge.commands, ih, List.map_cons, List.foldr_cons]

theorem branches_eq_foldr (branches : List (Branch Command)) :
    gauge.branches group branches =
      (branches.map fun branch => gauge.commands group branch.body).foldr max 0 := by
  induction branches with
  | nil => rfl
  | cons branch rest ih => rw [Gauge.branches, ih, List.map_cons, List.foldr_cons]

theorem command_branching {label : String} {branches : List (Branch Command)}
    (haction : command.action = .branching label branches) :
    gauge.command group command = gauge.nest + gauge.branches group branches := by
  obtain ⟨name, action⟩ := command
  cases haction
  rfl

theorem command_call {id : String} (haction : command.action = .call id) :
    gauge.command group command = gauge.nest + group id := by
  obtain ⟨name, action⟩ := command
  cases haction
  rfl

/-! ## Parts of a script -/

theorem le_foldr {join : Nat → Nat → Nat} (left_le : ∀ first rest, first ≤ join first rest)
    (right_le : ∀ first rest, rest ≤ join first rest) {counts : List Nat} {count : Nat}
    (h : count ∈ counts) : count ≤ counts.foldr join 0 := by
  induction counts with
  | nil => cases h
  | cons first rest ih =>
      rw [List.foldr_cons]
      rcases List.mem_cons.mp h with rfl | hrest
      · exact left_le _ _
      · exact Nat.le_trans (ih hrest) (right_le _ _)

theorem command_le (h : command ∈ commands) :
    gauge.command group command ≤ gauge.commands group commands := by
  rw [commands_eq_foldr]
  exact le_foldr gauge.left_le gauge.right_le (List.mem_map_of_mem h)

theorem body_le {label : String} {branches : List (Branch Command)} {branch : Branch Command}
    (haction : command.action = .branching label branches) (h : branch ∈ branches) :
    gauge.nest + gauge.commands group branch.body ≤ gauge.command group command := by
  rw [command_branching haction, branches_eq_foldr]
  have hbody : gauge.commands group branch.body ∈
      branches.map fun branch => gauge.commands group branch.body := List.mem_map_of_mem h
  exact Nat.add_le_add_left (le_foldr Nat.le_max_left Nat.le_max_right hbody) gauge.nest

/-! ## What groups count -/

/-- Only what the called groups count matters. -/
theorem command_congr (h : ∀ inner ∈ command.subcommands, ∀ id, inner.action = .call id →
    group id = other id) : gauge.command group command = gauge.command other command := by
  induction command using Command.induction with
  | nest command ih =>
      obtain ⟨name, action⟩ := command
      cases action with
      | call id =>
          have hid : group id = other id := h _ (Command.mem_subcommands_self _) id rfl
          rw [command_call rfl, command_call rfl, hid]
      | branching label branches =>
          rw [command_branching rfl, command_branching rfl, branches_eq_foldr, branches_eq_foldr]
          refine congrArg (fun bodies => gauge.nest + bodies.foldr max 0)
            (List.map_congr_left fun branch hbranch => ?_)
          rw [commands_eq_foldr, commands_eq_foldr]
          refine congrArg (List.foldr gauge.join 0) (List.map_congr_left fun inner hinner => ?_)
          refine ih branch hbranch inner hinner fun deep hdeep => h deep ?_
          exact Command.mem_subcommands_of_body hbranch
            (Command.mem_listSubcommands.mpr ⟨inner, hinner, hdeep⟩)
      | _ => rfl

theorem commands_congr (h : ∀ id ∈ Command.listCalls commands, group id = other id) :
    gauge.commands group commands = gauge.commands other commands := by
  rw [commands_eq_foldr, commands_eq_foldr]
  refine congrArg (List.foldr gauge.join 0) (List.map_congr_left fun command hcommand => ?_)
  refine command_congr fun inner hinner id haction => h id ?_
  exact Command.mem_listCalls.mpr
    ⟨inner, Command.mem_listSubcommands.mpr ⟨command, hcommand, hinner⟩, haction⟩

end Gauge

/-! ## Scripts of a project -/

namespace Project

/-- What a group counts behind the calls of `chain`. A group that there is not counts nothing, and
neither does one that the calls have come from. -/
def gaugeGroup (project : Project) (gauge : Gauge) (chain : List String) (id : String) : Nat :=
  if _hchain : chain.contains id then 0
  else
    match _hfound : project.findGroup? id with
    | none => 0
    | some group =>
      gauge.commands (fun callee => project.gaugeGroup gauge (chain ++ [id]) callee) group.commands
termination_by (project.offChain chain).length
decreasing_by exact offChain_append_lt _hfound (by simpa using _hchain)

/-- How deep the lists inside these commands stand, those of called groups included. -/
def nestedDepth (project : Project) (commands : List Command) : Nat :=
  Gauge.nesting.commands (project.gaugeGroup .nesting []) commands

/-- How many steps a run through these commands can take, those of called groups included. -/
def weight (project : Project) (commands : List Command) : Nat :=
  Gauge.weight.commands (project.gaugeGroup .weight []) commands

variable {project : Project} {gauge : Gauge} {chain other : List String} {id : String}
  {group : CommandGroup}

theorem gaugeGroup_of_findGroup? (hchain : id ∉ chain)
    (hgroup : project.findGroup? id = some group) :
    project.gaugeGroup gauge chain id =
      gauge.commands (project.gaugeGroup gauge (chain ++ [id])) group.commands := by
  rw [gaugeGroup, dif_neg (by simpa using hchain)]
  split
  · next hnone =>
      rw [hgroup] at hnone
      cases hnone
  · next found hfound =>
      rw [hgroup] at hfound
      cases hfound
      rfl

theorem gaugeGroup_of_none (hgroup : project.findGroup? id = none) :
    project.gaugeGroup gauge chain id = 0 := by
  rw [gaugeGroup]
  split
  · rfl
  · split
    · rfl
    · next found hfound =>
        rw [hgroup] at hfound
        cases hfound

/-- No calls lead in a circle. -/
def Acyclic (project : Project) : Prop := ∀ id, ¬ Relation.TransGen project.Calls id id

namespace Acyclic

/-- The calls that have led to a group leave no trace, as long as it does not lead back to them. -/
theorem gaugeGroup_congr (h : project.Acyclic)
    (hchain : ∀ caller ∈ chain, ¬ Relation.ReflTransGen project.Calls id caller)
    (hother : ∀ caller ∈ other, ¬ Relation.ReflTransGen project.Calls id caller) :
    project.gaugeGroup gauge chain id = project.gaugeGroup gauge other id := by
  fun_induction project.gaugeGroup gauge chain id generalizing other with
  | case1 chain id hmem => exact absurd .refl (hchain id (by simpa using hmem))
  | case2 chain id _ hnone => rw [gaugeGroup_of_none hnone]
  | case3 chain id _ group hgroup ih =>
      have hapart : id ∉ other := fun hmem => hother id hmem .refl
      rw [gaugeGroup_of_findGroup? hapart hgroup]
      refine Gauge.commands_congr fun callee hcallee => ?_
      have hcall : project.Calls id callee := ⟨group, hgroup, hcallee⟩
      exact ih callee (not_reaches_of_calls (h id) hcall hchain)
        (not_reaches_of_calls (h id) hcall hother)

/-- A group counts what its commands count. -/
theorem gaugeGroup_nil (h : project.Acyclic) (hgroup : project.findGroup? id = some group) :
    project.gaugeGroup gauge [] id =
      gauge.commands (project.gaugeGroup gauge []) group.commands := by
  rw [gaugeGroup_of_findGroup? List.not_mem_nil hgroup]
  refine Gauge.commands_congr fun callee hcallee => ?_
  have hcall : project.Calls id callee := ⟨group, hgroup, hcallee⟩
  exact h.gaugeGroup_congr (not_reaches_of_calls (h id) hcall (by simp)) (by simp)

end Acyclic

/-! ## Weights -/

section Weights

variable {command : Command} {commands rest : List Command}

def commandWeight (project : Project) (command : Command) : Nat :=
  Gauge.weight.command (project.gaugeGroup .weight []) command

theorem weight_cons :
    project.weight (command :: rest) = project.commandWeight command + project.weight rest := rfl

theorem weight_append :
    project.weight (commands ++ rest) = project.weight commands + project.weight rest := by
  induction commands with
  | nil => exact (Nat.zero_add _).symm
  | cons command commands ih => rw [List.cons_append, weight_cons, weight_cons, ih, Nat.add_assoc]

theorem weight_drop_le (place : Nat) :
    project.weight (commands.drop place) ≤ project.weight commands := by
  have hsplit : project.weight (commands.take place) + project.weight (commands.drop place) =
      project.weight commands := by
    rw [← weight_append, List.take_append_drop]
  exact hsplit ▸ Nat.le_add_left _ _

/-- Every command takes a step. -/
theorem one_le_commandWeight (command : Command) : 1 ≤ project.commandWeight command := by
  obtain ⟨name, action⟩ := command
  cases action with
  | branching label branches | call id => exact Nat.le_add_right_of_le (by decide)
  | _ => exact Nat.le_refl 1

theorem length_le_weight (commands : List Command) : commands.length ≤ project.weight commands := by
  induction commands with
  | nil => exact Nat.zero_le _
  | cons command rest ih =>
      have hcommand := project.one_le_commandWeight command
      rw [List.length_cons, weight_cons]
      omega

/-- What the scenes weigh, one more than their commands. -/
def sceneWeights (project : Project) : List Nat :=
  project.scenes.map fun scene => project.weight scene.commands + 1

/-- The scenes from a later one on weigh no more. -/
theorem sum_drop_sceneWeights_le {place later : Nat} (h : place ≤ later) :
    (project.sceneWeights.drop later).sum ≤ (project.sceneWeights.drop place).sum := by
  obtain ⟨more, rfl⟩ := Nat.exists_eq_add_of_le h
  rw [← List.drop_drop, ← List.sum_take_add_sum_drop (project.sceneWeights.drop place) more]
  exact Nat.le_add_left _ _

/-- A scene weighs its commands and one more, and then come the scenes behind it. -/
theorem sum_drop_sceneWeights {index : Index} {scene : Scene}
    (h : project.scene? index = some scene) :
    (project.sceneWeights.drop index.toNat).sum =
      project.weight scene.commands + 1 + (project.sceneWeights.drop (index.toNat + 1)).sum := by
  obtain ⟨hlt, rfl⟩ := List.getElem?_eq_some_iff.mp (Index.getElem?_of_of? h)
  have hplace : index.toNat < project.sceneWeights.length := by simpa [sceneWeights] using hlt
  rw [List.drop_eq_getElem_cons hplace, List.sum_cons]
  simp [sceneWeights]

end Weights

end Project
end SceneScript
