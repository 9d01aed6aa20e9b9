import SceneScript.Proofs.Lint.Nesting
import SceneScript.Proofs.Run.Execution

/-! # What a review without errors tells

Every command that a review passes, at any depth, refers only to what the project has, and no call
of a group leads back to it.
-/

namespace SceneScript

/-! ## Sound projects -/

/-- What an answer refers to exists. -/
structure Choice.Sound (project : Project) (choice : Choice) : Prop where
  target : choice.enableGoto = true → ∃ scene, project.scene? choice.goto = some scene
  flag : ∀ name value, choice.flagEffect = some (name, value) → (project.findFlag? name).isSome

/-- What a command refers to exists, and its branches are in order. -/
def Action.Sound (project : Project) : Action Command → Prop
  | .dialogue _ _ choices => ∀ choice ∈ choices, choice.Sound project
  | .branching _ branches =>
      Condition.checkStructure (branches.map (·.condition)) = .ok () ∧
        ∀ branch ∈ branches, ∃ holds,
          branch.condition.evaluate (m := Id) project.declared = .ok holds
  | .setFlag name _ => (project.findFlag? name).isSome
  | .setVariable name _ _ => (project.findVariable? name).isSome
  | .call id => ∃ group, project.findGroup? id = some group
  | .goto target _ => ∃ scene, project.scene? target = some scene
  | _ => True

/-- All commands of a list, at any depth, are sound. -/
def Command.AllSound (project : Project) (commands : List Command) : Prop :=
  ∀ command ∈ listSubcommands commands, command.action.Sound project

structure Project.Sound (project : Project) : Prop where
  scenes : ∀ scene ∈ project.scenes, Command.AllSound project scene.commands
  groups : ∀ group ∈ project.sharedCommands, Command.AllSound project group.commands
  acyclic : ∀ group ∈ project.sharedCommands, ∀ id chain,
    project.checkGroup group.id ≠ .error (.cyclicGroup id chain)

namespace Review

variable {project : Project} {place : Place}

/-! ## Findings without errors -/

/-- None of the findings is an error. -/
def Clean (findings : List Finding) : Prop := ∀ finding ∈ findings, finding.severity ≠ .error

@[simp] theorem clean_nil : Clean [] := nofun

@[simp] theorem clean_append {findings more : List Finding} :
    Clean (findings ++ more) ↔ Clean findings ∧ Clean more :=
  List.forall_mem_append

@[simp] theorem clean_cons {finding : Finding} {rest : List Finding} :
    Clean (finding :: rest) ↔ finding.severity ≠ .error ∧ Clean rest :=
  List.forall_mem_cons

theorem clean_flatten {lists : List (List Finding)} :
    Clean lists.flatten ↔ ∀ findings ∈ lists, Clean findings := by
  unfold Clean
  simp only [List.mem_flatten]
  constructor
  · intro h findings hmem finding hfinding
    exact h finding ⟨findings, hmem, hfinding⟩
  · rintro h finding ⟨findings, hmem, hfinding⟩
    exact h findings hmem finding hfinding

/-- A fault is an error wherever it is found. -/
@[simp] theorem severity_fault {fault : Fault} :
    (Finding.mk place (.fault fault)).severity = .error := rfl

@[simp] theorem severity_target {departure : Departure} {fault : Fault} :
    (Finding.mk place (.target departure fault)).severity = .error := rfl

theorem clean_ofCheck {α : Type} {result : Except Fault α} :
    Clean (ofCheck place result) ↔ ∃ value, result = .ok value := by
  cases result with
  | ok value => simp [ofCheck]
  | error fault => simp [ofCheck]

theorem clean_ofTarget {departure : Departure} {target : Index} :
    Clean (ofTarget project place departure target) ↔
      ∃ scene, project.scene? target = some scene := by
  unfold ofTarget Project.sceneAt
  cases project.scene? target <;> simp

theorem clean_ofFlag {name : String} :
    Clean (ofFlag project place name) ↔ (project.findFlag? name).isSome := by
  unfold ofFlag
  cases project.findFlag? name <;> simp

theorem clean_ofVariable {name : String} :
    Clean (ofVariable project place name) ↔ (project.findVariable? name).isSome := by
  unfold ofVariable
  cases project.findVariable? name <;> simp

/-! ## Commands -/

theorem sound_of_clean_ofChoice {choice : Choice} {index : Nat}
    (h : Clean (ofChoice project place choice index)) : choice.Sound project := by
  unfold ofChoice at h
  obtain ⟨htarget, hflag⟩ := clean_append.mp h
  constructor
  · intro hgoto
    rw [if_pos hgoto] at htarget
    exact clean_ofTarget.mp htarget
  · intro name value heffect
    rw [heffect] at hflag
    exact clean_ofFlag.mp hflag

theorem sound_of_clean_choices {choices : List Choice}
    (h : Clean (choices.zipIdx.map fun (choice, index) =>
      ofChoice project place choice index).flatten) :
    ∀ choice ∈ choices, choice.Sound project := by
  intro choice hchoice
  obtain ⟨index, hindex⟩ := List.mem_iff_getElem?.mp hchoice
  have hmem : (choice, index) ∈ choices.zipIdx := List.mk_mem_zipIdx_iff_getElem?.mpr hindex
  exact sound_of_clean_ofChoice (clean_flatten.mp h _ (List.mem_map.mpr ⟨_, hmem, rfl⟩))

theorem clean_ofBranches {index : Nat} {branches : List (Branch Command)}
    (h : Clean (ofBranches project place index branches)) :
    ∀ branch ∈ branches, ∃ holds,
      branch.condition.evaluate (m := Id) project.declared = .ok holds := by
  induction branches generalizing index with
  | nil => exact List.forall_mem_nil _
  | cons branch rest ih =>
      obtain ⟨condition, body⟩ := branch
      rw [ofBranches, clean_append, clean_append] at h
      obtain ⟨⟨hcondition, -⟩, hrest⟩ := h
      exact List.forall_mem_cons.mpr ⟨clean_ofCheck.mp hcondition, ih hrest⟩

theorem sound_of_clean_ofCommand {command : Command}
    (h : Clean (ofCommand project place command)) : command.action.Sound project := by
  obtain ⟨id, action⟩ := command
  cases action with
  | dialogue speaker text choices => exact sound_of_clean_choices h
  | branching label branches =>
      rw [ofCommand, clean_append] at h
      obtain ⟨hstructure, hbranches⟩ := h
      obtain ⟨value, hordered⟩ := clean_ofCheck.mp hstructure
      exact ⟨hordered, clean_ofBranches hbranches⟩
  | setFlag name value => exact clean_ofFlag.mp h
  | setVariable name operation operand => exact clean_ofVariable.mp h
  | call id =>
      obtain ⟨group, hgroup⟩ := clean_ofCheck.mp h
      exact ⟨group, Project.groupAt_eq_ok.mp hgroup⟩
  | goto target withTransition => exact clean_ofTarget.mp h
  | _ => trivial

theorem allSound_of_clean_ofCommands {index : Nat} {commands : List Command}
    (h : Clean (ofCommands project place index commands)) :
    Command.AllSound project commands := by
  intro inner hinner
  obtain ⟨spot, hsubset⟩ := exists_ofSubcommand_subset project hinner place index
  exact sound_of_clean_ofCommand fun finding hfinding => h finding (hsubset hfinding)

/-! ## Cycles -/

/-- While no cycle has been reported, none is left out. -/
theorem acyclic_of_clean_ofCycles {groups : List CommandGroup}
    (h : Clean (ofCycles project [] groups)) :
    ∀ group ∈ groups, ∀ id chain, project.checkGroup group.id ≠ .error (.cyclicGroup id chain) := by
  induction groups with
  | nil => exact List.forall_mem_nil _
  | cons group rest ih =>
      rw [ofCycles] at h
      split at h
      · rw [List.any_nil, if_neg Bool.false_ne_true, clean_cons] at h
        exact absurd rfl h.1
      · next hcheck => exact List.forall_mem_cons.mpr ⟨hcheck, ih h⟩

end Review

/-! ## Projects -/

/-- A review without errors is a proof of soundness. -/
theorem Project.sound_of_review {project : Project}
    (h : ∀ finding ∈ project.review, finding.severity ≠ .error) : project.Sound := by
  have hclean : Review.Clean project.review := h
  unfold Project.review at hclean
  simp only [Review.clean_append, Review.clean_flatten] at hclean
  obtain ⟨⟨⟨-, hscenes⟩, hgroups⟩, hcycles⟩ := hclean
  constructor
  · intro scene hscene
    obtain ⟨index, hindex⟩ := List.mem_iff_getElem?.mp hscene
    have hfindings := hscenes _ (List.mem_map.mpr
      ⟨(scene, index), List.mk_mem_zipIdx_iff_getElem?.mpr hindex, rfl⟩)
    unfold Review.ofScene at hfindings
    exact Review.allSound_of_clean_ofCommands (Review.clean_append.mp hfindings).2
  · intro group hgroup
    exact Review.allSound_of_clean_ofCommands (hgroups _ (List.mem_map_of_mem hgroup))
  · exact Review.acyclic_of_clean_ofCycles hcycles

end SceneScript
