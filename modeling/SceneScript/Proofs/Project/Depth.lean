import SceneScript.Proofs.Project.Codec

/-! # How deep projects nest

A level of branches takes four brackets where it is written. Where it is read, the innermost branch
may leave out its list of commands and take three, so that one more level can be read than written.
-/

namespace SceneScript

open Reader

/-! ## Levels -/

mutual

/-- How many branches stand around the innermost command or body. -/
def Command.levels : Command → Nat
  | ⟨_, .branching _ branches⟩ => Branch.listLevels branches
  | _ => 0
termination_by structural command => command

def Branch.listLevels : List (Branch Command) → Nat
  | [] => 0
  | ⟨_, body⟩ :: rest => max (Command.listLevels body + 1) (Branch.listLevels rest)
termination_by structural branches => branches

def Command.listLevels : List Command → Nat
  | [] => 0
  | command :: rest => max command.levels (Command.listLevels rest)
termination_by structural commands => commands

end

def Project.levels (project : Project) : Nat :=
  max (Command.listLevels (project.scenes.flatMap Scene.commands))
    (Command.listLevels (project.sharedCommands.flatMap CommandGroup.commands))

theorem Command.listLevels_le_iff {commands : List Command} {k : Nat} :
    listLevels commands ≤ k ↔ ∀ command ∈ commands, command.levels ≤ k := by
  induction commands with
  | nil => simp [listLevels]
  | cons command rest ih => simp [listLevels, Nat.max_le, ih]

theorem Branch.listLevels_le_iff {branches : List (Branch Command)} {k : Nat} :
    listLevels branches ≤ k ↔ ∀ branch ∈ branches, Command.listLevels branch.body < k := by
  induction branches with
  | nil => simp [listLevels]
  | cons branch rest ih => simp [listLevels, Nat.max_le, Nat.succ_le_iff, ih]

theorem Command.levels_eq (command : Command) :
    command.levels = Branch.listLevels command.branches := by
  obtain ⟨id, action⟩ := command
  cases action <;> rfl

theorem Project.levels_le_iff {project : Project} {k : Nat} :
    project.levels ≤ k ↔
      (∀ scene ∈ project.scenes, Command.listLevels scene.commands ≤ k) ∧
        ∀ group ∈ project.sharedCommands, Command.listLevels group.commands ≤ k := by
  simp only [levels, Nat.max_le, Command.listLevels_le_iff, List.mem_flatMap]
  constructor
  · rintro ⟨hscenes, hgroups⟩
    exact ⟨fun scene hscene command hmem => hscenes command ⟨scene, hscene, hmem⟩,
      fun group hgroup command hmem => hgroups command ⟨group, hgroup, hmem⟩⟩
  · rintro ⟨hscenes, hgroups⟩
    exact ⟨fun command ⟨scene, hscene, hmem⟩ => hscenes scene hscene command hmem,
      fun command ⟨group, hgroup, hmem⟩ => hgroups group hgroup command hmem⟩

/-! ## What is written -/

theorem Choice.depth_toJson (choice : Choice) : choice.toJson.depth = 1 := by
  simp [toJson]

/-- Only the branches of a command nest without a bound. -/
theorem Command.depth_fields_le_iff {command : Command} {k : Nat} :
    Json.membersDepth command.action.fields ≤ k + 2 ↔
      ∀ branch ∈ command.branches, branch.toJson.depth ≤ k + 1 := by
  obtain ⟨id, action⟩ := command
  cases action with
  | branching label inner =>
      simp [branches, Action.fields, Branch.listToJson_eq_map, Json.itemsDepth_le_iff]
  | dialogue speaker text choices =>
      have hchoices : Json.itemsDepth (choices.map Choice.toJson) ≤ 1 := by
        simp [Json.itemsDepth_le_iff, Choice.depth_toJson]
      simp [branches, Action.fields, hchoices.trans (Nat.le_add_left 1 k)]
  | showCharacter fadeMs animation =>
      cases animation <;> simp [branches, Action.fields, FrameAnimation.depth_toJson]
  | _ => simp [branches, Action.fields, TrackStart.fields, TrackFade.fields, SoundEffect.fields]

theorem Branch.depth_toJson_le_iff {branch : Branch Command} {k : Nat} :
    branch.toJson.depth ≤ k + 2 ↔ ∀ command ∈ branch.body, command.toJson.depth ≤ k := by
  simp [depth_toJson, Json.itemsDepth_le_iff]

theorem Command.depth_toJson_le_iff (command : Command) (k : Nat) :
    command.toJson.depth ≤ 4 * k + 3 ↔ command.levels ≤ k := by
  induction command using Command.induction generalizing k with
  | nest command ih =>
      rw [depth_toJson, Nat.add_le_add_iff_right, depth_fields_le_iff, levels_eq,
        Branch.listLevels_le_iff]
      refine forall₂_congr fun branch hbranch => ?_
      cases k with
      | zero =>
          -- The list in a branch is written even if it is empty.
          have hdepth : 2 ≤ branch.toJson.depth := by simp [Branch.depth_toJson]
          exact iff_of_false (by omega) (Nat.not_lt_zero _)
      | succ k =>
          rw [show 4 * (k + 1) + 1 = 4 * k + 3 + 2 by omega, Branch.depth_toJson_le_iff,
            Nat.lt_succ_iff, listLevels_le_iff]
          exact forall₂_congr fun inner hinner => ih branch hbranch inner hinner k

theorem Scene.depth_toJson_le_iff (scene : Scene) (k : Nat) :
    scene.toJson.depth ≤ 4 * k + 5 ↔ Command.listLevels scene.commands ≤ k := by
  have hdepth : scene.toJson.depth = Json.itemsDepth (scene.commands.map Command.toJson) + 2 := by
    simp [toJson, Command.listToJson_eq_map, Json.membersDepth_append,
      Json.membersDepth_optionalMember]
  simp [hdepth, Json.itemsDepth_le_iff, Command.listLevels_le_iff, Command.depth_toJson_le_iff]

theorem CommandGroup.depth_toJson_le_iff (group : CommandGroup) (k : Nat) :
    group.toJson.depth ≤ 4 * k + 5 ↔ Command.listLevels group.commands ≤ k := by
  have hdepth : group.toJson.depth = Json.itemsDepth (group.commands.map Command.toJson) + 2 := by
    simp [toJson, Command.listToJson_eq_map]
  simp [hdepth, Json.itemsDepth_le_iff, Command.listLevels_le_iff, Command.depth_toJson_le_iff]

theorem Project.depth_toJson_le_iff (project : Project) (k : Nat) :
    project.toJson.depth ≤ 4 * k + 7 ↔ project.levels ≤ k := by
  have hflag : ∀ flag : Flag, flag.toJson.depth = 1 := fun flag => by simp [Flag.toJson]
  have hvariable : ∀ entry : Variable, entry.toJson.depth = 1 := fun entry => by
    simp [Variable.toJson]
  have hasset : ∀ entry : AssetEntry, entry.toJson.depth = 1 := fun entry => by
    simp [AssetEntry.toJson]
  have hsettings : project.settings.toJson.depth = 1 := by
    simp [Settings.toJson, Json.membersDepth_append, Json.membersDepth_optionalMember]
  have harray : ∀ items : List Json, (Json.arr items).depth ≤ 4 * k + 6 ↔
      ∀ item ∈ items, item.depth ≤ 4 * k + 5 := fun items => by
    rw [Json.depth, Nat.succ_le_succ_iff, Json.itemsDepth_le_iff]
  rw [toJson, Json.depth, Nat.succ_le_succ_iff, Json.membersDepth_le_iff, levels_le_iff]
  simp only [List.forall_mem_cons, List.forall_mem_map, harray, hflag, hvariable, hasset,
    hsettings, Scene.depth_toJson_le_iff, CommandGroup.depth_toJson_le_iff]
  simp

/-! ## What is read -/

section

variable {α : Type} {read : Reader α} {values : List α}

theorem Record.allowance_of? {names : List String} {n : Nat} {tree : Json} {record : Record}
    (h : of? names n tree = some record) : n = record.allowance + 1 := by
  unfold of? at h
  split at h
  · split at h
    · cases h
      rfl
    · cases h
  · split at h
    · cases h
      rfl
    · cases h
  · cases h

/-- A member that may be absent has its default or was read from a tree. -/
theorem Record.of_withDefault {record : Record} {name : String} {value default : α}
    (h : record.withDefault name read default = some value) :
    value = default ∨ ∃ tree, read record.allowance tree = some value := by
  unfold withDefault at h
  split at h
  · next tree _ => exact .inr ⟨tree, h⟩
  · exact .inl (Option.some.inj h).symm

theorem Reader.exists_of_mem_mapM {f : Json → Option α} {items : List Json}
    (h : items.mapM f = some values) : ∀ value ∈ values, ∃ item, f item = some value := by
  induction items generalizing values with
  | nil =>
      cases h
      simp
  | cons item rest ih =>
      simp only [List.mapM_cons, Option.bind_eq_bind, Option.bind_eq_some_iff, Option.pure_def,
        Option.some.injEq] at h
      obtain ⟨first, hfirst, others, hothers, rfl⟩ := h
      intro value hvalue
      rcases List.mem_cons.mp hvalue with rfl | hvalue
      · exact ⟨item, hfirst⟩
      · exact ih hothers value hvalue

theorem Reader.exists_of_mem_list {n : Nat} {tree : Json} (h : list read n tree = some values) :
    ∀ value ∈ values, ∃ m item, n = m + 1 ∧ read m item = some value := by
  unfold list at h
  split at h
  · next m items =>
      intro value hvalue
      obtain ⟨item, hitem⟩ := exists_of_mem_mapM h value hvalue
      exact ⟨m, item, rfl, hitem⟩
  · cases h

theorem Record.exists_of_mem_withDefault {record : Record} {name : String}
    (h : record.withDefault name (list read) [] = some values) :
    ∀ value ∈ values, ∃ m item, record.allowance = m + 1 ∧ read m item = some value := by
  obtain rfl | ⟨tree, hlist⟩ := of_withDefault h
  · simp
  · exact exists_of_mem_list hlist

end

theorem Branch.of_readInCommand {n : Nat} {tree : Json} {branch : Branch Command}
    (h : readInCommand n tree = some branch) :
    ∃ m, n = m + 1 ∧
      ∀ inner ∈ branch.body, ∃ k item, m = k + 1 ∧ Command.read k item = some inner := by
  unfold readInCommand at h
  split at h
  case h_2 => cases h
  case h_1 m =>
  obtain ⟨record, hrecord, hbranch⟩ := Option.bind_eq_some_iff.mp h
  simp only [ofRecord, Option.bind_eq_bind, Option.bind_eq_some_iff, Option.pure_def,
    Option.some.injEq] at hbranch
  obtain ⟨condition, -, body, hbody, rfl⟩ := hbranch
  refine ⟨m, rfl, ?_⟩
  obtain rfl | ⟨list, hlist⟩ := Record.of_withDefault hbody
  · simp
  · rw [Command.readList_eq_list] at hlist
    exact exists_of_mem_list hlist

theorem Action.of_ofRecord {branches : Json → Option (List (Branch Command))} {type : String}
    {record : Record} {label : String} {inner : List (Branch Command)}
    (h : ofRecord branches type record = some (.branching label inner)) :
    inner = [] ∨ ∃ tree, branches tree = some inner := by
  unfold ofRecord at h
  split at h
  case h_2 =>
    simp only [Option.bind_eq_bind, Option.bind_eq_some_iff, Option.pure_def,
      Option.some.injEq] at h
    obtain ⟨_, -, _, hinner, hsame⟩ := h
    cases hsame
    exact Record.of_withDefault hinner
  -- No other type makes a branching.
  all_goals simp [Option.bind_eq_some_iff] at h

theorem Command.of_ofMembers {branches : Json → Option (List (Branch Command))} {n : Nat}
    {members : List (String × Json)} {command : Command}
    (h : ofMembers branches n members = some command) :
    ∃ type record, Action.ofRecord branches type record = some command.action := by
  simp [ofMembers, Option.bind_eq_some_iff] at h
  obtain ⟨head, _, -, type, _, record, _, id, _, action, haction, rfl⟩ := h
  exact ⟨type, record, haction⟩

/-- Three brackets open between a command and a branch of it, and a fourth one before the commands
in the branch. -/
theorem Command.of_read {n : Nat} {tree : Json} {command : Command}
    (h : read n tree = some command) {branch : Branch Command}
    (hbranch : branch ∈ command.branches) :
    ∃ m, n = m + 3 ∧ ∀ inner ∈ branch.body, ∃ k item, m = k + 1 ∧ read k item = some inner := by
  obtain ⟨label, branches, haction, hmem⟩ := mem_branches hbranch
  unfold read at h
  split at h
  case h_2 => cases h
  case h_1 n members =>
  obtain ⟨type, record, hread⟩ := of_ofMembers h
  rw [haction] at hread
  obtain rfl | ⟨list, hlist⟩ := Action.of_ofRecord hread
  · cases hmem
  · rw [Branch.readList_eq_list] at hlist
    obtain ⟨k, item, rfl, hitem⟩ := exists_of_mem_list hlist branch hmem
    obtain ⟨m, rfl, hbody⟩ := Branch.of_readInCommand hitem
    exact ⟨m, rfl, hbody⟩

/-- The innermost branch may leave out its list and save the fourth bracket. -/
theorem Command.levels_of_read {n : Nat} {tree : Json} {command : Command}
    (h : read n tree = some command) : 4 * command.levels ≤ n + 1 := by
  induction command using Command.induction generalizing n tree with
  | nest command ih =>
      suffices hlevels : command.levels ≤ (n + 1) / 4 by omega
      rw [levels_eq, Branch.listLevels_le_iff]
      intro branch hbranch
      obtain ⟨m, rfl, hbody⟩ := of_read h hbranch
      suffices hinner : listLevels branch.body ≤ m / 4 by omega
      rw [listLevels_le_iff]
      intro inner hmem
      obtain ⟨k, item, rfl, hitem⟩ := hbody inner hmem
      have hlevels := ih branch hbranch inner hmem hitem
      omega

/-- The list of a scene or of a group is absent, or it is read with the allowance of the record. -/
theorem Command.listLevels_of_withDefault {record : Record} {name : String}
    {commands : List Command} (h : record.withDefault name (list read) [] = some commands) :
    4 * listLevels commands ≤ record.allowance := by
  suffices hlevels : listLevels commands ≤ record.allowance / 4 by omega
  rw [listLevels_le_iff]
  intro command hmem
  obtain ⟨m, item, hm, hitem⟩ := Record.exists_of_mem_withDefault h command hmem
  have hlevels := levels_of_read hitem
  omega

theorem Scene.levels_of_read {n : Nat} {tree : Json} {scene : Scene}
    (h : read n tree = some scene) : 4 * Command.listLevels scene.commands + 1 ≤ n := by
  simp only [read, Option.bind_eq_bind, Option.bind_eq_some_iff, Option.pure_def,
    Option.some.injEq] at h
  obtain ⟨record, hrecord, _, -, _, -, _, -, _, -, _, -, _, -, commands, hcommands, rfl⟩ := h
  have hlevels := Command.listLevels_of_withDefault hcommands
  rw [Record.allowance_of? hrecord]
  exact Nat.succ_le_succ hlevels

theorem CommandGroup.levels_of_read {n : Nat} {tree : Json} {group : CommandGroup}
    (h : read n tree = some group) : 4 * Command.listLevels group.commands + 1 ≤ n := by
  simp only [read, Option.bind_eq_bind, Option.bind_eq_some_iff, Option.pure_def,
    Option.some.injEq] at h
  obtain ⟨record, hrecord, _, -, _, -, commands, hcommands, rfl⟩ := h
  have hlevels := Command.listLevels_of_withDefault hcommands
  rw [Record.allowance_of? hrecord]
  exact Nat.succ_le_succ hlevels

theorem Project.levels_of_read {n : Nat} {tree : Json} {project : Project}
    (h : read n tree = some project) : project.levels ≤ (n - 3) / 4 := by
  simp only [read, Option.bind_eq_bind, Option.bind_eq_some_iff, Option.pure_def,
    Option.some.injEq] at h
  obtain ⟨record, hrecord, _, -, _, -, _, -, _, -, scenes, hscenes, groups, hgroups, h⟩ := h
  obtain ⟨_, -, _, -, _, -, rfl⟩ := h
  have hn := Record.allowance_of? hrecord
  rw [levels_le_iff]
  constructor
  · intro scene hscene
    obtain ⟨m, item, hm, hitem⟩ := Record.exists_of_mem_withDefault hscenes scene hscene
    have hlevels := Scene.levels_of_read hitem
    omega
  · intro group hgroup
    obtain ⟨m, item, hm, hitem⟩ := Record.exists_of_mem_withDefault hgroups group hgroup
    have hlevels := CommandGroup.levels_of_read hitem
    omega

end SceneScript
