import SceneScript.Proofs.Project.Depth

/-! # Projects survive their text

A project is written however deep it nests, and read back if its text nests no deeper than a text
may. What was loaded may still be one level too deep for its own text.
-/

namespace SceneScript

open Reader

namespace Project

theorem parse?_toText (project : Project) : Json.parse? project.toText = some project.toJson :=
  Json.parse?_pretty (recovers.plain project)

theorem ofTree_toJson (project : Project) :
    ofTree project.toJson =
      if project.toJson.depth ≤ nesting then project.checkResolution else .error .unreadable := by
  rw [ofTree, recovers.read]
  by_cases h : project.toJson.depth ≤ nesting
  · rw [within_of_le h, if_pos h]
  · rw [within, if_neg h, if_neg h]

theorem ofText_toText_eq (project : Project) :
    ofText project.toText =
      if project.toJson.depth ≤ nesting then project.checkResolution else .error .unreadable := by
  rw [ofText, parse?_toText]
  exact ofTree_toJson project

theorem checkResolution_eq_ok {project : Project}
    (h : project.resolution = (canvasWidth, canvasHeight)) :
    project.checkResolution = .ok project :=
  if_pos h

/-- A project for the one canvas comes back from its text as it was, or not at all. -/
theorem ofText_toText {project : Project} (h : project.resolution = (canvasWidth, canvasHeight)) :
    Json.parse? project.toText = some project.toJson ∧
      ofText project.toText =
        if project.toJson.depth ≤ 127 then .ok project else .error .unreadable := by
  refine ⟨parse?_toText project, ?_⟩
  rw [ofText_toText_eq, checkResolution_eq_ok h, nesting]

/-- A dialogue in a branch. -/
def crossroads : Project where
  title := "crossroads"
  scenes := [{
    id := "road"
    commands := [⟨"fork", .branching "which way?" [.onFlag .if "left" .eq true
      [.dialogue "turn" "" "To the left." []]]⟩] }]

theorem ofText_toText_crossroads :
    crossroads.resolution = (canvasWidth, canvasHeight) ∧ crossroads.toJson.depth ≤ 127 ∧
      ofText crossroads.toText = .ok crossroads := by
  have hresolution : crossroads.resolution = (canvasWidth, canvasHeight) := rfl
  have hdepth : crossroads.toJson.depth ≤ 127 := by decide
  exact ⟨hresolution, hdepth, (ofText_toText hresolution).2.trans (if_pos hdepth)⟩

/-! ## Loading what was loaded -/

theorem of_ofText {text : String} {project : Project} (h : ofText text = .ok project) :
    ∃ tree, Json.parse? text = some tree ∧ read nesting tree = some project ∧
      project.resolution = (canvasWidth, canvasHeight) := by
  unfold ofText at h
  split at h
  case h_2 => cases h
  case h_1 tree htree =>
  unfold ofTree at h
  split at h
  case h_2 => cases h
  case h_1 found hread =>
  unfold checkResolution at h
  split at h
  · next hresolution =>
      cases h
      exact ⟨tree, htree, hread, hresolution⟩
  · cases h

/-- What was loaded is loaded again from its own text, unless its branches fill all the levels that
a text can hold. -/
theorem ofText_toText_of_ofText {text : String} {project : Project}
    (h : ofText text = .ok project) :
    project.levels ≤ 31 ∧
      ofText project.toText = if project.levels ≤ 30 then .ok project else .error .unreadable := by
  obtain ⟨tree, -, hread, hresolution⟩ := of_ofText h
  refine ⟨levels_of_read hread, ?_⟩
  rw [ofText_toText_eq, checkResolution_eq_ok hresolution]
  exact if_congr (depth_toJson_le_iff project 30) rfl rfl

theorem ofText_toText_of_ofText_crossroads :
    ofText crossroads.toText = .ok crossroads ∧ crossroads.levels ≤ 31 ∧
      ofText crossroads.toText =
        if crossroads.levels ≤ 30 then .ok crossroads else .error .unreadable := by
  have hload : ofText crossroads.toText = .ok crossroads := by
    rw [ofText_toText_eq, if_pos (by decide)]
    rfl
  exact ⟨hload, ofText_toText_of_ofText hload⟩

end Project

/-! ## Stairs

Branches inside branches, the innermost without its list of commands. -/

namespace Stairs

def branch : Nat → Branch Command
  | 0 => .otherwise []
  | k + 1 => .otherwise [⟨"step", .branching "" [branch k]⟩]

def command (k : Nat) : Command := ⟨"step", .branching "" [branch k]⟩

def project (k : Nat) : Project := { scenes := [{ id := "stairs", commands := [command k] }] }

def commandTree (branchTree : Json) : Json :=
  .obj [("id", .str "step"), ("type", .str "branching"), ("conditions", .arr [branchTree])]

def branchTree : Nat → Json
  | 0 => .obj [("type", .str "else")]
  | k + 1 => .obj [("type", .str "else"), ("commands", .arr [commandTree (branchTree k)])]

def tree (k : Nat) : Json :=
  .obj [("scenes", .arr [.obj [("id", .str "stairs"),
    ("commands", .arr [commandTree (branchTree k)])]])]

theorem levels_command (k : Nat) : (command k).levels = k + 1 := by
  induction k with
  | zero => rfl
  | succ k ih =>
      have hlevels : (command (k + 1)).levels = max (max (command k).levels 0 + 1) 0 := rfl
      omega

theorem depth_branchTree (k : Nat) : (branchTree k).depth = 4 * k + 1 := by
  induction k with
  | zero => rfl
  | succ k ih => simp [branchTree, commandTree, ih]; omega

theorem plain_branchTree (k : Nat) : (branchTree k).Plain := by
  induction k with
  | zero => simp [branchTree]
  | succ k ih => simpa [branchTree, commandTree] using ih

theorem read_else (n : Nat) : namedIn true BranchKind.names n (.str "else") = some .else :=
  BranchKind.read_name true n .else

theorem read_commandTree {k : Nat}
    (h : Branch.readInCommand (4 * k + 1) (branchTree k) = some (branch k)) :
    Command.read (4 * k + 3) (commandTree (branchTree k)) = some (command k) := by
  have hlist : Branch.readList (4 * k + 2) (.arr [branchTree k]) = some [branch k] := by
    rw [Branch.readList, List.mapM_cons, h]
    rfl
  have hreadable := Json.isReadable_of_plain _ (plain_branchTree k)
  rw [commandTree, Command.read, Command.ofMembers, Record.of?_obj (by simp)]
  simp [Record.of?_obj, Record.required, Record.withDefault_eq, List.lookup_cons,
    Json.membersReadable, Json.itemsReadable, Json.isReadable, hreadable, depth_branchTree,
    Action.typeName, Action.types, Action.names, Action.ofRecord, hlist, command]

theorem read_branchTree (k : Nat) :
    Branch.readInCommand (4 * k + 1) (branchTree k) = some (branch k) := by
  induction k with
  | zero =>
      rw [Branch.readInCommand, branchTree, Record.of?_obj (by simp)]
      simp [Branch.ofRecord, Condition.ofRecord, Record.required, Record.withDefault_eq,
        List.lookup_cons, read_else, branch, Branch.otherwise]
  | succ k ih =>
      have hlist : Command.readList (4 * (k + 1)) (.arr [commandTree (branchTree k)])
          = some [command k] := by
        rw [show 4 * (k + 1) = 4 * k + 3 + 1 by omega, Command.readList, List.mapM_cons,
          read_commandTree ih]
        rfl
      rw [Branch.readInCommand, branchTree, Record.of?_obj (by simp)]
      simp [Branch.ofRecord, Condition.ofRecord, Record.required, Record.withDefault_eq,
        List.lookup_cons, read_else, hlist, branch, Branch.otherwise, command]

theorem read_tree (k : Nat) : Project.read (4 * k + 7) (tree k) = some (project k) := by
  have hcommands : list Command.read (4 * k + 4) (.arr [commandTree (branchTree k)])
      = some [command k] := by
    rw [list, List.mapM_cons, read_commandTree (read_branchTree k)]
    rfl
  have hscene : Scene.read (4 * k + 5) (.obj [("id", .str "stairs"),
      ("commands", .arr [commandTree (branchTree k)])])
        = some { id := "stairs", commands := [command k] } := by
    rw [Scene.read, Record.of?_obj (by simp)]
    simp [Record.required, Record.withDefault_eq, List.lookup_cons, hcommands]
  have hscenes : list Scene.read (4 * k + 6) (.arr [.obj [("id", .str "stairs"),
      ("commands", .arr [commandTree (branchTree k)])]])
        = some [{ id := "stairs", commands := [command k] }] := by
    rw [list, List.mapM_cons, hscene]
    rfl
  rw [Project.read, tree, Record.of?_obj (by simp)]
  simp [Record.withDefault_eq, List.lookup_cons, hscenes, project]

theorem levels_project (k : Nat) : (project k).levels = k + 1 := by
  have hlevels : (project k).levels = max (max (command k).levels 0) 0 := rfl
  have hcommand := levels_command k
  omega

/-- Thirty-one branches inside each other just fit into the brackets of a text. -/
theorem ofText_pretty : Project.ofText (tree 30).pretty = .ok (project 30) := by
  have hplain : (tree 30).Plain := by
    simpa [tree, commandTree] using plain_branchTree 30
  rw [Project.ofText, Json.parse?_pretty hplain]
  show Project.ofTree (tree 30) = _
  rw [Project.ofTree, show Project.read nesting (tree 30) = some (project 30) from read_tree 30]
  exact Project.checkResolution_eq_ok rfl

/-- They are loaded, but what is then written for them cannot be loaded. -/
theorem not_ofText_toText :
    Project.ofText (tree 30).pretty = .ok (project 30) ∧
      Project.ofText (project 30).toText ≠ .ok (project 30) := by
  refine ⟨ofText_pretty, fun hload => ?_⟩
  have hdeep : ¬ (project 30).toJson.depth ≤ nesting := by
    intro hdepth
    have hlevels := (Project.depth_toJson_le_iff (project 30) 30).mp hdepth
    rw [levels_project] at hlevels
    exact absurd hlevels (by decide)
  rw [Project.ofText_toText_eq, if_neg hdeep] at hload
  cases hload

end Stairs

end SceneScript
