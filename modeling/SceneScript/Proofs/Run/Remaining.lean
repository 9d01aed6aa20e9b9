import SceneScript.Proofs.Run.Position

/-! # What is left behind a position

A way of frames leads through one list after the other. Left behind a position are the rest of the
innermost list and, from the inside out, what stands behind the owners of the frames.
-/

namespace SceneScript

/-! ## Lists that indices can address -/

/-- The list and all lists inside it are short enough to be held in memory. -/
def Command.Addressable (commands : List Command) : Prop :=
  commands.length ≤ Index.capacity ∧ ∀ command ∈ listSubcommands commands,
    command.branches.length ≤ Index.capacity ∧
      ∀ branch ∈ command.branches, branch.body.length ≤ Index.capacity

/-- Every place of the project has an index of its own, as in any project that fits in memory. -/
structure Project.Addressable (project : Project) : Prop where
  scenes : project.scenes.length ≤ Index.capacity
  commands : ∀ scene ∈ project.scenes, Command.Addressable scene.commands
  groups : ∀ group ∈ project.sharedCommands, Command.Addressable group.commands

theorem Project.Addressable.listAt {project : Project} (h : project.Addressable) {scene : Index}
    {frames : List Frame} {commands : List Command}
    (hlist : project.listAt scene frames = .ok commands) : Command.Addressable commands := by
  refine Project.listAt_induction h.commands h.groups ?_ hlist
  intro outer houter command hcommand branch hbranch
  refine ⟨(houter.2 command (Command.mem_listSubcommands_of_mem hcommand)).2 branch hbranch, ?_⟩
  intro inner hinner
  exact houter.2 inner (Command.listSubcommands_body_subset hcommand hbranch hinner)

/-! ## Levels -/

namespace Frame

variable {project : Project} {level next : List Command × List Command} {frame : Frame}

/-- From a list and what is left behind it into the list that a frame leads to. -/
def descend (project : Project) (level : List Command × List Command) (frame : Frame) :
    Except Fault (List Command × List Command) := do
  let body ← frame.innerList project level.1
  return (body, level.1.drop (frame.owner + 1).toNat ++ level.2)

theorem descend_eq_ok :
    descend project level frame = .ok next ↔ frame.innerList project level.1 = .ok next.1 ∧
      next.2 = level.1.drop (frame.owner + 1).toNat ++ level.2 := by
  obtain ⟨body, behind⟩ := next
  unfold descend
  rw [bind_eq_ok]
  constructor
  · rintro ⟨inner, hinner, h⟩
    cases h
    exact ⟨hinner, rfl⟩
  · rintro ⟨hinner, rfl⟩
    exact ⟨body, hinner, rfl⟩

end Frame

namespace Project

variable {project : Project} {scene : Index} {frames : List Frame}

/-- The list that a way of frames leads to, and what is left behind it. -/
def levelAt (project : Project) (scene : Index) (frames : List Frame) :
    Except Fault (List Command × List Command) := do
  frames.foldlM (Frame.descend project) ((← project.sceneAt scene).commands, [])

theorem levelAt_eq_ok_nil {level : List Command × List Command} :
    project.levelAt scene [] = .ok level ↔
      ∃ entered, project.scene? scene = some entered ∧ level = (entered.commands, []) := by
  unfold levelAt
  rw [bind_eq_ok]
  refine exists_congr fun entered => and_congr sceneAt_eq_ok ?_
  exact pure_eq_ok.trans eq_comm

theorem levelAt_eq_ok_append {frame : Frame} {level : List Command × List Command} :
    project.levelAt scene (frames ++ [frame]) = .ok level ↔
      ∃ outer, project.levelAt scene frames = .ok outer ∧
        Frame.descend project outer frame = .ok level := by
  unfold levelAt
  cases project.sceneAt scene with
  | error fault => simp
  | ok entered =>
      change (frames ++ [frame]).foldlM (Frame.descend project) (entered.commands, []) = _ ↔ _
      rw [List.foldlM_append, bind_eq_ok]
      refine exists_congr fun outer => and_congr_right fun _ => ?_
      simp only [List.foldlM_cons, List.foldlM_nil, bind_pure]

/-- A level is found exactly when its list is. -/
theorem listAt_of_levelAt {level : List Command × List Command}
    (h : project.levelAt scene frames = .ok level) :
    project.listAt scene frames = .ok level.1 := by
  induction frames using List.reverseRecOn generalizing level with
  | nil =>
      obtain ⟨entered, hscene, rfl⟩ := levelAt_eq_ok_nil.mp h
      exact listAt_eq_ok_nil.mpr ⟨entered, hscene, rfl⟩
  | append_singleton frames frame ih =>
      obtain ⟨outer, houter, hframe⟩ := levelAt_eq_ok_append.mp h
      exact listAt_eq_ok_append.mpr ⟨outer.1, ih houter, (Frame.descend_eq_ok.mp hframe).1⟩

theorem exists_levelAt_of_listAt {commands : List Command}
    (h : project.listAt scene frames = .ok commands) :
    ∃ behind, project.levelAt scene frames = .ok (commands, behind) := by
  induction frames using List.reverseRecOn generalizing commands with
  | nil =>
      obtain ⟨entered, hscene, rfl⟩ := listAt_eq_ok_nil.mp h
      exact ⟨[], levelAt_eq_ok_nil.mpr ⟨entered, hscene, rfl⟩⟩
  | append_singleton frames frame ih =>
      obtain ⟨outer, houter, hinner⟩ := listAt_eq_ok_append.mp h
      obtain ⟨behind, hlevel⟩ := ih houter
      exact ⟨_, levelAt_eq_ok_append.mpr
        ⟨(outer, behind), hlevel, Frame.descend_eq_ok.mpr ⟨hinner, rfl⟩⟩⟩

end Project

/-! ## The commands to do -/

/-- The commands that are left to do from a position on. -/
def Position.Remaining (project : Project) (position : Position) (commands : List Command) : Prop :=
  ∃ level, project.levelAt position.scene position.frames = .ok level ∧
    commands = level.1.drop position.command.toNat ++ level.2

namespace Position.Remaining

variable {project : Project} {position next : Position} {commands list : List Command}

theorem resolve (h : position.Remaining project commands) :
    ∃ list, project.resolve position = .ok list := by
  obtain ⟨level, hlevel, -⟩ := h
  exact ⟨level.1, Project.listAt_of_levelAt hlevel⟩

/-- What is left to do begins with the rest of the list at the position. -/
theorem exists_behind (h : position.Remaining project commands)
    (hlist : project.resolve position = .ok list) :
    ∃ behind, project.levelAt position.scene position.frames = .ok (list, behind) ∧
      commands = list.drop position.command.toNat ++ behind := by
  obtain ⟨⟨found, behind⟩, hlevel, rfl⟩ := h
  have hfound : project.resolve position = .ok found := Project.listAt_of_levelAt hlevel
  rw [hlist] at hfound
  cases hfound
  exact ⟨behind, hlevel, rfl⟩

theorem sceneStart {scene : Index} {entered : Scene} (h : project.scene? scene = some entered) :
    (Position.sceneStart scene).Remaining project entered.commands :=
  ⟨(entered.commands, []), Project.levelAt_eq_ok_nil.mpr ⟨entered, h, rfl⟩,
    (List.append_nil _).symm⟩

/-- Before a command, this command is the first one to do, and the others are left behind it. -/
theorem exists_cons (h : position.Remaining project commands) {command : Command}
    (hcommand : project.commandAt position = .ok command) :
    ∃ rest, commands = command :: rest ∧ position.forward.Remaining project rest := by
  obtain ⟨list, hlist, hplace⟩ := commandAt_eq_ok.mp hcommand
  obtain ⟨behind, hlevel, rfl⟩ := h.exists_behind hlist
  refine ⟨list.drop (position.command + 1).toNat ++ behind, ?_, (list, behind), hlevel, rfl⟩
  rw [Index.drop_eq_cons hplace]
  rfl

/-- In a list inside, the commands of this list come first. -/
theorem enter {frame : Frame} {body rest : List Command}
    (h : position.forward.Remaining project rest) (howner : frame.owner = position.command)
    (hlist : project.resolve position = .ok list) (hbody : frame.innerList project list = .ok body) :
    (position.enter frame).Remaining project (body ++ rest) := by
  obtain ⟨behind, hlevel, rfl⟩ := h.exists_behind hlist
  refine ⟨(body, list.drop (position.command + 1).toNat ++ behind), ?_, rfl⟩
  refine Project.levelAt_eq_ok_append.mpr
    ⟨(list, behind), hlevel, Frame.descend_eq_ok.mpr ⟨hbody, ?_⟩⟩
  rw [howner]

/-- Leaving a list that has ended changes nothing of what is left to do. -/
theorem leave (h : position.Remaining project commands)
    (hlist : project.resolve position = .ok list) (hlength : list.length ≤ Index.capacity)
    (hend : Index.of? position.command list = none) (hleave : position.leave? = .ok (some next)) :
    next.Remaining project commands := by
  obtain ⟨behind, hlevel, rfl⟩ := h.exists_behind hlist
  obtain ⟨frames, frame, hframes, -, rfl⟩ := leave?_eq_some.mp hleave
  rw [hframes] at hlevel
  obtain ⟨outer, houter, hframe⟩ := Project.levelAt_eq_ok_append.mp hlevel
  refine ⟨outer, houter, ?_⟩
  rw [Index.drop_eq_nil hlength hend, List.nil_append]
  exact (Frame.descend_eq_ok.mp hframe).2

/-- At the end of a scene nothing is left to do. -/
theorem eq_nil (h : position.Remaining project commands)
    (hlist : project.resolve position = .ok list) (hlength : list.length ≤ Index.capacity)
    (hend : Index.of? position.command list = none) (hleave : position.leave? = .ok none) :
    commands = [] := by
  obtain ⟨behind, hlevel, rfl⟩ := h.exists_behind hlist
  rw [leave?_eq_none.mp hleave] at hlevel
  obtain ⟨entered, -, hscene⟩ := Project.levelAt_eq_ok_nil.mp hlevel
  rw [Index.drop_eq_nil hlength hend, List.nil_append]
  exact congrArg Prod.snd hscene

end Position.Remaining
end SceneScript
