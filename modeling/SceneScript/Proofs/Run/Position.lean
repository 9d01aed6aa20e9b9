import Mathlib.Data.List.Induction
import SceneScript.Proofs.Run.Execution
import SceneScript.Run.Interpreter

/-! # Positions in a project

A position is found again after each way in and out of a list.
-/

namespace SceneScript

/-! ## Ways of frames -/

namespace Project

variable {project : Project} {scene : Index} {frames : List Frame}

theorem listAt_nil : project.listAt scene [] = (project.sceneAt scene).map (·.commands) := by
  unfold listAt
  cases project.sceneAt scene <;> rfl

theorem listAt_append (frame : Frame) :
    project.listAt scene (frames ++ [frame]) =
      project.listAt scene frames >>= fun commands => frame.innerList project commands := by
  unfold listAt
  cases project.sceneAt scene with
  | error fault => rfl
  | ok entered =>
      change (frames ++ [frame]).foldlM (Frame.innerList project) entered.commands = _
      rw [List.foldlM_append]
      refine bind_congr fun commands => ?_
      rw [List.foldlM_cons]
      exact bind_pure _

theorem listAt_eq_ok_nil {commands : List Command} :
    project.listAt scene [] = .ok commands ↔
      ∃ entered, project.scene? scene = some entered ∧ entered.commands = commands := by
  rw [listAt_nil, map_eq_ok]
  exact exists_congr fun entered => and_congr_left fun _ => sceneAt_eq_ok

theorem listAt_eq_ok_append {frame : Frame} {body : List Command} :
    project.listAt scene (frames ++ [frame]) = .ok body ↔
      ∃ commands, project.listAt scene frames = .ok commands ∧
        frame.innerList project commands = .ok body := by
  rw [listAt_append, bind_eq_ok]

theorem mem_scenes_of_scene? {entered : Scene} (h : project.scene? scene = some entered) :
    entered ∈ project.scenes :=
  Index.mem_of_of? h

theorem mem_sharedCommands_of_findGroup? {id : String} {group : CommandGroup}
    (h : project.findGroup? id = some group) : group ∈ project.sharedCommands :=
  List.mem_of_find?_eq_some h

end Project

/-! ## Lists inside lists -/

namespace Frame

variable {project : Project} {commands body : List Command} {frame : Frame}

/-- A frame leads into a branch of its owner, or into the group that its owner calls. -/
theorem innerList_eq_ok :
    frame.innerList project commands = .ok body ↔
      ∃ owner, Index.of? frame.owner commands = some owner ∧
        match frame with
        | .branch _ chosen => ∃ label branches taken, owner.action = .branching label branches ∧
            branches[chosen.toNat]? = some taken ∧ taken.body = body
        | .group _ id => owner.action = .call id ∧
            ∃ group, project.findGroup? id = some group ∧ group.commands = body := by
  unfold innerList
  cases howner : Index.of? frame.owner commands with
  | none => simp
  | some owner =>
      simp only [Option.some.injEq, exists_eq_left']
      cases frame with
      | branch index chosen =>
          cases haction : owner.action with
          | branching label branches =>
              constructor
              · intro h
                cases htaken : branches[chosen.toNat]? with
                | none => simp [htaken] at h
                | some taken =>
                    exact ⟨label, branches, taken, rfl, htaken, by simpa [htaken] using h⟩
              · rintro ⟨_, _, taken, hsame, htaken, rfl⟩
                cases hsame
                simp [htaken]
          | _ => simp
      | group index id =>
          cases haction : owner.action with
          | call called =>
              by_cases hcalled : called = id
              · simp [hcalled, Project.groupAt_eq_ok]
              · simp [hcalled]
          | _ => simp

/-- A command that leads into a list names a frame for it. -/
theorem exists_innerList_of_leads {command : Command} {index : Index}
    (hcommand : Index.of? index commands = some command)
    (hleads : command.action.Leads project index (.enter frame)) :
    ∃ body, frame.innerList project commands = .ok body := by
  cases frame with
  | branch owner chosen =>
      obtain ⟨rfl, label, branches, taken, haction, htaken⟩ := hleads
      exact ⟨taken.body, innerList_eq_ok.mpr
        ⟨command, hcommand, label, branches, taken, haction, htaken, rfl⟩⟩
  | group owner id =>
      obtain ⟨rfl, haction, group, hgroup⟩ := hleads
      exact ⟨group.commands, innerList_eq_ok.mpr
        ⟨command, hcommand, haction, group, hgroup, rfl⟩⟩

/-- The frame is owned by the command that leads there. -/
theorem owner_of_leads {action : Action Command} {index : Index}
    (hleads : action.Leads project index (.enter frame)) : frame.owner = index := by
  cases frame with
  | branch owner chosen => exact hleads.1
  | group owner id => exact hleads.1

end Frame

/-- What holds of the commands of a scene, and passes on to the bodies of branches and to called
groups, holds of every list that a way of frames leads to from there. -/
@[elab_as_elim]
theorem Project.listAt_induction_from {project : Project} {motive : List Command → Prop}
    {scene : Index} {entered : Scene} (hscene : project.scene? scene = some entered)
    (start : motive entered.commands)
    (bodies : ∀ commands, motive commands → ∀ command ∈ commands, ∀ branch ∈ command.branches,
      motive branch.body)
    (groups : ∀ commands, motive commands → ∀ command ∈ commands, ∀ id group,
      command.action = .call id → project.findGroup? id = some group → motive group.commands)
    {frames : List Frame} {commands : List Command}
    (h : project.listAt scene frames = .ok commands) : motive commands := by
  induction frames using List.reverseRecOn generalizing commands with
  | nil =>
      obtain ⟨found, hfound, rfl⟩ := listAt_eq_ok_nil.mp h
      rw [hscene] at hfound
      cases hfound
      exact start
  | append_singleton frames frame ih =>
      obtain ⟨outer, houter, hinner⟩ := listAt_eq_ok_append.mp h
      obtain ⟨owner, howner, hframe⟩ := Frame.innerList_eq_ok.mp hinner
      have hmem : owner ∈ outer := Index.mem_of_of? howner
      cases frame with
      | branch index chosen =>
          obtain ⟨label, branches, taken, haction, htaken, rfl⟩ := hframe
          exact bodies outer (ih houter) owner hmem taken
            (Command.mem_branches_of_action haction (List.mem_of_getElem? htaken))
      | group index id =>
          obtain ⟨haction, group, hgroup, rfl⟩ := hframe
          exact groups outer (ih houter) owner hmem id group haction hgroup

theorem Project.exists_scene_of_listAt {project : Project} {scene : Index} {frames : List Frame}
    {commands : List Command} (h : project.listAt scene frames = .ok commands) :
    ∃ entered, project.scene? scene = some entered := by
  unfold listAt at h
  obtain ⟨entered, hscene, -⟩ := bind_eq_ok.mp h
  exact ⟨entered, sceneAt_eq_ok.mp hscene⟩

/-- What holds of the commands of all scenes and groups, and passes on to the bodies of branches,
holds of every list that a way of frames leads to. -/
theorem Project.listAt_induction {project : Project} {holds : List Command → Prop}
    (scenes : ∀ scene ∈ project.scenes, holds scene.commands)
    (groups : ∀ group ∈ project.sharedCommands, holds group.commands)
    (bodies : ∀ commands, holds commands → ∀ command ∈ commands, ∀ branch ∈ command.branches,
      holds branch.body)
    {scene : Index} {frames : List Frame} {commands : List Command}
    (h : project.listAt scene frames = .ok commands) : holds commands := by
  obtain ⟨entered, hscene⟩ := exists_scene_of_listAt h
  exact listAt_induction_from hscene (scenes entered (mem_scenes_of_scene? hscene)) bodies
    (fun _ _ _ _ _ group _ hgroup => groups group (mem_sharedCommands_of_findGroup? hgroup)) h

/-! ## Moving the position -/

namespace Position

variable {project : Project} {position next : Position} {commands body : List Command}

theorem resolve_sceneStart {scene : Index} {entered : Scene}
    (h : project.scene? scene = some entered) :
    project.resolve (.sceneStart scene) = .ok entered.commands :=
  Project.listAt_eq_ok_nil.mpr ⟨entered, h, rfl⟩

/-- The place behind the current command, as long as there is a next index. -/
def forward (position : Position) : Position :=
  { position with command := position.command + 1 }

theorem advance_eq_ok :
    position.advance = .ok next ↔ position.command.HasNext ∧ next = position.forward := by
  unfold advance
  rw [bind_eq_ok]
  constructor
  · rintro ⟨command, hcommand, h⟩
    obtain ⟨hnext, rfl⟩ := Index.next_eq_ok.mp hcommand
    cases h
    exact ⟨hnext, rfl⟩
  · rintro ⟨hnext, rfl⟩
    exact ⟨_, Index.next_of_hasNext hnext, rfl⟩

theorem advance_of_hasNext (h : position.command.HasNext) :
    position.advance = .ok position.forward :=
  advance_eq_ok.mpr ⟨h, rfl⟩

theorem advance_eq_error {fault : Fault} :
    position.advance = .error fault ↔ ¬position.command.HasNext ∧ fault = .overflow := by
  unfold advance
  rw [bind_eq_error, Index.next_eq_error]
  simp

theorem resolve_forward : project.resolve position.forward = project.resolve position := rfl

theorem resolve_enter {frame : Frame} (h : project.resolve position = .ok commands)
    (hframe : frame.innerList project commands = .ok body) :
    project.resolve (position.enter frame) = .ok body :=
  Project.listAt_eq_ok_append.mpr ⟨commands, h, hframe⟩

/-- Out of the innermost list, behind its owner. -/
theorem leave?_of_frames {frames : List Frame} {frame : Frame}
    (h : position.frames = frames ++ [frame]) :
    position.leave? =
      frame.owner.next.map fun command => some { position with frames, command } := by
  unfold leave?
  simp only [h, List.getLast?_concat, List.dropLast_concat]
  cases frame.owner.next <;> rfl

theorem leave?_eq_none : position.leave? = .ok none ↔ position.frames = [] := by
  cases hframes : position.frames using List.reverseRecOn with
  | nil => simp [leave?, hframes]
  | append_singleton frames frame => simp [leave?_of_frames hframes]

theorem leave?_eq_some :
    position.leave? = .ok (some next) ↔ ∃ frames frame, position.frames = frames ++ [frame] ∧
      frame.owner.HasNext ∧ next = { position with frames, command := frame.owner + 1 } := by
  cases hframes : position.frames using List.reverseRecOn with
  | nil => simp [leave?, hframes]
  | append_singleton frames frame =>
      rw [leave?_of_frames hframes]
      simp only [map_eq_ok, Index.next_eq_ok, Option.some.injEq]
      constructor
      · rintro ⟨command, ⟨hnext, rfl⟩, rfl⟩
        exact ⟨frames, frame, rfl, hnext, rfl⟩
      · rintro ⟨frames', frame', hsplit, hnext, rfl⟩
        obtain ⟨rfl, hframe⟩ := List.append_inj' hsplit rfl
        cases hframe
        exact ⟨_, ⟨hnext, rfl⟩, rfl⟩

theorem leave?_eq_error {fault : Fault} :
    position.leave? = .error fault ↔ ∃ frames frame, position.frames = frames ++ [frame] ∧
      ¬frame.owner.HasNext ∧ fault = .overflow := by
  cases hframes : position.frames using List.reverseRecOn with
  | nil => simp [leave?, hframes]
  | append_singleton frames frame =>
      rw [leave?_of_frames hframes, map_eq_error, Index.next_eq_error]
      simp

/-- Behind a list that was found, the list around it is found. -/
theorem resolve_leave (h : project.resolve position = .ok body)
    (hleave : position.leave? = .ok (some next)) :
    ∃ commands, project.resolve next = .ok commands := by
  obtain ⟨frames, frame, hframes, -, rfl⟩ := leave?_eq_some.mp hleave
  rw [Project.resolve, hframes] at h
  obtain ⟨commands, hcommands, -⟩ := Project.listAt_eq_ok_append.mp h
  exact ⟨commands, hcommands⟩

/-- The place behind an owner is not the last one. -/
theorem hasNext_leave (h : project.resolve position = .ok body)
    (hleave : position.leave? = .ok (some next)) : next.command.HasNext := by
  obtain ⟨frames, frame, hframes, -, rfl⟩ := leave?_eq_some.mp hleave
  rw [Project.resolve, hframes] at h
  obtain ⟨commands, -, hinner⟩ := Project.listAt_eq_ok_append.mp h
  obtain ⟨owner, howner, -⟩ := Frame.innerList_eq_ok.mp hinner
  exact Index.hasNext_succ howner

/-- The scene of a position that is found exists. -/
theorem exists_scene_of_resolve (h : project.resolve position = .ok commands) :
    ∃ scene, project.scene? position.scene = some scene :=
  Project.exists_scene_of_listAt h

/-- A scene that exists has a next index. -/
theorem next_scene (h : project.resolve position = .ok commands) :
    position.scene.next = .ok (position.scene + 1) := by
  obtain ⟨scene, hscene⟩ := exists_scene_of_resolve h
  exact Index.next_of_hasNext (Index.hasNext_of_of? hscene)

/-- The owner of a list is found on the way to the list. -/
theorem hasNext_owner {scene : Index} {frames : List Frame} {frame : Frame}
    (h : project.listAt scene (frames ++ [frame]) = .ok commands) : frame.owner.HasNext := by
  obtain ⟨outer, -, hinner⟩ := Project.listAt_eq_ok_append.mp h
  obtain ⟨owner, howner, -⟩ := Frame.innerList_eq_ok.mp hinner
  exact Index.hasNext_of_of? howner

/-- From a list that was found there is a way out. -/
theorem leave?_ne_error {fault : Fault} (h : project.resolve position = .ok commands) :
    position.leave? ≠ .error fault := by
  rw [Ne, leave?_eq_error]
  rintro ⟨frames, frame, hframes, hlast, -⟩
  rw [Project.resolve, hframes] at h
  exact hlast (hasNext_owner h)

theorem commandAt_eq_ok {command : Command} :
    project.commandAt position = .ok command ↔
      ∃ commands, project.resolve position = .ok commands ∧
        Index.of? position.command commands = some command := by
  unfold Project.commandAt
  rw [bind_eq_ok]
  refine exists_congr fun commands => and_congr_right fun _ => ?_
  cases Index.of? position.command commands <;> simp

theorem hasNext_of_commandAt {command : Command} (h : project.commandAt position = .ok command) :
    position.command.HasNext := by
  obtain ⟨commands, -, hplace⟩ := commandAt_eq_ok.mp h
  exact Index.hasNext_of_of? hplace

theorem hasNext_forward {command : Command} (h : project.commandAt position = .ok command) :
    position.forward.command.HasNext := by
  obtain ⟨commands, -, hplace⟩ := commandAt_eq_ok.mp h
  exact Index.hasNext_succ hplace

/-- A command that is found has a place behind it. -/
theorem advance_of_commandAt {command : Command}
    (h : project.commandAt position = .ok command) : position.advance = .ok position.forward :=
  advance_of_hasNext (hasNext_of_commandAt h)

end Position
end SceneScript
