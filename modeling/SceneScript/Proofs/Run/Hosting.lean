import SceneScript.Proofs.Run.Remaining
import SceneScript.Proofs.Run.Rewriting
import SceneScript.Proofs.Script.Inlining

/-! # Positions where groups are in place

A position inside groups has a position alongside in the inlined project, in the list that the
groups have been put into. Branches are entered and left by both, groups by one of them only.
-/

namespace SceneScript

/-! ## Lists inside longer lists -/

/-- Every place has an index of its own, with groups in place as well, and every call that a scene
leads to can be made. -/
structure Project.Inlinable (project : Project) : Prop where
  addressable : project.Addressable
  inlined : project.inlined.Addressable
  calls : ∀ scene ∈ project.scenes, ∀ id ∈ Command.listCalls scene.commands, project.Callable id

theorem Project.rewritesScenes_inlined (project : Project) :
    project.RewritesScenes project.inlined (Command.splice (project.expansion [])) :=
  ⟨rfl, rfl, rfl⟩

theorem Index.of?_of_drop {α : Type} {index : Index} {items rest : List α} {item : α}
    (hitems : items.length ≤ capacity) (h : items.drop index.toNat = item :: rest) :
    Index.of? index items = some item := by
  rw [of?_of_length_le hitems, ← List.head?_drop, h]
  rfl

/-- A list that a way of frames leads to, and the list that hosts its rest in the inlined project,
with what stands behind it there. Groups leave no frame. -/
inductive Project.Hosts (project : Project) (scene : Index) :
    List Frame → List Command → List Frame → List Command → List Command → Prop where
  | scene {entered : Scene} (hscene : project.scene? scene = some entered) :
      Hosts project scene [] entered.commands [] (project.inline entered.commands) []
  | branch {frames flat : List Frame} {list host behind : List Command} {owner place chosen : Index}
      {command : Command} {label : String} {branches : List (Branch Command)}
      {taken : Branch Command}
      (houter : Hosts project scene frames list flat host behind)
      (howner : Index.of? owner list = some command)
      (haction : command.action = .branching label branches)
      (htaken : branches[chosen.toNat]? = some taken)
      (hplace : host.drop place.toNat = project.inline (list.drop owner.toNat) ++ behind) :
      Hosts project scene (frames ++ [.branch owner chosen]) taken.body
        (flat ++ [.branch place chosen]) (project.inline taken.body) []
  | group {frames flat : List Frame} {list host behind : List Command} {owner : Index}
      {command : Command} {id : String} {group : CommandGroup}
      (houter : Hosts project scene frames list flat host behind)
      (howner : Index.of? owner list = some command) (haction : command.action = .call id)
      (hgroup : project.findGroup? id = some group) :
      Hosts project scene (frames ++ [.group owner id]) group.commands flat host
        (project.inline (list.drop (owner + 1).toNat) ++ behind)

section Hosts

variable {project : Project} {scene index place : Index} {frames flat : List Frame}
  {list host behind : List Command} {command : Command}

theorem Project.inline_drop_of_ne_call (hcommand : Index.of? index list = some command)
    (hcall : ∀ id, command.action ≠ .call id) :
    project.inline (list.drop index.toNat) =
      { command with action := command.action.inlined project } ::
        project.inline (list.drop (index.toNat + 1)) := by
  obtain ⟨hlt, rfl⟩ := List.getElem?_eq_some_iff.mp (Index.getElem?_of_of? hcommand)
  rw [List.drop_eq_getElem_cons hlt, inline_cons_of_ne_call hcall]

/-- Where a command other than a call stands in the list, it stands in its host. -/
theorem Project.of?_host (hhost : host.length ≤ Index.capacity)
    (hcommand : Index.of? index list = some command) (hcall : ∀ id, command.action ≠ .call id)
    (hplace : host.drop place.toNat = project.inline (list.drop index.toNat) ++ behind) :
    Index.of? place host = some { command with action := command.action.inlined project } := by
  rw [inline_drop_of_ne_call hcommand hcall] at hplace
  exact Index.of?_of_drop hhost hplace

/-- Behind the command, the rest of the host begins with the rest of the list. -/
theorem Project.drop_host (hhost : host.length ≤ Index.capacity)
    (hcommand : Index.of? index list = some command) (hcall : ∀ id, command.action ≠ .call id)
    (hplace : host.drop place.toNat = project.inline (list.drop index.toNat) ++ behind) :
    host.drop (place + 1).toNat = project.inline (list.drop (index + 1).toNat) ++ behind := by
  have hcons := Index.drop_eq_cons (of?_host hhost hcommand hcall hplace)
  rw [hplace, inline_drop_of_ne_call hcommand hcall, ← Index.toNat_succ hcommand] at hcons
  exact (List.cons.inj hcons).2.symm

namespace Project.Hosts

theorem listAt (h : project.Hosts scene frames list flat host behind) :
    project.listAt scene frames = .ok list := by
  induction h with
  | scene hscene => exact listAt_eq_ok_nil.mpr ⟨_, hscene, rfl⟩
  | branch _ howner haction htaken _ ih =>
      exact listAt_eq_ok_append.mpr ⟨_, ih, Frame.innerList_eq_ok.mpr
        ⟨_, howner, _, _, _, haction, htaken, rfl⟩⟩
  | group _ howner haction hgroup ih =>
      exact listAt_eq_ok_append.mpr ⟨_, ih, Frame.innerList_eq_ok.mpr
        ⟨_, howner, haction, _, hgroup, rfl⟩⟩

theorem listAt_host (hinlined : project.inlined.Addressable)
    (h : project.Hosts scene frames list flat host behind) :
    project.inlined.listAt scene flat = .ok host := by
  induction h with
  | @scene entered hscene =>
      refine listAt_eq_ok_nil.mpr ⟨entered.rewrite _, ?_, rfl⟩
      rw [project.rewritesScenes_inlined.scene?_eq, hscene]
      rfl
  | @branch _ _ _ _ _ _ _ _ command label branches taken _ howner haction htaken hplace ih =>
      have hcall : ∀ id, command.action ≠ .call id := by
        rw [haction]
        exact nofun
      have hhost := of?_host (hinlined.listAt ih).1 howner hcall hplace
      have hinner : (branches.map (Branch.rewrite
          (Command.splice (project.expansion []))))[UInt64.toNat _]? = some (taken.rewrite _) :=
        List.getElem?_map.trans (congrArg _ htaken)
      refine listAt_eq_ok_append.mpr ⟨_, ih, Frame.innerList_eq_ok.mpr
        ⟨_, hhost, label, _, _, ?_, hinner, rfl⟩⟩
      rw [haction]
      rfl
  | group _ _ _ _ ih => exact ih

/-- Every call in a list that a way of frames leads to can be made. -/
theorem callable (hinlinable : project.Inlinable)
    (h : project.Hosts scene frames list flat host behind) :
    ∀ id ∈ Command.listCalls list, project.Callable id := by
  induction h with
  | scene hscene => exact hinlinable.calls _ (mem_scenes_of_scene? hscene)
  | @branch _ _ _ _ _ _ _ _ command label branches taken _ howner haction htaken _ ih =>
      have hbranch : taken ∈ command.branches :=
        Command.mem_branches_of_action haction (List.mem_of_getElem? htaken)
      intro id hid
      exact ih id (Command.listCalls_body_subset (Index.mem_of_of? howner) hbranch hid)
  | @group _ _ _ _ _ _ _ id group _ howner haction hgroup ih =>
      have hid := ih id (Command.mem_listCalls_of_mem (Index.mem_of_of? howner) haction)
      exact fun callee hcallee => hid.callee ⟨group, hgroup, hcallee⟩

end Project.Hosts

/-! ## Positions -/

/-- A position in the project, and the position in the inlined project where the same is left to
do. -/
def Position.Alongside (project : Project) (position flat : Position) : Prop :=
  flat.scene = position.scene ∧ ∃ list host behind,
    project.Hosts position.scene position.frames list flat.frames host behind ∧
      host.drop flat.command.toNat =
        project.inline (list.drop position.command.toNat) ++ behind

end Hosts

namespace Position.Alongside

variable {project : Project} {position flat outer : Position} {command : Command}

theorem sceneStart {index : Index} {entered : Scene} (h : project.scene? index = some entered) :
    (Position.sceneStart index).Alongside project (.sceneStart index) :=
  ⟨rfl, _, _, _, .scene h, (List.append_nil _).symm⟩

theorem exists_list (h : position.Alongside project flat) :
    ∃ list, project.resolve position = .ok list := by
  obtain ⟨-, list, _, _, hhosts, -⟩ := h
  exact ⟨list, hhosts.listAt⟩

theorem hosts {list : List Command} (hinlinable : project.Inlinable)
    (h : position.Alongside project flat) (hlist : project.resolve position = .ok list) :
    ∃ host behind, project.Hosts position.scene position.frames list flat.frames host behind ∧
      project.inlined.resolve flat = .ok host ∧
      host.drop flat.command.toNat =
        project.inline (list.drop position.command.toNat) ++ behind := by
  obtain ⟨hscene, found, host, behind, hhosts, hplace⟩ := h
  rw [Project.resolve, hhosts.listAt] at hlist
  cases hlist
  have hhost : project.inlined.resolve flat = .ok host := by
    rw [Project.resolve, hscene]
    exact hhosts.listAt_host hinlinable.inlined
  exact ⟨host, behind, hhosts, hhost, hplace⟩

/-- A command other than a call stands at both positions, and both go on alongside. -/
theorem advance (hinlinable : project.Inlinable) (h : position.Alongside project flat)
    (hcommand : project.commandAt position = .ok command)
    (hcall : ∀ id, command.action ≠ .call id) :
    project.inlined.commandAt flat =
        .ok { command with action := command.action.inlined project } ∧
      position.forward.Alongside project flat.forward := by
  obtain ⟨list, hlist, hcommand⟩ := commandAt_eq_ok.mp hcommand
  obtain ⟨host, behind, hhosts, hhost, hplace⟩ := h.hosts hinlinable hlist
  have hlength := (hinlinable.inlined.listAt hhost).1
  have hhere := Project.of?_host hlength hcommand hcall hplace
  have hnext := Project.drop_host hlength hcommand hcall hplace
  exact ⟨commandAt_eq_ok.mpr ⟨host, hhost, hhere⟩, h.1, list, host, behind, hhosts, hnext⟩

theorem enter_branch {label : String} {branches : List (Branch Command)} {chosen : Index}
    {taken : Branch Command} (hinlinable : project.Inlinable)
    (h : position.Alongside project flat) (hcommand : project.commandAt position = .ok command)
    (haction : command.action = .branching label branches)
    (htaken : branches[chosen.toNat]? = some taken) :
    (position.enter (.branch position.command chosen)).Alongside project
      (flat.enter (.branch flat.command chosen)) := by
  obtain ⟨list, hlist, hcommand⟩ := commandAt_eq_ok.mp hcommand
  obtain ⟨host, behind, hhosts, -, hplace⟩ := h.hosts hinlinable hlist
  exact ⟨h.1, _, _, _, .branch hhosts hcommand haction htaken hplace, (List.append_nil _).symm⟩

/-- A call that the run comes to can be made. -/
theorem callable {id : String} (hinlinable : project.Inlinable)
    (h : position.Alongside project flat) (hcommand : project.commandAt position = .ok command)
    (haction : command.action = .call id) : project.Callable id := by
  obtain ⟨list, hlist, hcommand⟩ := commandAt_eq_ok.mp hcommand
  obtain ⟨host, behind, hhosts, -⟩ := h.hosts hinlinable hlist
  exact hhosts.callable hinlinable id
    (Command.mem_listCalls_of_mem (Index.mem_of_of? hcommand) haction)

/-- In the inlined project, the commands of a group already stand in the place of its call. -/
theorem enter_group {id : String} (hinlinable : project.Inlinable)
    (h : position.Alongside project flat) (hcommand : project.commandAt position = .ok command)
    (haction : command.action = .call id) :
    (position.enter (.group position.command id)).Alongside project flat := by
  have hid := h.callable hinlinable hcommand haction
  obtain ⟨list, hlist, hcommand⟩ := commandAt_eq_ok.mp hcommand
  obtain ⟨host, behind, hhosts, -, hplace⟩ := h.hosts hinlinable hlist
  obtain ⟨group, hgroup⟩ := hid.exists_findGroup?
  refine ⟨h.1, _, _, _, .group hhosts hcommand haction hgroup, ?_⟩
  rw [hplace, Index.drop_eq_cons hcommand, Project.inline_cons_call hid hgroup haction,
    List.append_assoc]
  rfl

/-- The end of a branch is an end of a list in both projects, the end of a group only in one. -/
theorem leave (hinlinable : project.Inlinable) (h : position.Alongside project flat)
    (hend : ∃ list, project.resolve position = .ok list ∧ Index.of? position.command list = none)
    (hleave : position.leave? = .ok (some outer)) :
    outer.Alongside project flat ∨
      (∃ host, project.inlined.resolve flat = .ok host ∧ Index.of? flat.command host = none) ∧
        ∃ after, flat.leave? = .ok (some after) ∧ outer.Alongside project after := by
  obtain ⟨list, hlist, hend⟩ := hend
  obtain ⟨frames, frame, hframes, -, rfl⟩ := leave?_eq_some.mp hleave
  obtain ⟨scene, flatFrames, cursor⟩ := flat
  obtain ⟨host, behind, hhosts, hhost, hplace⟩ := h.hosts hinlinable hlist
  rw [Index.drop_eq_nil (hinlinable.addressable.listAt hlist).1 hend] at hplace
  rw [hframes] at hhosts
  generalize hall : frames ++ [frame] = all at hhosts
  cases hhosts with
  | scene _ => exact absurd hall (by simp)
  | @branch before flat outerList outerHost outerBehind owner place chosen command label branches
      taken houter howner haction htaken houterplace =>
      obtain ⟨rfl, hframe⟩ := List.append_inj' hall rfl
      cases hframe
      have hcall : ∀ id, command.action ≠ .call id := by
        rw [haction]
        exact nofun
      have hoverrun : Index.of? cursor (project.inline taken.body) = none :=
        Index.of?_eq_none.mpr (.inr (List.drop_eq_nil_iff.mp hplace))
      have hlength := (hinlinable.inlined.listAt (houter.listAt_host hinlinable.inlined)).1
      have hplaced := Index.hasNext_of_of? (Project.of?_host hlength howner hcall houterplace)
      have hnext := Project.drop_host hlength howner hcall houterplace
      exact .inr ⟨⟨_, hhost, hoverrun⟩, { scene, frames := flat, command := place + 1 },
        leave?_eq_some.mpr ⟨flat, .branch place chosen, rfl, hplaced, rfl⟩,
        h.1, _, _, _, houter, hnext⟩
  | group houter howner haction hgroup =>
      obtain ⟨rfl, hframe⟩ := List.append_inj' hall rfl
      cases hframe
      exact .inl ⟨h.1, _, _, _, houter, hplace⟩

/-- The end of a scene is the end of a scene in both projects. -/
theorem leave_none (hinlinable : project.Inlinable) (h : position.Alongside project flat)
    (hend : ∃ list, project.resolve position = .ok list ∧ Index.of? position.command list = none)
    (hleave : position.leave? = .ok none) :
    (∃ host, project.inlined.resolve flat = .ok host ∧ Index.of? flat.command host = none) ∧
      flat.leave? = .ok none := by
  obtain ⟨list, hlist, hend⟩ := hend
  obtain ⟨scene, flatFrames, cursor⟩ := flat
  obtain ⟨host, behind, hhosts, hhost, hplace⟩ := h.hosts hinlinable hlist
  rw [Index.drop_eq_nil (hinlinable.addressable.listAt hlist).1 hend] at hplace
  rw [leave?_eq_none.mp hleave] at hhosts
  generalize hall : ([] : List Frame) = frames at hhosts
  cases hhosts with
  | @scene entered _ =>
      have hoverrun : Index.of? cursor (project.inline entered.commands) = none :=
        Index.of?_eq_none.mpr (.inr (List.drop_eq_nil_iff.mp hplace))
      exact ⟨⟨_, hhost, hoverrun⟩, rfl⟩
  | branch _ _ _ _ _ => exact absurd hall (by simp)
  | group _ _ _ _ => exact absurd hall (by simp)

end Position.Alongside
end SceneScript
