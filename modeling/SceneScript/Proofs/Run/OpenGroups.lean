import SceneScript.Proofs.Run.Drive
import SceneScript.Proofs.Run.Tick
import SceneScript.Proofs.Script.Gauge

/-! # Groups that a position is inside of

A group is checked before it is entered, on the project as it is then, while the groups around it may
have been entered on earlier versions of the project. A way that can still be followed is a chain of
calls of the project as it is now, so the check would come back to a group that is open.
-/

namespace SceneScript

/-- The group that a frame leads into. -/
def Frame.group? : Frame → Option String
  | branch _ _ => none
  | group _ id => some id

/-- The groups that the position is inside of, outermost first. -/
def Position.openGroups (position : Position) : List String :=
  position.frames.filterMap Frame.group?

theorem Frame.filterMap_group?_concat (frames : List Frame) (frame : Frame) :
    (frames ++ [frame]).filterMap group? = frames.filterMap group? ++ frame.group?.toList := by
  cases hgroup : frame.group? <;> simp [hgroup]

/-! ## Open groups lead to what comes next -/

section Calls

variable {project : Project}

/-- Every group on the way to a list leads, by one call or more, to what the list calls. -/
theorem Project.transGen_calls_of_listAt {scene : Index} {frames : List Frame}
    {commands : List Command} (hlist : project.listAt scene frames = .ok commands)
    {id callee : String} (hid : id ∈ frames.filterMap Frame.group?)
    (hcallee : callee ∈ Command.listCalls commands) :
    Relation.TransGen project.Calls id callee := by
  induction frames using List.reverseRecOn generalizing commands callee with
  | nil => simp at hid
  | append_singleton frames frame ih =>
      obtain ⟨outer, houter, hinner⟩ := listAt_eq_ok_append.mp hlist
      obtain ⟨owner, howner, hframe⟩ := Frame.innerList_eq_ok.mp hinner
      have hmem : owner ∈ outer := Index.mem_of_of? howner
      rw [List.filterMap_append] at hid
      cases frame with
      | branch index chosen =>
          obtain ⟨label, branches, taken, haction, htaken, rfl⟩ := hframe
          have hbranch : taken ∈ owner.branches :=
            Command.mem_branches_of_action haction (List.mem_of_getElem? htaken)
          have hbefore : id ∈ frames.filterMap Frame.group? := by simpa [Frame.group?] using hid
          exact ih houter hbefore (Command.listCalls_body_subset hmem hbranch hcallee)
      | group index called =>
          obtain ⟨haction, group, hgroup, rfl⟩ := hframe
          have hcall : project.Calls called callee := ⟨group, hgroup, hcallee⟩
          rcases List.mem_append.mp hid with hbefore | hlast
          · exact (ih houter hbefore (Command.mem_listCalls_of_mem hmem haction)).tail hcall
          · have hsame : id = called := by simpa [Frame.group?] using hlast
            rw [hsame]
            exact .single hcall

/-- A group that passes its check is not open where it is called. -/
theorem Position.not_mem_openGroups {position : Position} {command : Command} {id : String}
    (hcommand : project.commandAt position = .ok command) (haction : command.action = .call id)
    (hcheck : project.checkGroup id = .ok ()) : id ∉ position.openGroups := by
  intro hopen
  obtain ⟨commands, hlist, hplace⟩ := commandAt_eq_ok.mp hcommand
  have hcallee : id ∈ Command.listCalls commands :=
    Command.mem_listCalls_of_mem (Index.mem_of_of? hplace) haction
  have hback := Project.transGen_calls_of_listAt hlist hopen hcallee
  exact (Project.checkGroup_eq_ok.mp hcheck).not_calls_back hback

end Calls

/-! ## No group is open twice -/

namespace Position

variable {position outer : Position}

theorem nodup_openGroups_enter {frame : Frame} (h : position.openGroups.Nodup)
    (hframe : ∀ id, frame.group? = some id → id ∉ position.openGroups) :
    (position.enter frame).openGroups.Nodup := by
  have henter : (position.enter frame).openGroups = position.openGroups ++ frame.group?.toList :=
    Frame.filterMap_group?_concat position.frames frame
  rw [henter]
  refine List.nodup_append.mpr ⟨h, ?_, ?_⟩
  · cases frame.group? <;> simp
  · rintro id hid other hother rfl
    exact hframe id (by simpa using hother) hid

theorem nodup_openGroups_leave (h : position.openGroups.Nodup)
    (hleave : position.leave? = .ok (some outer)) : outer.openGroups.Nodup := by
  obtain ⟨frames, frame, hframes, -, rfl⟩ := leave?_eq_some.mp hleave
  unfold openGroups at h ⊢
  rw [hframes, List.filterMap_append] at h
  exact (List.nodup_append.mp h).1

end Position

/-- No group is open inside itself. -/
def State.OpensOnce (state : State) : Prop := state.position.openGroups.Nodup

namespace State.OpensOnce

variable {project : Project} {state next : State} {effects : List Effect}

/-- A step opens a group only by a call of it, which has passed its check. -/
theorem step (h : state.OpensOnce) (hstep : state.step project = .ok (next, effects)) :
    next.OpensOnce := by
  cases State.step_iff.mp hstep with
  | leave _ hleave => exact Position.nodup_openGroups_leave h hleave
  | fall _ _ _ | jump _ _ _ => exact List.nodup_nil
  | halt _ _ _ => exact h
  | @advance execution hdone _ =>
      obtain ⟨command, -, hexecute⟩ := hdone
      change execution.state.position.openGroups.Nodup
      rw [(Action.execute_done hexecute).position_eq]
      exact h
  | @wait execution reason hdone _ =>
      obtain ⟨command, -, hexecute⟩ := hdone
      change execution.state.position.openGroups.Nodup
      rw [(Action.execute_done hexecute).position_eq]
      exact h
  | @enter execution frame hdone hflow =>
      obtain ⟨command, hcommand, hexecute⟩ := hdone
      change (execution.state.position.enter frame).openGroups.Nodup
      rw [(Action.execute_done hexecute).position_eq]
      refine Position.nodup_openGroups_enter h fun id hid => ?_
      cases frame with
      | branch owner chosen => cases hid
      | group owner called =>
          cases hid
          obtain ⟨haction, hcheck⟩ := Action.checkGroup_of_enter hexecute hflow
          exact Position.not_mem_openGroups hcommand haction hcheck

/-- Answers stay in the list of their dialogue or leave for the start of a scene. -/
theorem answer (h : state.OpensOnce) (input : Input) :
    (state.answer project input).1.OpensOnce := by
  have hanswers := State.answers project state input
  generalize state.answer project input = result at hanswers ⊢
  cases hanswers with
  | ignored | clicked _ _ | stuck _ _ | refused _ _ | lost _ _ => exact h
  | chosen _ hchoose =>
      obtain ⟨_, _, -, -, hpick⟩ := State.exists_pick_of_choose hchoose
      obtain ⟨_, ⟨_, rfl⟩, -, ⟨-, -, rfl⟩ | rfl⟩ := State.pick_kept hpick <;> exact h
  | arrived _ _ => exact List.nodup_nil

end State.OpensOnce

/-! ## How deep a position stands -/

section Depth

variable {project : Project} {gauge : Gauge}

/-- The owner of a frame counts more than the list that the frame leads to. Where it leads into a
group, groups may count less inside. -/
theorem Frame.gauge_innerList_le (gauge : Gauge) {frame : Frame} {commands body : List Command}
    {inside outside : String → Nat} (hbranch : frame.group? = none → inside = outside)
    (hgroup : ∀ id group, frame.group? = some id → project.findGroup? id = some group →
      gauge.commands inside group.commands ≤ outside id)
    (hbody : frame.innerList project commands = .ok body) :
    ∃ owner, Index.of? frame.owner commands = some owner ∧
      gauge.nest + gauge.commands inside body ≤ gauge.command outside owner := by
  obtain ⟨owner, howner, hframe⟩ := innerList_eq_ok.mp hbody
  refine ⟨owner, howner, ?_⟩
  cases frame with
  | branch index chosen =>
      obtain ⟨label, branches, taken, haction, htaken, rfl⟩ := hframe
      rw [hbranch rfl]
      exact Gauge.body_le haction (List.mem_of_getElem? htaken)
  | group index id =>
      obtain ⟨haction, group, hfound, rfl⟩ := hframe
      rw [Gauge.command_call haction]
      exact Nat.add_le_add_left (hgroup id group rfl hfound) gauge.nest

/-- On a way that enters no group twice, each frame takes its part of what the scene counts. -/
theorem Project.gauge_listAt_le {scene : Index} {entered : Scene} {frames : List Frame}
    {commands : List Command} (hscene : project.scene? scene = some entered)
    (hlist : project.listAt scene frames = .ok commands)
    (hopen : (frames.filterMap Frame.group?).Nodup) :
    gauge.nest * frames.length +
        gauge.commands (project.gaugeGroup gauge (frames.filterMap Frame.group?)) commands ≤
      gauge.commands (project.gaugeGroup gauge []) entered.commands := by
  induction frames using List.reverseRecOn generalizing commands with
  | nil =>
      obtain ⟨found, hfound, rfl⟩ := listAt_eq_ok_nil.mp hlist
      rw [hscene] at hfound
      cases hfound
      simp
  | append_singleton frames frame ih =>
      obtain ⟨outer, houter, hbody⟩ := listAt_eq_ok_append.mp hlist
      rw [Frame.filterMap_group?_concat] at hopen ⊢
      obtain ⟨hbefore, -, hapart⟩ := List.nodup_append.mp hopen
      have hgroup : ∀ id group, frame.group? = some id → project.findGroup? id = some group →
          gauge.commands (project.gaugeGroup gauge
            (frames.filterMap Frame.group? ++ frame.group?.toList)) group.commands ≤
              project.gaugeGroup gauge (frames.filterMap Frame.group?) id := by
        intro id group hid hfound
        have hnew : id ∉ frames.filterMap Frame.group? :=
          fun hmem => hapart id hmem id (by simp [hid]) rfl
        rw [gaugeGroup_of_findGroup? hnew hfound, hid]
        exact Nat.le_refl _
      obtain ⟨owner, howner, hle⟩ :=
        Frame.gauge_innerList_le gauge (fun hnone => by simp [hnone]) hgroup hbody
      have howns : gauge.command (project.gaugeGroup gauge (frames.filterMap Frame.group?)) owner ≤
          gauge.commands (project.gaugeGroup gauge (frames.filterMap Frame.group?)) outer :=
        Gauge.command_le (Index.mem_of_of? howner)
      have hways := ih houter hbefore
      rw [List.length_append, List.length_singleton, Nat.mul_add_one]
      omega

/-- A position is in no more lists than its scene nests. -/
theorem State.OpensOnce.depth_le {state : State} {scene : Scene} {commands : List Command}
    (h : state.OpensOnce) (hscene : project.scene? state.position.scene = some scene)
    (hlist : project.resolve state.position = .ok commands) :
    state.position.depth ≤ project.nestedDepth scene.commands := by
  have hone : Gauge.nesting.nest = 1 := rfl
  have hle : Gauge.nesting.nest * state.position.depth +
      Gauge.nesting.commands (project.gaugeGroup .nesting state.position.openGroups) commands ≤
        project.nestedDepth scene.commands := Project.gauge_listAt_le hscene hlist h
  rw [hone] at hle
  omega

end Depth

namespace Interpreter

variable {project : Project} {interpreter : Interpreter}

theorem opensOnce_begin (h : interpreter.state.OpensOnce) :
    (interpreter.begin project).1.OpensOnce := by
  rcases begin_cases project interpreter with heq | ⟨-, ⟨_, -, heq⟩ | ⟨-, heq⟩⟩ <;> rw [heq]
  · exact h
  · exact List.nodup_nil
  · exact h

theorem opensOnce_tick (h : interpreter.state.OpensOnce) (input : Option Input) :
    (interpreter.tick project input).1.state.OpensOnce := by
  have hkeeps : (interpreter.tick project input).1.state.OpensOnce ∧
      ∀ fault, (interpreter.tick project input).2 = .error fault → True :=
    tick_keeps h ⟨opensOnce_begin h, fun _ _ => trivial⟩
      (fun _ given hstate _ _ => ⟨hstate.answer given, fun _ _ => trivial⟩)
      (fun _ _ _ hstate _ => hstate.step) (fun _ _ _ _ _ => trivial) trivial
  exact hkeeps.1

theorem opensOnce_new (project : Project) : (new project).state.OpensOnce := List.nodup_nil

/-- However the project is edited between ticks, and whatever they return, no group is ever open
inside itself. -/
theorem nodup_openGroups_afterTurns (project : Project) (turns : List Turn) :
    ((new project).afterTurns turns).state.position.openGroups.Nodup := by
  have hkept : ∀ (interpreter : Interpreter) (project : Project) (input : Option Input),
      interpreter.state.OpensOnce → (interpreter.tick project input).1.state.OpensOnce :=
    fun _ _ input h => opensOnce_tick h input
  exact afterTurns_induction (opensOnce_new project) hkept turns

end Interpreter
end SceneScript
