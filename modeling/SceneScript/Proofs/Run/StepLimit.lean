import SceneScript.Proofs.Run.Agreement
import SceneScript.Proofs.Run.OpenGroups
import SceneScript.Proofs.Run.Remaining

/-! # The step limit

In a script that only leads on, each step of a run brings its end nearer: what is left to do from a
position on weighs less than before. So a tick takes no more steps than the scenes weigh, wherever in
the script it begins.
-/

namespace SceneScript

namespace Project

variable {project : Project} {scene : Scene}

/-! ## Scripts that lead on -/

/-- The commands that may be run from a scene on, up to the next scene: its own, and those of the
groups that it reaches. -/
inductive Executable (project : Project) (scene : Scene) : Command → Prop where
  | own {command : Command} (hcommand : command ∈ Command.listSubcommands scene.commands) :
      Executable project scene command
  | called {caller command : Command} {id : String} {group : CommandGroup}
      (hcaller : Executable project scene caller) (haction : caller.action = .call id)
      (hgroup : project.findGroup? id = some group)
      (hcommand : command ∈ Command.listSubcommands group.commands) :
      Executable project scene command

/-- A scene without calls only runs its own commands. -/
theorem Executable.mem_of_listCalls_eq_nil (hcalls : Command.listCalls scene.commands = [])
    {command : Command} (h : project.Executable scene command) :
    command ∈ Command.listSubcommands scene.commands := by
  induction h with
  | own hcommand => exact hcommand
  | called _ haction _ _ ih =>
      have hid := Command.mem_listCalls.mpr ⟨_, ih, haction⟩
      rw [hcalls] at hid
      cases hid

/-- Jumps without a transition lead to later scenes. -/
def JumpsForward (project : Project) : Prop :=
  ∀ index scene, project.scene? index = some scene → ∀ command, project.Executable scene command →
    ∀ target, command.action = .goto target false → index < target

/-- The commands at a position are among those that its scene can run. -/
theorem executable_of_listAt {index : Index} {frames : List Frame} {commands : List Command}
    (hscene : project.scene? index = some scene)
    (hlist : project.listAt index frames = .ok commands) :
    ∀ command ∈ Command.listSubcommands commands, project.Executable scene command := by
  refine listAt_induction_from hscene ?_ ?_ ?_ hlist
  · exact fun command => .own
  · intro outer houter owner howner branch hbranch command hcommand
    exact houter command (Command.listSubcommands_body_subset howner hbranch hcommand)
  · intro outer houter owner howner id group haction hgroup command hcommand
    exact .called (houter owner (Command.mem_listSubcommands_of_mem howner)) haction hgroup hcommand

/-- The script leads on and never back, and its scenes weigh no more than a list can hold. -/
structure LeadsOn (project : Project) : Prop where
  acyclic : project.Acyclic
  forward : project.JumpsForward
  light : project.sceneWeights.sum ≤ Index.capacity

/-! ## What is left weighs no more than the scene -/

namespace LeadsOn

variable {index : Index} {frames : List Frame} {frame : Frame} {commands behind body : List Command}

theorem weight_innerList_le (h : project.LeadsOn)
    (hbody : frame.innerList project commands = .ok body) :
    ∃ owner, Index.of? frame.owner commands = some owner ∧
      2 + project.weight body ≤ project.commandWeight owner :=
  Frame.gauge_innerList_le .weight (fun _ => rfl)
    (fun _ _ _ hfound => Nat.le_of_eq (h.acyclic.gaugeGroup_nil hfound).symm) hbody

theorem weight_lt_sum (hscene : project.scene? index = some scene) :
    project.weight scene.commands < project.sceneWeights.sum := by
  have hdrop := sum_drop_sceneWeights hscene
  have hwhole : (project.sceneWeights.drop index.toNat).sum ≤ (project.sceneWeights.drop 0).sum :=
    sum_drop_sceneWeights_le (Nat.zero_le _)
  rw [List.drop_zero] at hwhole
  omega

/-- Lists that weigh no more than a scene can be held in memory. -/
theorem length_le_of_weight_le (h : project.LeadsOn) (hscene : project.scene? index = some scene)
    (hle : project.weight commands ≤ project.weight scene.commands) :
    commands.length ≤ Index.capacity := by
  have hlight := h.light
  have hscenes := weight_lt_sum hscene
  have hlength := project.length_le_weight commands
  omega

/-- The lists that a way leads through share the weight of the scene, one step for each to leave it. -/
theorem weight_levelAt_le (h : project.LeadsOn) (hscene : project.scene? index = some scene)
    (hlevel : project.levelAt index frames = .ok (commands, behind)) :
    project.weight commands + project.weight behind + frames.length ≤
      project.weight scene.commands := by
  induction frames using List.reverseRecOn generalizing commands behind with
  | nil =>
      obtain ⟨entered, hentered, hsame⟩ := levelAt_eq_ok_nil.mp hlevel
      rw [hscene] at hentered
      cases hentered
      cases hsame
      exact Nat.le_refl _
  | append_singleton frames frame ih =>
      obtain ⟨⟨outer, left⟩, houter, hframe⟩ := levelAt_eq_ok_append.mp hlevel
      have hbody : frame.innerList project outer = .ok commands :=
        (Frame.descend_eq_ok.mp hframe).1
      have hbehind : behind = outer.drop (frame.owner + 1).toNat ++ left :=
        (Frame.descend_eq_ok.mp hframe).2
      obtain ⟨owner, howner, howns⟩ := h.weight_innerList_le hbody
      have hlevels := ih houter
      have hdrop : project.weight (outer.drop frame.owner.toNat) ≤ project.weight outer :=
        weight_drop_le frame.owner.toNat
      rw [Index.drop_eq_cons howner, weight_cons] at hdrop
      rw [List.length_append, List.length_singleton, hbehind, weight_append]
      omega

theorem length_le (h : project.LeadsOn) (hlist : project.listAt index frames = .ok commands) :
    commands.length ≤ Index.capacity := by
  obtain ⟨behind, hlevel⟩ := exists_levelAt_of_listAt hlist
  obtain ⟨scene, hscene⟩ := exists_scene_of_listAt hlist
  have hlevels := h.weight_levelAt_le hscene hlevel
  exact h.length_le_of_weight_le hscene (by omega)

end LeadsOn

end Project

/-! ## Steps to the end -/

/-- From the position, the run is at its end within so many steps, unless it pauses before: what is
left of the scene, the lists to leave and the scenes behind it weigh less. -/
def Position.EndsWithin (project : Project) (position : Position) (steps : Nat) : Prop :=
  ∃ commands, position.Remaining project commands ∧
    project.weight commands + position.depth +
      (project.sceneWeights.drop (position.scene.toNat + 1)).sum < steps

namespace Position.EndsWithin

variable {project : Project} {position next : Position} {commands body : List Command}
  {command : Command} {steps : Nat}

theorem mono {more : Nat} (h : position.EndsWithin project steps) (hmore : steps ≤ more) :
    position.EndsWithin project more := by
  obtain ⟨left, hremaining, hlt⟩ := h
  exact ⟨left, hremaining, Nat.lt_of_lt_of_le hlt hmore⟩

theorem not_zero : ¬ position.EndsWithin project 0 := by
  rintro ⟨left, -, hlt⟩
  exact Nat.not_lt_zero _ hlt

/-- Wherever a run stands, no more is left than the whole script. -/
theorem of_resolve (h : project.LeadsOn) (hlist : project.resolve position = .ok commands) :
    position.EndsWithin project project.sceneWeights.sum := by
  obtain ⟨behind, hlevel⟩ := Project.exists_levelAt_of_listAt hlist
  obtain ⟨scene, hscene⟩ := exists_scene_of_resolve hlist
  refine ⟨commands.drop position.command.toNat ++ behind, ⟨(commands, behind), hlevel, rfl⟩, ?_⟩
  have hrest : project.weight (commands.drop position.command.toNat) ≤ project.weight commands :=
    Project.weight_drop_le position.command.toNat
  have hlevels := h.weight_levelAt_le hscene hlevel
  have hscenes : (project.sceneWeights.drop position.scene.toNat).sum ≤
      (project.sceneWeights.drop 0).sum := Project.sum_drop_sceneWeights_le (Nat.zero_le _)
  rw [List.drop_zero, Project.sum_drop_sceneWeights hscene] at hscenes
  rw [Project.weight_append, depth]
  omega

/-- Entering a later scene gives up at least the scene before. -/
theorem later (h : position.EndsWithin project (steps + 1)) {target : Index} {scene : Scene}
    (hscene : project.scene? target = some scene)
    (hlater : position.scene.toNat < target.toNat) :
    (Position.sceneStart target).EndsWithin project steps := by
  obtain ⟨left, -, hlt⟩ := h
  refine ⟨scene.commands, .sceneStart hscene, ?_⟩
  have hscenes : (project.sceneWeights.drop target.toNat).sum ≤
      (project.sceneWeights.drop (position.scene.toNat + 1)).sum :=
    Project.sum_drop_sceneWeights_le hlater
  rw [Project.sum_drop_sceneWeights hscene] at hscenes
  change project.weight scene.commands + 0 +
    (project.sceneWeights.drop (target.toNat + 1)).sum < steps
  omega

/-- Leaving a list is one of the steps. -/
theorem leave (h : position.EndsWithin project (steps + 1)) (hproject : project.LeadsOn)
    (hlist : project.resolve position = .ok commands)
    (hend : Index.of? position.command commands = none)
    (hleave : position.leave? = .ok (some next)) : next.EndsWithin project steps := by
  obtain ⟨left, hremaining, hlt⟩ := h
  refine ⟨left, hremaining.leave hlist (hproject.length_le hlist) hend hleave, ?_⟩
  obtain ⟨frames, frame, hframes, -, rfl⟩ := leave?_eq_some.mp hleave
  rw [depth, hframes, List.length_append, List.length_singleton] at hlt
  rw [depth]
  dsimp only
  omega

/-- The weight of a command is given up when the run goes on behind it. -/
theorem exists_rest (h : position.EndsWithin project (steps + 1))
    (hcommand : project.commandAt position = .ok command) :
    ∃ rest, position.forward.Remaining project rest ∧
      project.commandWeight command + project.weight rest + position.depth +
        (project.sceneWeights.drop (position.scene.toNat + 1)).sum ≤ steps := by
  obtain ⟨left, hremaining, hlt⟩ := h
  obtain ⟨rest, rfl, hrest⟩ := hremaining.exists_cons hcommand
  rw [Project.weight_cons] at hlt
  exact ⟨rest, hrest, Nat.le_of_lt_succ hlt⟩

theorem forward (h : position.EndsWithin project (steps + 1))
    (hcommand : project.commandAt position = .ok command) :
    position.forward.EndsWithin project steps := by
  obtain ⟨rest, hrest, hle⟩ := h.exists_rest hcommand
  have hweight := project.one_le_commandWeight command
  refine ⟨rest, hrest, ?_⟩
  change project.weight rest + position.depth +
    (project.sceneWeights.drop (position.scene.toNat + 1)).sum < steps
  omega

/-- A command that leads into a list weighs two more than the list: a step to enter it, and one to
leave it. -/
theorem enter (h : position.EndsWithin project (steps + 1)) (hproject : project.LeadsOn)
    {frame : Frame} (howner : frame.owner = position.command)
    (hlist : project.resolve position = .ok commands)
    (hbody : frame.innerList project commands = .ok body) :
    (position.enter frame).EndsWithin project steps := by
  obtain ⟨owner, hplace, hle⟩ := hproject.weight_innerList_le hbody
  rw [howner] at hplace
  obtain ⟨rest, hrest, hlt⟩ := h.exists_rest (commandAt_eq_ok.mpr ⟨commands, hlist, hplace⟩)
  refine ⟨body ++ rest, hrest.enter howner hlist hbody, ?_⟩
  have hdepth : (position.enter frame).depth = position.depth + 1 := by simp [depth, Position.enter]
  rw [Project.weight_append, hdepth]
  change project.weight body + project.weight rest + (position.depth + 1) +
    (project.sceneWeights.drop (position.scene.toNat + 1)).sum < steps
  omega

end Position.EndsWithin

/-! ## Runs -/

/-- Only a jump without a transition leaves for another scene at once. -/
theorem Action.goto_of_jump {project : Project} {state : State} {index target : Index}
    {action : Action Command} {execution : Execution}
    (h : action.execute project state index = .ok execution)
    (hflow : execution.flow = .jump target) : action = .goto target false := by
  cases executes h with
  | jumps _ =>
      cases hflow
      rfl
  | _ => cases hflow

namespace State

variable {project : Project} {state next : State} {effects : List Effect} {limit steps : Nat}

/-- Each step that does not end or pause the run brings the end nearer. -/
theorem endsWithin_step (hproject : project.LeadsOn)
    (h : state.position.EndsWithin project (steps + 1))
    (hstep : state.step project = .ok (next, effects)) (hgoes : next.isPaused = false) :
    next.position.EndsWithin project steps := by
  cases step_iff.mp hstep with
  | leave hend hleave =>
      obtain ⟨commands, hlist, hplace⟩ := hend
      exact h.leave hproject hlist hplace hleave
  | fall hend _ hscene =>
      obtain ⟨commands, hlist, -⟩ := hend
      obtain ⟨scene, hstands⟩ := Position.exists_scene_of_resolve hlist
      have hnext : (state.position.scene + 1).toNat = state.position.scene.toNat + 1 :=
        Index.toNat_succ hstands
      exact h.later hscene (by omega)
  | halt _ _ _ => simp [isPaused] at hgoes
  | @advance execution hdone _ =>
      obtain ⟨command, hcommand, hexecute⟩ := hdone
      rw [(Action.execute_done hexecute).position_eq]
      exact h.forward hcommand
  | @enter execution frame hdone hflow =>
      obtain ⟨command, hcommand, hexecute⟩ := hdone
      have done := Action.execute_done hexecute
      have hleads := done.leads
      rw [hflow] at hleads
      obtain ⟨commands, hlist, hplace⟩ := Position.commandAt_eq_ok.mp hcommand
      obtain ⟨body, hbody⟩ := Frame.exists_innerList_of_leads hplace hleads
      rw [done.position_eq]
      exact h.enter hproject (Frame.owner_of_leads hleads) hlist hbody
  | @jump execution target scene hdone hflow hscene =>
      obtain ⟨command, hcommand, hexecute⟩ := hdone
      obtain ⟨commands, hlist, hplace⟩ := Position.commandAt_eq_ok.mp hcommand
      obtain ⟨left, hleft⟩ := Position.exists_scene_of_resolve hlist
      have hmem : command ∈ Command.listSubcommands commands :=
        Command.mem_listSubcommands_of_mem (Index.mem_of_of? hplace)
      have hforward := hproject.forward _ _ hleft _
        (Project.executable_of_listAt hleft hlist _ hmem) _ (Action.goto_of_jump hexecute hflow)
      exact h.later hscene (UInt64.lt_iff_toNat_lt.mp hforward)
  | @wait execution reason hdone hflow =>
      obtain ⟨command, -, hexecute⟩ := hdone
      have hsuits := (Action.execute_done hexecute).leads
      rw [hflow] at hsuits
      have hnothing : reason = .nothing := (isPaused_eq_false.mp hgoes).1
      subst hnothing
      exact hsuits.elim

/-- A run with as many steps at hand as bring it to its end is not cut off. -/
theorem Stands.run_ne_endless (h : state.Stands project) (hproject : project.LeadsOn)
    (hpaused : state.isPaused = false) (hends : state.position.EndsWithin project steps)
    (count : Nat) : (state.run project limit steps).2 ≠ .error (.endless count) := by
  induction steps generalizing state with
  | zero => exact absurd hends Position.EndsWithin.not_zero
  | succ steps ih =>
      generalize hrun : state.run project limit (steps + 1) = result
      obtain ⟨final, response⟩ := result
      rintro rfl
      rcases run_succ_eq.mp hrun with ⟨fault, hstep, -, hfault⟩ | ⟨next, first, hstep,
        ⟨-, -, hresult⟩ | ⟨hgoes, later, hlater, hresult⟩⟩
      · cases hfault
        exact (h.step_ofContent hstep).ne_endless count rfl
      · cases hresult
      · have hcut : later = .error (.endless count) := map_eq_error.mp hresult.symm
        refine ih (h.step hpaused hstep) hgoes (endsWithin_step hproject hends hstep hgoes) ?_
        rw [hlater, hcut]

end State

/-! ## Ticks -/

namespace Interpreter

variable {project : Project} {interpreter : Interpreter}

/-- A tick that is refused is not cut off, and neither is one whose run has enough steps. -/
theorem Stands.tick_ne_endless (h : interpreter.Stands project) (hproject : project.LeadsOn)
    (hlimit : project.sceneWeights.sum ≤ State.maxSteps) (input : Option Input) (count : Nat) :
    (interpreter.tick project input).2 ≠ .error (.endless count) := by
  intro hcut
  have hticked := ticked project input interpreter
  generalize interpreter.tick project input = outcome at hticked hcut
  cases hticked with
  | ended _ | waits _ _ _ _ | runs _ _ _ _ _ => cases hcut
  | unready _ hbegin =>
      cases hcut
      rcases begin_cases project interpreter with heq | ⟨-, ⟨_, -, heq⟩ | ⟨-, heq⟩⟩ <;>
        rw [hbegin] at heq <;> cases heq
  | @refused begun taken _ _ hfinished hbegin htake =>
      cases hcut
      have hbegun := h.begun hfinished hbegin
      cases input with
      | none => cases htake
      | some given =>
          have hanswer : State.answer project begun given = (taken, .error (.endless count)) := htake
          rcases hbegun.answer_error (congrArg Prod.snd hanswer) with
            hcontent | ⟨_, _, -, -, -, hchoice⟩
          · exact hcontent.ne_endless count rfl
          · cases hchoice
  | @fails begun taken _ _ _ _ hfinished hbegin htake hpaused hrun =>
      cases hcut
      have htaken := (h.begun hfinished hbegin).taken htake
      obtain ⟨commands, hlist⟩ := htaken.found
      have hends : taken.position.EndsWithin project State.maxSteps :=
        (Position.EndsWithin.of_resolve hproject hlist).mono hlimit
      exact htaken.run_ne_endless hproject hpaused hends count (congrArg Prod.snd hrun)

/-- Where no calls lead in a circle and jumps without a transition lead to later scenes only, no tick
of any run is cut off by the step limit, unless the scenes weigh more than the limit. -/
theorem ne_endless_of_weight (hacyclic : project.Acyclic)
    (hforward : project.JumpsForward) (hweight : project.sceneWeights.sum ≤ State.maxSteps)
    (inputs : List (Option Input)) (input : Option Input) (limit : Nat) :
    ((after project inputs).tick project input).2 ≠ .error (.endless limit) := by
  have hlight : project.sceneWeights.sum ≤ Index.capacity := Nat.le_trans hweight (by decide)
  exact (stands_after project inputs).tick_ne_endless ⟨hacyclic, hforward, hlight⟩ hweight input limit

/-- A branch whose body calls a group, which jumps over the second scene. -/
def shortcut : Project where
  flags := [{ id := "f", name := "late", value := true }]
  scenes := [
    { id := "a", commands := [⟨"b", .branching ""
      [.onFlag .if "late" .eq true [⟨"c", .call "skip"⟩]]⟩] },
    { id := "m", commands := [.dialogue "d" "" "Later" []] },
    { id := "z", commands := [.dialogue "e" "" "At last" []] }]
  sharedCommands := [{ id := "skip", commands := [⟨"g", .goto 2 false⟩] }]

theorem acyclic_shortcut : shortcut.Acyclic := by
  intro id hback
  obtain ⟨callee, ⟨group, hgroup, hcallee⟩, -⟩ := Relation.TransGen.head'_iff.mp hback
  have hmem := Project.mem_sharedCommands_of_findGroup? hgroup
  rw [List.mem_singleton.mp hmem] at hcallee
  cases hcallee

/-- No scene jumps by itself, and the group jumps to the last scene, which calls nothing. -/
theorem jumpsForward_shortcut : shortcut.JumpsForward := by
  intro index scene hscene command hcommand target haction
  obtain ⟨hlt, hplace⟩ := List.getElem?_eq_some_iff.mp (Index.getElem?_of_of? hscene)
  cases hcommand with
  | own hmem =>
      have hnone : ∀ scene ∈ shortcut.scenes, ∀ command ∈ Command.listSubcommands scene.commands,
          command.action ≠ .goto target false := by
        simp [shortcut, Command.listSubcommands, Command.subcommands, Branch.listSubcommands,
          Branch.onFlag, Command.dialogue]
      exact absurd haction (hnone scene (Project.mem_scenes_of_scene? hscene) command hmem)
  | called hcaller hcall hgroup hmem =>
      have htarget : target = 2 := by
        rw [List.mem_singleton.mp (Project.mem_sharedCommands_of_findGroup? hgroup)] at hmem
        rw [List.mem_singleton.mp hmem] at haction
        cases haction
        rfl
      have hcalls : Command.listCalls scene.commands ≠ [] := by
        intro hnone
        have hown := Command.mem_listCalls.mpr ⟨_, hcaller.mem_of_listCalls_eq_nil hnone, hcall⟩
        rw [hnone] at hown
        cases hown
      have hindex : index.toNat < 2 := by
        by_contra hlater
        have hlast : index.toNat = 2 := by
          change index.toNat < 3 at hlt
          omega
        simp only [hlast] at hplace
        exact hcalls (hplace ▸ rfl)
      rw [htarget]
      exact UInt64.lt_iff_toNat_lt.mpr hindex

theorem tick_shortcut : ((after shortcut []).tick shortcut none).2 =
    .ok ⟨[.sceneEntered 0, .sceneEntered 2, .say "" "At last"], .click⟩ := by
  have hcheck : shortcut.checkGroup "skip" = .ok () := by cbv
  have hrun : (State.initial shortcut).run shortcut State.maxSteps State.maxSteps =
      ({ State.initial shortcut with position := .sceneStart 2, waiting := .click },
        .ok [.sceneEntered 2, .say "" "At last"]) := by
    refine State.run_succ_eq_ok.mpr ⟨_, [], rfl, .inr ⟨rfl, _, ?_, rfl⟩⟩
    refine State.run_succ_eq_ok.mpr ⟨_, [], State.step_of_call rfl hcheck, .inr ⟨rfl, _, ?_, rfl⟩⟩
    refine State.run_succ_eq_ok.mpr ⟨_, [.sceneEntered 2], rfl, .inr ⟨rfl, _, ?_, rfl⟩⟩
    exact State.run_succ_eq_ok.mpr ⟨_, _, rfl, .inl ⟨rfl, rfl, rfl⟩⟩
  have htick : (after shortcut []).tick shortcut none = _ := tick_of_run rfl rfl rfl rfl hrun
  rw [htick]
  rfl

/-- The run jumps from within the group to the last scene and waits there. -/
theorem ne_endless_shortcut :
    shortcut.Acyclic ∧ shortcut.JumpsForward ∧ shortcut.sceneWeights = [6, 2, 2] ∧
      shortcut.sceneWeights.sum ≤ State.maxSteps ∧
      ((after shortcut []).tick shortcut none).2 =
        .ok ⟨[.sceneEntered 0, .sceneEntered 2, .say "" "At last"], .click⟩ ∧
      ∀ limit, ((after shortcut []).tick shortcut none).2 ≠ .error (.endless limit) := by
  have hweights : shortcut.sceneWeights = [6, 2, 2] := by decide +kernel
  have hweight : shortcut.sceneWeights.sum ≤ State.maxSteps := by
    rw [hweights]
    decide
  exact ⟨acyclic_shortcut, jumpsForward_shortcut, hweights, hweight, tick_shortcut,
    ne_endless_of_weight acyclic_shortcut jumpsForward_shortcut hweight [] none⟩

end Interpreter
end SceneScript
