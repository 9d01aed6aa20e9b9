import SceneScript.Proofs.Run.Behind
import SceneScript.Proofs.Run.OpenGroups
import SceneScript.Proofs.Run.Standing

/-! # Nothing behind the position

Whether the story goes on behind a command is asked from list to list outwards, on the project alone.
A run goes the same way out: it leaves one list after the other, and where nothing is found on this
way it reaches the end of the last scene.
-/

namespace SceneScript

/-! ## The way out -/

namespace State

variable {project : Project} {position : Position} {depth : Nat} {index : Index}
  {commands : List Command}

theorem end_of_not_hasCommandBehind_zero
    (hlist : project.listAt position.scene (position.frames.take 0) = .ok commands)
    (hbehind : hasCommandBehind project position 0 index = .ok false) :
    (index + 1).of? commands = none ∧ project.scene? (position.scene + 1) = none := by
  by_cases hnext : index.HasNext
  · cases hcommand : (index + 1).of? commands with
    | some command =>
        cases (hasCommandBehind_of_command hlist hnext hcommand).symm.trans hbehind
    | none =>
        rw [hasCommandBehind_zero hlist hnext hcommand, Except.ok.injEq] at hbehind
        exact ⟨rfl, by simpa using hbehind⟩
  · cases (hasCommandBehind_of_last hlist hnext).symm.trans hbehind

theorem end_of_not_hasCommandBehind_succ {frame : Frame}
    (hframe : position.frames[depth]? = some frame)
    (hlist : project.listAt position.scene (position.frames.take (depth + 1)) = .ok commands)
    (hbehind : hasCommandBehind project position (depth + 1) index = .ok false) :
    (index + 1).of? commands = none ∧
      hasCommandBehind project position depth frame.owner = .ok false := by
  by_cases hnext : index.HasNext
  · cases hcommand : (index + 1).of? commands with
    | some command =>
        cases (hasCommandBehind_of_command hlist hnext hcommand).symm.trans hbehind
    | none => exact ⟨rfl, (hasCommandBehind_succ hframe hlist hnext hcommand).symm.trans hbehind⟩
  · cases (hasCommandBehind_of_last hlist hnext).symm.trans hbehind

/-- From behind a command with nothing behind it, the run leaves one list after the other and ends. -/
theorem run_of_not_hasCommandBehind {state : State} {limit : Nat}
    (hlist : project.listAt position.scene (position.frames.take depth) = .ok commands)
    (hdepth : depth ≤ position.frames.length)
    (hbehind : hasCommandBehind project position depth index = .ok false)
    (hposition : state.position = ⟨position.scene, position.frames.take depth, index + 1⟩)
    (hpaused : state.isPaused = false) :
    ∃ command, state.run project limit (depth + 1) =
      ({ state with position := ⟨position.scene, [], command⟩, finished := true },
        .ok [.halted]) := by
  induction depth generalizing state index commands with
  | zero =>
      obtain ⟨hend, hlast⟩ := end_of_not_hasCommandBehind_zero hlist hbehind
      have hstep : state.step project = .ok ({ state with finished := true }, [.halted]) := by
        refine step_iff.mpr (.halt ⟨commands, ?_, ?_⟩ ?_ ?_)
        · rw [hposition]
          exact hlist
        · rw [hposition]
          exact hend
        · rw [Position.leave?_eq_none, hposition]
          rfl
        · rw [hposition]
          exact hlast
      rw [List.take_zero] at hposition
      refine ⟨index + 1, run_succ_eq_ok.mpr ⟨_, _, hstep, .inl ⟨by simp [isPaused], ?_, rfl⟩⟩⟩
      rw [← hposition]
  | succ depth ih =>
      obtain ⟨frame, hframe⟩ : ∃ frame, position.frames[depth]? = some frame :=
        ⟨_, List.getElem?_eq_getElem hdepth⟩
      have htake : position.frames.take (depth + 1) = position.frames.take depth ++ [frame] := by
        rw [List.take_add_one, hframe]
        rfl
      obtain ⟨hend, houter⟩ := end_of_not_hasCommandBehind_succ hframe hlist hbehind
      have hstep : state.step project = .ok
          ({ state with position := ⟨position.scene, position.frames.take depth, frame.owner + 1⟩ },
            []) := by
        refine step_iff.mpr (.leave ⟨commands, ?_, ?_⟩ ?_)
        · rw [hposition]
          exact hlist
        · rw [hposition]
          exact hend
        · exact Position.leave?_eq_some.mpr ⟨position.frames.take depth, frame,
            by rw [hposition, htake], Position.hasNext_owner (htake ▸ hlist), by rw [hposition]⟩
      rw [htake] at hlist
      obtain ⟨around, haround, -⟩ := Project.listAt_eq_ok_append.mp hlist
      have hnext : ({ state with position :=
          ⟨position.scene, position.frames.take depth, frame.owner + 1⟩ } : State).position =
          ⟨position.scene, position.frames.take depth, frame.owner + 1⟩ := rfl
      obtain ⟨command, hrun⟩ := ih haround (Nat.le_of_succ_le hdepth) houter hnext hpaused
      exact ⟨command, run_succ_eq_ok.mpr ⟨_, _, hstep, .inr ⟨hpaused, _, hrun, rfl⟩⟩⟩

end State

/-! ## The click at the end -/

/-- The state behind the dialogue that a click has answered. -/
def State.clicked (state : State) : State :=
  { state with waiting := .nothing, position := state.position.forward }

namespace Interpreter

variable {project : Project} {interpreter : Interpreter}

theorem opensOnce_after (project : Project) (inputs : List (Option Input)) :
    (after project inputs).state.OpensOnce := by
  have hkept : ∀ (interpreter : Interpreter) (input : Option Input),
      interpreter.state.OpensOnce → (interpreter.tick project input).1.state.OpensOnce :=
    fun _ input h => opensOnce_tick h input
  exact after_induction (opensOnce_new project) hkept inputs

/-- The click ends the run if its way out of the lists fits into the steps of one tick. -/
theorem Stands.click_of_no_following (h : interpreter.Stands project)
    (hdepth : interpreter.state.position.depth < State.maxSteps)
    (hwaiting : interpreter.state.waiting = .click)
    (hfollowing : interpreter.state.hasFollowingContent project = .ok false) :
    ∃ command, interpreter.tick project (some .click) =
      (⟨{ interpreter.state with
            position := ⟨interpreter.state.position.scene, [], command⟩
            waiting := .nothing
            finished := true }, true⟩, .ok ⟨[.halted], .nothing⟩) := by
  have hwaits : interpreter.state.waiting ≠ .nothing := by
    rw [hwaiting]
    exact nofun
  have hstands := h.of_waiting hwaits
  obtain ⟨commands, hlist⟩ := hstands.found
  have hfinished : interpreter.state.finished = false := hstands.runs hwaits
  have hbegin : interpreter.begin project = (interpreter.state, .ok []) := by
    rcases begin_cases project interpreter with heq | ⟨hstarted, -⟩
    · exact heq
    · exact absurd (h.unbegun hstarted) hwaits
  have htake : take project (some .click) interpreter.state =
      (interpreter.state.clicked, .ok []) := by
    simp only [take, State.answer, hwaiting, Position.advance_of_hasNext hstands.hasNext]
    rfl
  have hpaused : interpreter.state.clicked.isPaused = false :=
    State.isPaused_eq_false.mpr ⟨rfl, hfinished⟩
  have hbehind : State.hasCommandBehind project interpreter.state.position
      interpreter.state.position.frames.length interpreter.state.position.command = .ok false := by
    simpa [State.hasFollowingContent, hfinished] using hfollowing
  have hlevel : project.listAt interpreter.state.position.scene
      (interpreter.state.position.frames.take interpreter.state.position.frames.length) =
        .ok commands := by
    rw [List.take_length]
    exact hlist
  have hposition : interpreter.state.clicked.position = ⟨interpreter.state.position.scene,
      interpreter.state.position.frames.take interpreter.state.position.frames.length,
      interpreter.state.position.command + 1⟩ := by
    rw [List.take_length]
    rfl
  obtain ⟨command, hrun⟩ := State.run_of_not_hasCommandBehind hlevel (Nat.le_refl _) hbehind
    hposition hpaused
  have hwhole := State.run_of_le (Nat.succ_le_of_lt hdepth) hrun nofun
  exact ⟨command, tick_of_run hfinished hbegin htake rfl hwhole⟩

/-- On every run of a project that nests less deep than a tick has steps: where nothing follows the
dialogue that waits for a click, the click brings nothing but the end. -/
theorem halts_of_no_following
    (hnesting : ∀ scene ∈ project.scenes, project.nestedDepth scene.commands < State.maxSteps)
    (inputs : List (Option Input)) (hwaiting : (after project inputs).state.waiting = .click)
    (hfollowing : (after project inputs).state.hasFollowingContent project = .ok false) :
    ((after project inputs).tick project (some .click)).2 = .ok ⟨[.halted], .nothing⟩ ∧
      ((after project inputs).tick project (some .click)).1.state.finished = true := by
  have hrun := stands_after project inputs
  obtain ⟨commands, hlist⟩ := (hrun.of_waiting (by rw [hwaiting]; exact nofun)).found
  obtain ⟨scene, hscene⟩ := Position.exists_scene_of_resolve hlist
  have hdepth := (opensOnce_after project inputs).depth_le hscene hlist
  have hlimit := hnesting scene (Project.mem_scenes_of_scene? hscene)
  obtain ⟨command, htick⟩ :=
    hrun.click_of_no_following (Nat.lt_of_le_of_lt hdepth hlimit) hwaiting hfollowing
  rw [htick]
  exact ⟨rfl, rfl⟩

/-- The last words stand in a group that is called from a branch. -/
def farewell : Project where
  flags := [{ id := "f", name := "kind", value := true }]
  scenes := [{ id := "s", commands := [⟨"b", .branching ""
    [.onFlag .if "kind" .eq true [⟨"c", .call "goodbye"⟩]]⟩] }]
  sharedCommands := [{ id := "goodbye", commands := [.dialogue "d" "" "Farewell" []] }]

/-- The run at its last words. -/
def parting : State := { State.initial farewell with
  position := ⟨0, [.branch 0 0, .group 0 "goodbye"], 0⟩
  waiting := .click }

theorem after_farewell : after farewell [none] = ⟨parting, true⟩ := by
  have hcheck : farewell.checkGroup "goodbye" = .ok () := by cbv
  have hrun : (State.initial farewell).run farewell State.maxSteps State.maxSteps =
      (parting, .ok [.say "" "Farewell"]) := by
    refine State.run_succ_eq_ok.mpr ⟨_, [], rfl, .inr ⟨rfl, _, ?_, rfl⟩⟩
    refine State.run_succ_eq_ok.mpr ⟨_, [], State.step_of_call rfl hcheck, .inr ⟨rfl, _, ?_, rfl⟩⟩
    exact State.run_succ_eq_ok.mpr ⟨_, _, rfl, .inl ⟨rfl, rfl, rfl⟩⟩
  exact congrArg Prod.fst (tick_of_run rfl rfl rfl rfl hrun)

/-- The click leads out of the group, the branch and the scene. -/
theorem halts_farewell :
    (∀ scene ∈ farewell.scenes, farewell.nestedDepth scene.commands < State.maxSteps) ∧
      (after farewell [none]).state.position = ⟨0, [.branch 0 0, .group 0 "goodbye"], 0⟩ ∧
      (after farewell [none]).state.waiting = .click ∧
      (after farewell [none]).state.hasFollowingContent farewell = .ok false ∧
      ((after farewell [none]).tick farewell (some .click)).2 = .ok ⟨[.halted], .nothing⟩ ∧
      ((after farewell [none]).tick farewell (some .click)).1.state.finished = true := by
  have hnesting : ∀ scene ∈ farewell.scenes,
      farewell.nestedDepth scene.commands < State.maxSteps := by
    decide +kernel
  have hwaiting : (after farewell [none]).state.waiting = .click := by
    rw [after_farewell]
    rfl
  have hfollowing : (after farewell [none]).state.hasFollowingContent farewell = .ok false := by
    rw [after_farewell]
    rfl
  exact ⟨hnesting, by rw [after_farewell]; rfl, hwaiting, hfollowing,
    halts_of_no_following hnesting [none] hwaiting hfollowing⟩

end Interpreter
end SceneScript
