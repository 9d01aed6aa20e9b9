import SceneScript.Proofs.Run.Overrun
import SceneScript.Proofs.Save.Continuation

/-! # Saved places outside of the script

A saved game may name any place. Only the last index of all has no next one; from every other place
without a command the place is reported, or the run goes on behind the list. A run never begins a
list anew.
-/

namespace SceneScript

/-! ## Places without a command -/

/-- No command stands at the position. -/
def Position.Astray (project : Project) (position : Position) : Prop :=
  ∀ command, project.commandAt position ≠ .ok command

/-- Both states stand in the same list. From the later one, where no command stands, a step reports
the place or leaves the list. -/
structure State.RunsOff (project : Project) (state taken : State) : Prop where
  scene : taken.position.scene = state.position.scene
  frames : taken.position.frames = state.position.frames
  astray : taken.position.Astray project
  leaves : (∃ fault, project.resolve state.position = .error fault ∧
      taken.step project = .error fault) ∨
    taken.AtEnd project ∧ taken.step project = taken.endList project

namespace State

variable {project : Project} {state taken : State}

theorem step_of_astray (h : state.position.Astray project) :
    (∃ fault, project.resolve state.position = .error fault ∧
        state.step project = .error fault) ∨
      state.AtEnd project ∧ state.step project = state.endList project := by
  cases hlist : project.resolve state.position with
  | error fault => exact .inl ⟨fault, rfl, step_eq_error.mpr (.inl hlist)⟩
  | ok commands =>
      cases hplace : Index.of? state.position.command commands with
      | some command =>
          exact absurd (Position.commandAt_eq_ok.mpr ⟨commands, hlist, hplace⟩) (h command)
      | none =>
          have hend : state.AtEnd project := ⟨commands, hlist, hplace⟩
          exact .inr ⟨hend, step_of_atEnd hend⟩

theorem runsOff_of_astray (hscene : taken.position.scene = state.position.scene)
    (hframes : taken.position.frames = state.position.frames)
    (h : taken.position.Astray project) : state.RunsOff project taken := by
  have hsame : project.resolve taken.position = project.resolve state.position := by
    unfold Project.resolve
    rw [hscene, hframes]
  have hleaves := step_of_astray h
  rw [hsame] at hleaves
  exact ⟨hscene, hframes, h, hleaves⟩

/-- Behind the end of a list there is no command either, as long as there is a next index. -/
theorem astray_forward {position : Position} (h : position.Astray project)
    (hnext : position.command.HasNext) : position.forward.Astray project := by
  intro command hcommand
  obtain ⟨commands, hlist, hplace⟩ := Position.commandAt_eq_ok.mp hcommand
  obtain ⟨hcapacity, hitem⟩ := Index.of?_eq_some.mp hplace
  have hadvanced : position.forward.command.toNat = position.command.toNat + 1 := hnext.toNat_succ
  have hbelow : position.command.toNat < Index.capacity := by omega
  have hbefore : position.command.toNat < commands.length := by
    have hwithin := Index.lt_length_of_of? hplace
    omega
  refine h commands[position.command.toNat] (Position.commandAt_eq_ok.mpr ⟨commands, hlist, ?_⟩)
  rw [Index.of?_of_lt hbelow, List.getElem?_eq_getElem hbefore]

/-- An input leaves the run outside of the script, or ends a transition. -/
theorem runsOff_take {input : Option Input} (h : state.position.Astray project) :
    (∃ target, state.waiting = .transition target ∧ input = some .transitionFinished) ∨
      state.RunsOff project (Interpreter.take project input state).1 := by
  have hkept : state.RunsOff project state := runsOff_of_astray rfl rfl h
  cases input with
  | none => exact .inr hkept
  | some given =>
      have hanswers := answers project state given
      change _ ∨ state.RunsOff project (state.answer project given).1
      generalize state.answer project given = outcome at hanswers ⊢
      cases hanswers with
      | ignored | refused _ _ => exact .inr hkept
      | clicked _ hplace => exact .inr (runsOff_of_astray rfl rfl (astray_forward h hplace))
      | stuck _ _ => exact .inr (runsOff_of_astray rfl rfl h)
      | chosen _ hchoose =>
          obtain ⟨command, choice, hcommand, -, -⟩ := exists_pick_of_choose hchoose
          exact absurd hcommand (h command)
      | arrived hwaiting _ => exact .inl ⟨_, hwaiting, rfl⟩
      | lost hwaiting _ => exact .inl ⟨_, hwaiting, rfl⟩

end State

/-! ## Restored runs -/

/-- A restored run overflows exactly if it counts on from the last index of all. From every place
without a command that it comes to, it does not get back into the list. -/
theorem Save.overflows_restore_iff (project : Project) (save : Save)
    (inputs : List (Option Input)) :
    (save.restore.Overflows project inputs ↔ save.state.Overruns project inputs) ∧
    ∀ (earlier : List (Option Input)) (input : Option Input),
      let state := (save.restore.afterTurns (earlier.map (Turn.mk project))).state
      state.finished = false → state.position.Astray project →
        (∃ target, state.waiting = .transition target ∧ input = some .transitionFinished) ∨
          state.RunsOff project (Interpreter.take project input state).1 := by
  refine ⟨Interpreter.overflows_iff rfl, ?_⟩
  intro earlier input state _ hastray
  exact State.runsOff_take hastray

/-! ## Two places outside of a list -/

/-- The one index without a next one. -/
def Index.last : Index := 18446744073709551615

/-- A line in each of two scenes. -/
def twoRooms : Project where
  scenes := [
    { id := "hall", commands := [.dialogue "1" "" "Hello" []] },
    { id := "yard", commands := [.dialogue "2" "" "Bye" []] }]

namespace Save

/-- A game that waits for a click at that place of the first scene. -/
def atPlace (command : Index) : Save :=
  ofState 1 0 { State.initial twoRooms with position := ⟨0, [], command⟩, waiting := .click }

theorem astray_atPlace {command : Index} (h : 1 ≤ command.toNat) :
    (atPlace command).state.position.Astray twoRooms := by
  intro found hfound
  obtain ⟨commands, hlist, hplace⟩ := Position.commandAt_eq_ok.mp hfound
  cases hlist
  exact absurd (Index.lt_length_of_of? hplace) (Nat.not_lt.mpr h)

/-- From the last place but one the click leads out of the first scene, and the second begins. -/
theorem restore_twoRooms :
    ¬(atPlace (.last - 1)).restore.Overflows twoRooms [some .click] ∧
      (atPlace (.last - 1)).state.RunsOff twoRooms
        (Interpreter.take twoRooms (some .click) (atPlace (.last - 1)).state).1 ∧
      ((atPlace (.last - 1)).restore.tick twoRooms (some .click)).2 =
        .ok ⟨[.sceneEntered 1, .say "" "Bye"], .click⟩ := by
  obtain ⟨hoverflows, hruns⟩ :=
    overflows_restore_iff twoRooms (atPlace (.last - 1)) [some .click]
  refine ⟨fun h => (hoverflows.mp h).2.1 (by decide), ?_, rfl⟩
  rcases hruns [] (some .click) rfl (astray_atPlace (by decide)) with ⟨target, hwaiting, -⟩ | hoff
  · cases hwaiting
  · exact hoff

/-- From the last place there is no way on: the click, and the question whether the story goes on,
overflow. -/
theorem overflows_restore_last :
    ofText (atPlace .last).toText = .ok (atPlace .last) ∧
      (atPlace .last).state.position.Astray twoRooms ∧
      (atPlace .last).restore.Overflows twoRooms [some .click] ∧
      ((atPlace .last).restore.tick twoRooms (some .click)).2 = .error .overflow ∧
      (atPlace .last).state.hasFollowingContent twoRooms = .error .overflow := by
  refine ⟨ofText_toText_of_isCompatible rfl, astray_atPlace (by decide), .tick rfl, rfl, ?_⟩
  have hlist : twoRooms.resolve (atPlace .last).state.position =
      .ok [.dialogue "1" "" "Hello" []] := rfl
  exact State.hasFollowingContent_eq_error.mpr ⟨⟨rfl, ⟨_, hlist⟩, by decide⟩, rfl⟩

end Save
end SceneScript
