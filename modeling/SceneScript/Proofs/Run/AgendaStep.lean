import SceneScript.Proofs.Run.Agenda
import SceneScript.Proofs.Run.Remaining
import SceneScript.Proofs.Run.Step

/-! # Steps of positions and of lists of commands

A state with a position steps like the list of the commands that are left behind the position. Each
step of the state is a step of the list, or leaves a list that has ended and changes nothing.
-/

namespace SceneScript

/-! ## Variables and branches -/

theorem clampVariable_eq (value : Int) :
    clampVariable value = .ofNat (max 0 (min 255 value)).toNat := by
  unfold clampVariable
  congr 1
  omega

/-- Nothing is lost where the exact result does not fit in 64 bits. -/
theorem clampVariable_saturate (value : Int) :
    clampVariable (saturate value).toInt = clampVariable value := by
  have hmin : Int64.minValue.toInt = -9223372036854775808 := rfl
  have hmax : Int64.maxValue.toInt = 9223372036854775807 := rfl
  unfold clampVariable saturate
  rw [Int64.toInt_ofInt_of_le (by omega) (by omega)]
  congr 1
  omega

theorem VariableOp.apply_eq_bounded (op : VariableOp) (current : UInt8) (operand : Int64) :
    op.apply current operand = op.bounded current operand := by
  cases op with
  | set => exact clampVariable_eq _
  | add => exact (clampVariable_saturate _).trans (clampVariable_eq _)
  | subtract => exact (clampVariable_saturate _).trans (clampVariable_eq _)

/-- The first branch that holds is found by its place and by its body alike. -/
theorem Branch.firstBody_agrees (symbols : Symbols) (branches : List (Branch Command))
    (place : Index) (hsize : place.toNat + branches.length < UInt64.size) :
    (∃ chosen taken,
        Condition.firstHolding (m := Id) symbols (branches.map (·.condition)) place =
          .ok (some chosen) ∧
        place.toNat ≤ chosen.toNat ∧ branches[chosen.toNat - place.toNat]? = some taken ∧
        firstBody symbols branches = .ok (some taken.body)) ∨
      (Condition.firstHolding (m := Id) symbols (branches.map (·.condition)) place = .ok none ∧
        firstBody symbols branches = .ok none) ∨
      ∃ fault,
        Condition.firstHolding (m := Id) symbols (branches.map (·.condition)) place =
          .error fault ∧
        firstBody symbols branches = .error fault := by
  induction branches generalizing place with
  | nil => exact .inr (.inl ⟨rfl, rfl⟩)
  | cons branch rest ih =>
      rw [List.length_cons] at hsize
      have hnext : (place + 1).toNat = place.toNat + 1 := by
        rw [UInt64.toNat_add]
        exact Nat.mod_eq_of_lt (by simp only [UInt64.size] at hsize; simp; omega)
      simp only [List.map_cons, Condition.firstHolding, firstBody, bind, pure]
      cases hholds : branch.condition.evaluate (m := Id) symbols with
      | error fault => exact .inr (.inr ⟨fault, rfl, rfl⟩)
      | ok holds =>
          cases holds with
          | true => exact .inl ⟨place, branch, rfl, Nat.le_refl _, by simp, rfl⟩
          | false =>
              rcases ih (place + 1) (by omega) with ⟨chosen, taken, hplace, hle, htaken, hbody⟩ |
                hnone | hfault
              · refine .inl ⟨chosen, taken, hplace, by omega, ?_, hbody⟩
                have hback : chosen.toNat - place.toNat = chosen.toNat - (place + 1).toNat + 1 := by
                  omega
                rw [hback, List.getElem?_cons_succ]
                exact htaken
              · exact .inr (.inl hnone)
              · exact .inr (.inr hfault)

theorem Branch.selectBody_agrees (symbols : Symbols) {branches : List (Branch Command)}
    (hsize : branches.length < UInt64.size) :
    (∃ chosen taken,
        Condition.select (m := Id) (branches.map (·.condition)) symbols = .ok (some chosen) ∧
        branches[chosen.toNat]? = some taken ∧
        selectBody branches symbols = .ok (some taken.body)) ∨
      (Condition.select (m := Id) (branches.map (·.condition)) symbols = .ok none ∧
        selectBody branches symbols = .ok none) ∨
      ∃ fault, Condition.select (m := Id) (branches.map (·.condition)) symbols = .error fault ∧
        selectBody branches symbols = .error fault := by
  unfold Condition.select selectBody
  cases hstructure : Condition.checkStructure (branches.map (·.condition)) with
  | error fault => exact .inr (.inr ⟨fault, rfl, rfl⟩)
  | ok _ =>
      rcases firstBody_agrees symbols branches 0 (by simpa using hsize) with
        ⟨chosen, taken, hplace, -, htaken, hbody⟩ | hnone | hfault
      · exact .inl ⟨chosen, taken, hplace, htaken, hbody⟩
      · exact .inr (.inl hnone)
      · exact .inr (.inr hfault)

/-! ## Commands -/

/-- A state, with these commands to do. -/
def State.agenda (state : State) (started : Bool) (commands : List Command) : Agenda where
  scene := state.position.scene
  commands := commands
  flags := state.flags
  vars := state.vars
  stage := state.stage
  waiting := state.waiting
  finished := state.finished
  started := started

/-- What is to do behind a command of the list, when `rest` stands behind it. -/
def Execution.agenda (project : Project) (list : List Command) (started : Bool)
    (commands rest : List Command) (execution : Execution) : Except Fault (Agenda × List Effect) :=
  match execution.flow with
  | .next => .ok (execution.state.agenda started rest, execution.effects)
  | .enter frame => do
    let body ← frame.innerList project list
    return (execution.state.agenda started (body ++ rest), execution.effects)
  | .jump target => do
    let scene ← project.sceneAt target
    let (agenda, entered) := (execution.state.agenda started rest).enter target scene
    return (agenda, execution.effects ++ entered)
  | .wait reason =>
    .ok ({ execution.state.agenda started commands with waiting := reason }, execution.effects)

/-- A command does the same to a state and to a list of commands. -/
theorem Agenda.perform_eq {project : Project} {state : State} {started : Bool}
    {list commands rest : List Command} {index : Index} {command : Command}
    (hcommand : Index.of? index list = some command)
    (hsize : command.branches.length < UInt64.size) :
    (state.agenda started commands).perform project rest command.action =
      command.action.execute project state index >>=
        Execution.agenda project list started commands rest := by
  obtain ⟨id, action⟩ := command
  cases action with
  | dialogue speaker text choices => cases choices <;> rfl
  | branching label branches =>
      have hcount : branches.length < UInt64.size := hsize
      rcases Branch.selectBody_agrees state.symbols hcount with
        ⟨chosen, taken, hselect, htaken, hbody⟩ | ⟨hselect, hbody⟩ | ⟨fault, hselect, hbody⟩
      · have hinner : (Frame.branch index chosen).innerList project list = .ok taken.body :=
          Frame.innerList_eq_ok.mpr ⟨_, hcommand, label, branches, taken, rfl, htaken, rfl⟩
        simp only [Agenda.perform, Action.execute_branching, hselect]
        change (Branch.selectBody branches state.symbols >>= _) = _
        rw [hbody]
        simp only [Execution.agenda, bind, Except.bind, hinner]
        rfl
      · simp only [Agenda.perform, Action.execute_branching, hselect]
        change (Branch.selectBody branches state.symbols >>= _) = _
        rw [hbody]
        rfl
      · simp only [Agenda.perform, Action.execute_branching, hselect]
        change (Branch.selectBody branches state.symbols >>= _) = _
        rw [hbody]
        rfl
  | setFlag name value =>
      simp only [Agenda.perform, Action.execute_setFlag, State.setFlag, State.agenda]
      cases state.flags.find? name <;> rfl
  | setVariable name operation operand =>
      simp only [Agenda.perform, Action.execute_setVariable, State.changeVariable, State.agenda,
        VariableOp.apply_eq_bounded]
      cases state.vars.find? name <;> rfl
  | call group =>
      have hinner : (Frame.group index group).innerList project list =
          (project.groupAt group).map (·.commands) := by
        unfold Frame.innerList
        rw [Frame.owner, hcommand]
        exact if_pos rfl
      simp only [Agenda.perform, Action.execute_call]
      cases project.checkGroup group with
      | error fault => rfl
      | ok _ =>
          change (project.groupAt group >>= _) = (Frame.innerList project list _ >>= _)
          rw [hinner]
          cases project.groupAt group <;> rfl
  | goto target withTransition =>
      simp only [Agenda.perform, Action.execute_goto]
      cases hscene : project.sceneAt target with
      | error fault => rfl
      | ok scene =>
          cases withTransition with
          | true => rfl
          | false =>
              change _ = (project.sceneAt target >>= _)
              rw [hscene]
              rfl
  | _ => rfl

/-! ## Steps -/

namespace State

variable {project : Project} {state next : State} {started : Bool} {commands : List Command}
  {effects : List Effect} {fault : Fault}

/-- The command at the position is the first one to do. -/
theorem agenda_perform (haddressable : project.Addressable)
    (hremaining : state.position.Remaining project commands) {command : Command}
    (hcommand : project.commandAt state.position = .ok command) :
    ∃ list rest, project.resolve state.position = .ok list ∧
      Index.of? state.position.command list = some command ∧
      state.position.forward.Remaining project rest ∧
      (state.agenda started commands).step project =
        command.action.execute project state state.position.command >>=
          Execution.agenda project list started commands rest := by
  obtain ⟨list, hlist, hplace⟩ := Position.commandAt_eq_ok.mp hcommand
  obtain ⟨rest, rfl, hrest⟩ := hremaining.exists_cons hcommand
  have hmem : command ∈ Command.listSubcommands list :=
    Command.mem_listSubcommands_of_mem (Index.mem_of_of? hplace)
  have hsize : command.branches.length < UInt64.size :=
    Nat.lt_of_le_of_lt ((haddressable.listAt hlist).2 command hmem).1 (by decide)
  exact ⟨list, rest, hlist, hplace, hrest, Agenda.perform_eq hplace hsize⟩

/-- The scene behind the current one, counted without wrapping. -/
theorem agenda_step_nil (haddressable : project.Addressable) {list : List Command}
    (hlist : project.resolve state.position = .ok list) :
    (state.agenda started []).step project =
      match project.scene? (state.position.scene + 1) with
      | some scene => .ok ((state.agenda started []).enter (state.position.scene + 1) scene)
      | none => .ok ({ state.agenda started [] with finished := true }, [.halted]) := by
  obtain ⟨scene, hscene⟩ := Position.exists_scene_of_resolve hlist
  rw [Project.scene?, Index.of?_of_length_le haddressable.scenes, Index.toNat_succ hscene]
  rfl

/-- A step leaves a list that has ended, or is a step of the commands to do. -/
theorem agenda_step (started : Bool) (haddressable : project.Addressable)
    (hremaining : state.position.Remaining project commands)
    (hstep : state.step project = .ok (next, effects)) :
    ∃ later, next.position.Remaining project later ∧
      ((next.agenda started later = state.agenda started commands ∧ effects = []) ∨
        (state.agenda started commands).step project =
          .ok (next.agenda started later, effects)) := by
  cases step_iff.mp hstep with
  | @leave position hend hleave =>
      obtain ⟨list, hlist, hplace⟩ := hend
      have hlight := (haddressable.listAt hlist).1
      refine ⟨commands, hremaining.leave hlist hlight hplace hleave, .inl ⟨?_, rfl⟩⟩
      obtain ⟨frames, frame, -, -, rfl⟩ := Position.leave?_eq_some.mp hleave
      rfl
  | @fall scene hend hleave hscene =>
      obtain ⟨list, hlist, hplace⟩ := hend
      obtain rfl := hremaining.eq_nil hlist (haddressable.listAt hlist).1 hplace hleave
      refine ⟨scene.commands, .sceneStart hscene, .inr ?_⟩
      rw [agenda_step_nil haddressable hlist, hscene]
      rfl
  | halt hend hleave hlast =>
      obtain ⟨list, hlist, hplace⟩ := hend
      obtain rfl := hremaining.eq_nil hlist (haddressable.listAt hlist).1 hplace hleave
      refine ⟨[], hremaining, .inr ?_⟩
      rw [agenda_step_nil haddressable hlist, hlast]
      rfl
  | @advance execution hdone hflow =>
      obtain ⟨command, hcommand, hexecute⟩ := hdone
      obtain ⟨list, rest, -, -, hrest, hperform⟩ :=
        agenda_perform haddressable hremaining hcommand
      have done := Action.execute_done hexecute
      refine ⟨rest, by rw [done.position_eq]; exact hrest, .inr ?_⟩
      rw [hperform, hexecute]
      simp only [bind, Except.bind, Execution.agenda, hflow]
      rfl
  | @enter execution frame hdone hflow =>
      obtain ⟨command, hcommand, hexecute⟩ := hdone
      obtain ⟨list, rest, hlist, hplace, hrest, hperform⟩ :=
        agenda_perform haddressable hremaining hcommand
      have done := Action.execute_done hexecute
      have hleads := done.leads
      rw [hflow] at hleads
      obtain ⟨body, hbody⟩ := Frame.exists_innerList_of_leads hplace hleads
      refine ⟨body ++ rest, ?_, .inr ?_⟩
      · rw [done.position_eq]
        exact hrest.enter (Frame.owner_of_leads hleads) hlist hbody
      · rw [hperform, hexecute]
        simp only [bind, Except.bind, Execution.agenda, hflow, hbody]
        rfl
  | @jump execution target scene hdone hflow hscene =>
      obtain ⟨command, hcommand, hexecute⟩ := hdone
      obtain ⟨list, rest, -, -, -, hperform⟩ := agenda_perform haddressable hremaining hcommand
      refine ⟨scene.commands, .sceneStart hscene, .inr ?_⟩
      rw [hperform, hexecute]
      simp only [bind, Except.bind, Execution.agenda, hflow, Project.sceneAt_eq_ok.mpr hscene]
      rfl
  | @wait execution reason hdone hflow =>
      obtain ⟨command, hcommand, hexecute⟩ := hdone
      obtain ⟨list, rest, -, -, -, hperform⟩ := agenda_perform haddressable hremaining hcommand
      have done := Action.execute_done hexecute
      refine ⟨commands, by rw [done.position_eq]; exact hremaining, .inr ?_⟩
      rw [hperform, hexecute]
      simp only [bind, Except.bind, Execution.agenda, hflow]
      rfl

/-- Where a step fails, the commands to do fail. -/
theorem agenda_step_error (haddressable : project.Addressable)
    (hremaining : state.position.Remaining project commands)
    (hstep : state.step project = .error fault) :
    (state.agenda started commands).step project = .error fault := by
  rcases step_eq_error.mp hstep with hresolve | ⟨command, hcommand, hexecute⟩
  · obtain ⟨list, hlist⟩ := hremaining.resolve
    rw [hlist] at hresolve
    cases hresolve
  · obtain ⟨list, rest, -, -, -, hperform⟩ := agenda_perform haddressable hremaining hcommand
    rw [hperform, hexecute]
    rfl

/-- A run that is not cut off runs like the commands to do. -/
theorem agenda_runs (started : Bool) (haddressable : project.Addressable) {limit steps : Nat}
    {final : State} {result : Except Fault (List Effect)}
    (hremaining : state.position.Remaining project commands)
    (hpaused : state.isPaused = false) (hrun : state.run project limit steps = (final, result))
    (hends : result ≠ .error (.endless limit)) :
    ∃ later, final.position.Remaining project later ∧
      Agenda.Runs project (state.agenda started commands) (final.agenda started later) result := by
  induction steps generalizing state commands final result with
  | zero =>
      cases hrun
      exact absurd rfl hends
  | succ steps ih =>
      unfold run at hrun
      split at hrun
      · next fault hstep =>
          cases hrun
          exact ⟨commands, hremaining, .fails (agenda_step_error haddressable hremaining hstep)⟩
      · next next effects hstep =>
          obtain ⟨later, hlater, hagenda⟩ := agenda_step started haddressable hremaining hstep
          split at hrun
          · next hnext =>
              cases hrun
              rcases hagenda with ⟨hsame, -⟩ | hagenda
              · -- A list that is left does not pause the run.
                have hsteady : final.isPaused = state.isPaused :=
                  congrArg Agenda.isPaused hsame
                rw [hpaused, hnext] at hsteady
                cases hsteady
              · exact ⟨later, hlater, .pauses hagenda hnext⟩
          · next hnext =>
              rw [Bool.not_eq_true] at hnext
              cases hrest : next.run project limit steps with
              | mk last rest =>
                  rw [hrest] at hrun
                  cases hrun
                  have hgoes : rest ≠ .error (.endless limit) := by
                    rintro rfl
                    exact hends rfl
                  obtain ⟨commands', hcommands', hruns⟩ := ih hlater hnext hrest hgoes
                  refine ⟨commands', hcommands', ?_⟩
                  rcases hagenda with ⟨hsame, rfl⟩ | hagenda
                  · rw [← hsame]
                    cases rest <;> exact hruns
                  · exact .goes hagenda hnext hruns

end State
end SceneScript
