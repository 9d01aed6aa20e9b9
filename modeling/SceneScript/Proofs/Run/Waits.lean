import SceneScript.Proofs.Run.Execution

/-! # Commands that make a run wait

Whether a command that succeeds makes a run wait, and for what, is fixed by the command alone: a
dialogue waits for its answer, and a jump with a transition for the end of that transition. Only
the dialogues are counted by `Command.causesWait`.
-/

namespace SceneScript

/-- What the run waits for behind the command, if it waits. -/
def Flow.waiting? : Flow → Option Waiting
  | .wait reason => some reason
  | _ => none

/-- The wait that an action leads to, as far as it can be told from the action. -/
def Action.wait? {α : Type} : Action α → Option Waiting
  | .dialogue _ _ [] => some .click
  | .dialogue _ _ choices => some (.choice (.ofNat choices.length))
  | .goto target true => some (.transition target)
  | _ => none

/-- A jump with a transition. -/
def Command.departs (command : Command) : Bool :=
  match command.action with
  | .goto _ withTransition => withTransition
  | _ => false

theorem Action.waiting?_execute {project : Project} {state : State} {index : Index}
    {action : Action Command} {execution : Execution}
    (h : action.execute project state index = .ok execution) :
    execution.flow.waiting? = action.wait? := by
  cases action with
  | dialogue speaker text choices => cases choices <;> cases h <;> rfl
  | branching label branches =>
      rw [execute_branching] at h
      split at h <;> cases h <;> rfl
  | setFlag _ _ | setVariable _ _ _ | call _ =>
      simp only [execute_setFlag, execute_setVariable, execute_call, bind_eq_ok, pure_eq_ok] at h
      obtain ⟨_, -, rfl⟩ := h
      rfl
  | goto target withTransition =>
      rw [execute_goto, bind_eq_ok] at h
      obtain ⟨_, -, h⟩ := h
      cases withTransition <;> cases h <;> rfl
  | _ => cases h; rfl

namespace Command

theorem isSome_wait? (command : Command) :
    command.action.wait?.isSome = (command.causesWait || command.departs) := by
  obtain ⟨id, action⟩ := command
  cases action with
  | dialogue speaker text choices => cases choices <;> rfl
  | goto target withTransition => cases withTransition <;> rfl
  | _ => rfl

theorem departs_eq_false_of_causesWait {command : Command} (h : command.causesWait) :
    command.departs = false := by
  obtain ⟨id, action⟩ := command
  cases action with
  | dialogue speaker text choices => rfl
  | _ => cases h

/-- A command that succeeds makes the run wait for what the command says, and for nothing else. So
`causesWait` tells whether it waits exactly as long as the command is no jump with a transition. -/
theorem waits_iff {project : Project} {state : State} {index : Index} {command : Command}
    {execution : Execution} (h : command.action.execute project state index = .ok execution) :
    execution.flow.waiting? = command.action.wait? ∧
      ((execution.flow.waiting?.isSome ↔ command.causesWait) ↔ command.departs = false) := by
  have hwait := Action.waiting?_execute h
  refine ⟨hwait, ?_⟩
  rw [hwait, isSome_wait?]
  cases hcauses : command.causesWait with
  | true => simp [departs_eq_false_of_causesWait hcauses]
  | false => simp

/-- A corridor whose only command leads to a second scene, with a transition. -/
def leaveCorridor : Command := ⟨"leave", .goto 1 true⟩

def corridor : Project where
  scenes := [{ id := "corridor", commands := [leaveCorridor] }, { id := "yard" }]

theorem waits_iff_leaveCorridor :
    leaveCorridor.action.execute corridor (.initial corridor) 0 =
        .ok ⟨.initial corridor, [.beginTransition 0 1], .wait (.transition 1)⟩ ∧
      (Flow.wait (.transition 1)).waiting? = leaveCorridor.action.wait? ∧
      ¬((Flow.wait (.transition 1)).waiting?.isSome ↔ leaveCorridor.causesWait) := by
  have hexecute : leaveCorridor.action.execute corridor (.initial corridor) 0 =
      .ok ⟨.initial corridor, [.beginTransition 0 1], .wait (.transition 1)⟩ := rfl
  obtain ⟨hwait, hpredicts⟩ := waits_iff hexecute
  refine ⟨hexecute, hwait, ?_⟩
  rw [hpredicts]
  exact Bool.noConfusion

/-- So `causesWait` does not tell of every command whether it makes the run wait. -/
theorem not_waits_iff_causesWait :
    ¬∀ (project : Project) (state : State) (index : Index) (command : Command)
      (execution : Execution), command.action.execute project state index = .ok execution →
        (execution.flow.waiting?.isSome ↔ command.causesWait) := by
  intro h
  have hleave := h corridor (.initial corridor) 0 leaveCorridor _ rfl
  cases hleave.mp rfl

end Command
end SceneScript
