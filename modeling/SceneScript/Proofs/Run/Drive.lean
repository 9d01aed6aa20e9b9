import SceneScript.Proofs.Sequence
import SceneScript.Run.Interpreter

/-! # Ticks one after the other

A run can be driven on a project that stays as it is, up to the first tick that fails, or on a project
that is edited from tick to tick, whatever the ticks return.
-/

namespace SceneScript

namespace Interpreter

variable {project : Project} {interpreter middle final : Interpreter} {inputs : List (Option Input)}
  {effects : List Effect}

/-! ## Ticks that all succeed -/

/-- A run that is given all inputs, and everything that it brings about. -/
def drive (project : Project) :
    Interpreter → List (Option Input) → Except Fault (Interpreter × List Effect)
  | interpreter, [] => .ok (interpreter, [])
  | interpreter, input :: inputs =>
    match interpreter.tick project input with
    | (next, .ok response) =>
      (drive project next inputs).map fun (final, later) => (final, response.effects ++ later)
    | (_, .error fault) => .error fault

/-- The first tick succeeds, and the others go on from where it ends. -/
theorem drive_cons_eq_ok {input : Option Input} :
    interpreter.drive project (input :: inputs) = .ok (final, effects) ↔
      ∃ next response later, interpreter.tick project input = (next, .ok response) ∧
        next.drive project inputs = .ok (final, later) ∧ effects = response.effects ++ later := by
  rw [drive]
  cases interpreter.tick project input with
  | mk next outcome =>
      cases outcome with
      | error fault => simp
      | ok response =>
          simp only [map_eq_ok, Prod.mk.injEq, Except.ok.injEq, Prod.exists]
          constructor
          · rintro ⟨last, later, hdrive, rfl, rfl⟩
            exact ⟨next, response, later, ⟨rfl, rfl⟩, hdrive, rfl⟩
          · rintro ⟨_, _, later, ⟨rfl, rfl⟩, hdrive, rfl⟩
            exact ⟨final, later, hdrive, rfl, rfl⟩

/-- One more input has its effects behind those before it. -/
theorem drive_concat {input : Option Input} {response : Response}
    (hdrive : interpreter.drive project inputs = .ok (middle, effects))
    (htick : middle.tick project input = (final, .ok response)) :
    interpreter.drive project (inputs ++ [input]) = .ok (final, effects ++ response.effects) := by
  induction inputs generalizing interpreter effects with
  | nil =>
      cases hdrive
      simp [drive, htick, Except.map]
  | cons first rest ih =>
      obtain ⟨next, reply, later, hfirst, hrest, rfl⟩ := drive_cons_eq_ok.mp hdrive
      rw [List.cons_append, drive_cons_eq_ok]
      exact ⟨next, reply, later ++ response.effects, hfirst, ih hrest, List.append_assoc ..⟩

/-- What successful ticks keep, of a run and of all effects so far, a drive keeps. -/
theorem drive_induction {holds : Interpreter → List Effect → Prop} {before : List Effect}
    (start : holds interpreter before)
    (tick : ∀ interpreter before input next response, holds interpreter before →
      interpreter.tick project input = (next, .ok response) →
        holds next (before ++ response.effects))
    (hdrive : interpreter.drive project inputs = .ok (final, effects)) :
    holds final (before ++ effects) := by
  induction inputs generalizing interpreter before effects with
  | nil =>
      cases hdrive
      rwa [List.append_nil]
  | cons input rest ih =>
      obtain ⟨next, response, later, htick, hrest, rfl⟩ := drive_cons_eq_ok.mp hdrive
      rw [← List.append_assoc]
      exact ih (tick _ _ _ _ _ start htick) hrest

end Interpreter

/-! ## Ticks on a project that is edited -/

/-- A tick on the project as it is by then. -/
structure Turn where
  project : Project
  input : Option Input

namespace Interpreter

def afterTurns (interpreter : Interpreter) (turns : List Turn) : Interpreter :=
  turns.foldl (fun interpreter turn => (interpreter.tick turn.project turn.input).1) interpreter

/-- What ticks on every project keep, any sequence of them keeps. -/
theorem afterTurns_induction {holds : Interpreter → Prop} {interpreter : Interpreter}
    (start : holds interpreter)
    (tick : ∀ interpreter project input, holds interpreter →
      holds (interpreter.tick project input).1) (turns : List Turn) :
    holds (interpreter.afterTurns turns) := by
  induction turns generalizing interpreter with
  | nil => exact start
  | cons turn turns ih => exact ih (tick _ _ _ start)

/-- What the ticks return, each with the state that it leaves behind. -/
def replies : Interpreter → List Turn → List (Except Fault Response × State)
  | _, [] => []
  | interpreter, turn :: turns =>
    let (next, result) := interpreter.tick turn.project turn.input
    (result, next.state) :: next.replies turns

/-- All runs that there are: new ones and restored ones, and what ticks make of them. -/
inductive Arises : Interpreter → Prop where
  | new (project : Project) : Arises (new project)
  | restore (state : State) : Arises (restore state)
  | tick {interpreter : Interpreter} (h : interpreter.Arises) (project : Project)
      (input : Option Input) : Arises (interpreter.tick project input).1

theorem arises_afterTurns (project : Project) (turns : List Turn) :
    ((new project).afterTurns turns).Arises :=
  afterTurns_induction (.new project) (fun _ project input h => h.tick project input) turns

/-- A run that waits has entered its first scene. -/
theorem Arises.entered {interpreter : Interpreter} (h : interpreter.Arises)
    (hwaiting : interpreter.state.waiting ≠ .nothing) : interpreter.started = true := by
  induction h with
  | new project => exact absurd rfl hwaiting
  | restore state => rfl
  | @tick interpreter _ project input ih =>
      by_cases hfinished : interpreter.state.finished = true
      · rw [Interpreter.tick, if_pos hfinished] at hwaiting ⊢
        exact ih hwaiting
      · rw [Interpreter.tick, if_neg hfinished]

/-! ## Runs that are over -/

theorem tick_of_finished {interpreter : Interpreter} (h : interpreter.state.finished = true)
    (project : Project) (input : Option Input) :
    interpreter.tick project input = (interpreter, .ok ⟨[], .nothing⟩) :=
  if_pos h

/-- Once a run is over, every tick returns the same and changes nothing. -/
theorem replies_of_finished {interpreter : Interpreter} (h : interpreter.state.finished = true)
    (turns : List Turn) :
    interpreter.replies turns = turns.map fun _ => (.ok ⟨[], .nothing⟩, interpreter.state) := by
  induction turns with
  | nil => rfl
  | cons turn turns ih =>
      rw [replies, tick_of_finished h, List.map_cons]
      exact congrArg _ ih

end Interpreter
end SceneScript
