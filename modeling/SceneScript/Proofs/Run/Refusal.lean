import SceneScript.Proofs.Run.Drive
import SceneScript.Proofs.Run.Tick

/-! # Refused inputs

A tick can fail at its input, before any command is run. A choice is checked before anything is
written, so one that is refused changes nothing. The end of a transition gives up the wait before the
scene is looked up: where the project has lost that scene meanwhile, the wait is lost as well.
-/

namespace SceneScript.Interpreter

variable {project : Project} {interpreter : Interpreter} {input : Input} {fault : Fault}

/-- The tick fails at its input, before any command is run, and is not stuck behind the last index of
all. -/
def Refuses (project : Project) (input : Input) (fault : Fault) (interpreter : Interpreter) :
    Prop :=
  interpreter.state.finished = false ∧ fault ≠ .overflow ∧ ∃ begun entered,
    interpreter.begin project = (begun, .ok entered) ∧
      (begun.answer project input).2 = .error fault

/-- An input is refused where the run waits, with no scene left to enter before. -/
theorem Arises.begin_of_refuses (h : interpreter.Arises)
    (hrefuses : interpreter.Refuses project input fault) :
    interpreter.begin project = (interpreter.state, .ok []) ∧
      (interpreter.state.answer project input).2 = .error fault := by
  obtain ⟨-, -, begun, entered, hbegin, hanswer⟩ := hrefuses
  have hwaiting : interpreter.state.waiting ≠ .nothing := by
    have hkept := (begin_kept project interpreter).1
    rw [hbegin] at hkept
    rw [← hkept]
    exact State.waits_of_answer_refused hanswer
  have hstays : interpreter.begin project = (interpreter.state, .ok []) :=
    if_pos (h.entered hwaiting)
  rw [hstays] at hbegin
  cases hbegin
  exact ⟨hstays, hanswer⟩

/-- Whatever state a run is in and whatever the project has become, a refused choice changes nothing,
and the end of a transition is refused only for a scene that is gone; then the wait is lost, and
nothing else. -/
theorem tick_refused (h : interpreter.Arises) (hrefuses : interpreter.Refuses project input fault) :
    (interpreter.tick project (some input)).2 = .error fault ∧
      (((∃ index, input = .choose index) ∧
          (interpreter.tick project (some input)).1 = interpreter) ∨
        input = .transitionFinished ∧ ∃ target, interpreter.state.waiting = .transition target ∧
          project.scene? target = none ∧
          (interpreter.tick project (some input)).1 =
            { interpreter with state := { interpreter.state with waiting := .nothing } }) := by
  obtain ⟨hbegin, hanswer⟩ := h.begin_of_refuses hrefuses
  have hstarted := h.entered (State.waits_of_answer_refused hanswer)
  have htake : take project (some input) interpreter.state =
      ((interpreter.state.answer project input).1, .error fault) := Prod.ext rfl hanswer
  rw [tick_of_refused hrefuses.1 hbegin htake, ← hstarted]
  refine ⟨rfl, ?_⟩
  rcases State.answer_refused hanswer hrefuses.2.1 with ⟨⟨_, index, -, rfl⟩, hsame⟩ |
    ⟨target, hwaiting, rfl, hscene, -, hlost⟩
  · rw [hsame]
    exact .inl ⟨⟨index, rfl⟩, rfl⟩
  · rw [hlost]
    exact .inr ⟨rfl, target, hwaiting, hscene, rfl⟩

/-- A question whose answer sets a flag and leads to the second scene. -/
def doorway : Project where
  flags := [{ id := "f", name := "left" }]
  scenes := [
    { id := "a", commands := [.dialogue "1" "" "Leave?"
      [{ text := "Yes", enableGoto := true, goto := 1, setFlag := "left", setFlagValue := true }]] },
    { id := "b", commands := [.dialogue "2" "" "Outside" []] }]

/-- The same project without its second scene. -/
def deadEnd : Project := { doorway with scenes := doorway.scenes.take 1 }

/-- The run at the question. -/
def asking : Interpreter := (new doorway).afterTurns [⟨doorway, none⟩]

/-- The run behind the answer, while the transition to the second scene lasts. -/
def leaving : Interpreter := (new doorway).afterTurns [⟨doorway, none⟩, ⟨doorway, some (.choose 0)⟩]

/-- The answer is refused once its scene is gone, and the flag is not set. -/
theorem asking_refused :
    asking.Refuses deadEnd (.choose 0) (.missingScene 1 1) ∧
      (asking.tick deadEnd (some (.choose 0))).1 = asking := by
  have hrefuses : asking.Refuses deadEnd (.choose 0) (.missingScene 1 1) :=
    ⟨rfl, nofun, asking.state, [], rfl, rfl⟩
  obtain ⟨-, ⟨-, hsame⟩ | ⟨hother, -⟩⟩ := tick_refused (arises_afterTurns _ _) hrefuses
  · exact ⟨hrefuses, hsame⟩
  · cases hother

/-- If the scene goes later, the transition to it cannot end, and the run no longer waits for it. -/
theorem not_refused_unchanged :
    ¬ ∀ (interpreter : Interpreter) (project : Project) (input : Input) (fault : Fault),
      interpreter.Arises → interpreter.Refuses project input fault →
        (interpreter.tick project (some input)).1.state = interpreter.state := by
  intro hunchanged
  have hrefuses : leaving.Refuses deadEnd .transitionFinished (.missingScene 1 1) :=
    ⟨rfl, nofun, leaving.state, [], rfl, rfl⟩
  have hsame := hunchanged _ _ _ _ (arises_afterTurns _ _) hrefuses
  have hwaiting : Waiting.nothing = .transition 1 := congrArg State.waiting hsame
  cases hwaiting

end SceneScript.Interpreter
