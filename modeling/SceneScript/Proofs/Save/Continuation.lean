import SceneScript.Proofs.Run.Drive
import SceneScript.Proofs.Save.Codec

/-! # A saved game goes on like the run it was taken from

What is not saved is whether the run has entered its first scene. After one tick it has, unless the
run is over, and then no tick asks.
-/

namespace SceneScript

open Reader

/-! ## Loading a saved game -/

theorem Save.ofTree_toJson {save : Save} (h : save.version.isCompatible = true) :
    ofTree save.toJson = .ok save := by
  have hdepth : save.toJson.depth ≤ nesting := save.depth_toJson_le.trans (by decide)
  rw [ofTree, recovers.read, within_of_le hdepth]
  exact if_pos h

theorem Save.ofText_toText_of_isCompatible {save : Save} (h : save.version.isCompatible = true) :
    ofText save.toText = .ok save := by
  rw [ofText, toText, Json.parse?_pretty (recovers.plain save)]
  exact ofTree_toJson h

/-! ## Runs with a project that is edited -/

namespace Interpreter

/-- The run has entered its first scene, or there is none to enter. -/
def UnderWay (interpreter : Interpreter) : Prop :=
  interpreter.started = true ∨ interpreter.state.finished = true

theorem underWay_tick (project : Project) (input : Option Input) (interpreter : Interpreter) :
    (interpreter.tick project input).1.UnderWay := by
  by_cases h : interpreter.state.finished = true
  · rw [tick_of_finished h]
    exact .inr h
  · rw [tick, if_neg h]
    exact .inl rfl

theorem underWay_afterTurns {interpreter : Interpreter} (h : interpreter.UnderWay)
    (turns : List Turn) : (interpreter.afterTurns turns).UnderWay :=
  afterTurns_induction h (fun interpreter project input _ => underWay_tick project input interpreter)
    turns

theorem replies_restore {interpreter : Interpreter} (h : interpreter.UnderWay)
    (turns : List Turn) :
    (restore interpreter.state).replies turns = interpreter.replies turns := by
  rcases h with hstarted | hfinished
  · obtain ⟨state, started⟩ := interpreter
    cases hstarted
    rfl
  · have hrestored : (restore interpreter.state).state.finished = true := hfinished
    rw [replies_of_finished hfinished, replies_of_finished hrestored]
    rfl

end Interpreter

/-- A game saved after at least one tick is loaded as it was saved, and from there on it answers
every further tick as the run itself does. -/
theorem Save.capture_continues (project : Project) (first : Turn) (earlier later : List Turn)
    (slot : UInt32) (timestamp : UInt64) :
    let interpreter := (Interpreter.new project).afterTurns (first :: earlier)
    let save := Save.capture slot timestamp interpreter
    ofText save.toText = .ok save ∧ save.restore.replies later = interpreter.replies later := by
  intro interpreter save
  have hunderWay : interpreter.UnderWay :=
    Interpreter.underWay_afterTurns (Interpreter.underWay_tick first.project first.input _) earlier
  have hcompatible : save.version.isCompatible = true := rfl
  exact ⟨ofText_toText_of_isCompatible hcompatible, Interpreter.replies_restore hunderWay later⟩

end SceneScript
