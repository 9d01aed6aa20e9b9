import SceneScript.Run.Execution
/-!
# Running a script

`Interpreter.tick` takes one input and runs the script up to the next wait. The project is handed in
anew each time and may have been edited; the position is resolved against it at every step.
-/

namespace SceneScript

/-! ## Positions in a project -/

/-- The list that a frame leads to from a list of commands. -/
def Frame.innerList (project : Project) (commands : List Command) (frame : Frame) :
    Except Fault (List Command) :=
  match Index.of? frame.owner commands with
  | none => .error (.invalidPosition (.ownerMissing frame.owner))
  | some owner =>
    match frame, owner.action with
    | .branch _ chosen, .branching _ branches =>
      match branches[chosen.toNat]? with
      | some taken => .ok taken.body
      | none => .error (.invalidPosition (.branchMissing chosen))
    | .group _ id, .call called =>
      if called = id then (project.groupAt id).map (·.commands)
      else .error (.invalidPosition (.notOwner owner.id))
    | _, _ => .error (.invalidPosition (.notOwner owner.id))

namespace Project

/-- The commands that a way of frames leads to. -/
def listAt (project : Project) (scene : Index) (frames : List Frame) :
    Except Fault (List Command) := do
  frames.foldlM (Frame.innerList project) (← project.sceneAt scene).commands

/-- The commands around a position. -/
def resolve (project : Project) (position : Position) : Except Fault (List Command) :=
  project.listAt position.scene position.frames

def commandAt (project : Project) (position : Position) : Except Fault Command := do
  let commands ← project.resolve position
  match Index.of? position.command commands with
  | some command => return command
  | none => throw (.invalidPosition (.commandMissing position.command commands.length))

end Project

namespace State

/-- The command that waits for an answer. -/
def activeCommand (project : Project) (state : State) : Except Fault (Option Command) :=
  if state.isWaiting && !state.finished then (project.commandAt state.position).map some
  else .ok none

/-- A command stands behind `index` in the list that the first frames lead to, or behind the owner
of one of these frames, or a scene follows. -/
def hasCommandBehind (project : Project) (position : Position) (depth : Nat) (index : Index) :
    Except Fault Bool :=
  match project.listAt position.scene (position.frames.take depth) with
  | .error _ => .ok false
  | .ok commands => do
    let next ← index.next
    if (next.of? commands).isSome then return true
    else match depth with
      | 0 => return (project.scene? (← position.scene.next)).isSome
      | depth + 1 =>
        match position.frames[depth]? with
        | some frame => hasCommandBehind project position depth frame.owner
        | none => return false

/-- The story goes on behind the current command. -/
def hasFollowingContent (project : Project) (state : State) : Except Fault Bool :=
  if state.finished then .ok false
  else
    hasCommandBehind project state.position state.position.frames.length state.position.command

/-! ## Steps -/

/-- A scene starts at its first command, on a fresh stage. -/
def enterScene (project : Project) (state : State) (scene : Index) :
    Except Fault (State × List Effect) := do
  let entered ← project.sceneAt scene
  return ({ state with position := .sceneStart scene, stage := entered.stage },
    [.sceneEntered scene])

/-- Carries out the flow behind a command. -/
def follow (project : Project) (state : State) : Flow → Except Fault (State × List Effect)
  | .next => do return ({ state with position := ← state.position.advance }, [])
  | .enter frame => .ok ({ state with position := state.position.enter frame }, [])
  | .jump scene => state.enterScene project scene
  | .wait reason => .ok ({ state with waiting := reason }, [])

/-- The end of a list: back to the list around it, or on to the next scene, or the end. -/
def endList (project : Project) (state : State) : Except Fault (State × List Effect) := do
  match ← state.position.leave? with
  | some position => return ({ state with position }, [])
  | none =>
    let next ← state.position.scene.next
    if (project.scene? next).isSome then state.enterScene project next
    else return ({ state with finished := true }, [.halted])

/-- Runs the command at the position, or leaves the list behind its last one. -/
def step (project : Project) (state : State) : Except Fault (State × List Effect) := do
  let commands ← project.resolve state.position
  match Index.of? state.position.command commands with
  | none => state.endList project
  | some command =>
    let execution ← command.action.execute project state state.position.command
    let (state, effects) ← execution.state.follow project execution.flow
    return (state, execution.effects ++ effects)

/-- Steps until the run pauses. A fault ends it in the state that the steps before it have left. -/
def run (project : Project) (limit : Nat) : Nat → State → State × Except Fault (List Effect)
  | 0, state => (state, .error (.endless limit))
  | steps + 1, state =>
    match state.step project with
    | .error fault => (state, .error fault)
    | .ok (next, effects) =>
      if next.isPaused then (next, .ok effects)
      else
        let (final, later) := run project limit steps next
        (final, later.map (effects ++ ·))

/-- The steps that one input may set off. -/
def maxSteps : Nat := 10000

/-! ## Inputs -/

/-- Sets the flag of an answer, if it has one. -/
def setChoiceFlag (state : State) (choice : Choice) : Except Fault (State × List Effect) :=
  match choice.flagEffect with
  | some (name, value) => do return (← state.setFlag name value, [.flagChanged name value])
  | none => .ok (state, [])

/-- Takes an answer: sets its flag, then leaves for its scene or goes on. -/
def pick (project : Project) (state : State) (choice : Choice) :
    Except Fault (State × List Effect) := do
  if choice.enableGoto then
    let _ ← project.sceneAt choice.goto
    let (state, effects) ← state.setChoiceFlag choice
    return ({ state with waiting := .transition choice.goto },
      effects ++ [.beginTransition state.position.scene choice.goto])
  else
    let (state, effects) ← state.setChoiceFlag choice
    return ({ state with waiting := .nothing, position := ← state.position.advance }, effects)

/-- Takes the answer with that index to a dialogue that offers `count` of them. -/
def choose (project : Project) (state : State) (count index : Index) :
    Except Fault (State × List Effect) := do
  if index ≥ count then throw (.invalidChoice index count)
  let command ← project.commandAt state.position
  match (command.choices?.getD [])[index.toNat]? with
  | none => throw (.invalidPosition .noChoice)
  | some choice => state.pick project choice

/-- An input that does not answer the wait is ignored. -/
def answer (project : Project) (state : State) (input : Input) :
    State × Except Fault (List Effect) :=
  match state.waiting, input with
  | .click, .click =>
    let state := { state with waiting := .nothing }
    match state.position.advance with
    | .ok position => ({ state with position }, .ok [])
    | .error fault => (state, .error fault)
  | .choice count, .choose index =>
    match state.choose project count index with
    | .ok (next, effects) => (next, .ok effects)
    | .error fault => (state, .error fault)
  | .transition target, .transitionFinished =>
    let state := { state with waiting := .nothing }
    match state.enterScene project target with
    | .ok (next, effects) => (next, .ok effects)
    | .error fault => (state, .error fault)
  | _, _ => (state, .ok [])

end State

/-! ## Ticks -/

/-- A run, and whether it has entered its first scene. -/
structure Interpreter where
  state : State
  started : Bool
  deriving DecidableEq, Inhabited

/-- What a tick has brought about, and what the run waits for now. -/
structure Response where
  effects : List Effect
  waiting : Waiting
  deriving DecidableEq, Repr, Inhabited

namespace Interpreter

def new (project : Project) : Interpreter := ⟨.initial project, false⟩

/-- A restored run has entered its scene before. -/
def restore (state : State) : Interpreter := ⟨state, true⟩

/-- Continues with another part of the tick, unless the part before has failed. -/
def andThen (result : State × Except Fault (List Effect))
    (continue_ : State → State × Except Fault (List Effect)) :
    State × Except Fault (List Effect) :=
  match result with
  | (state, .error fault) => (state, .error fault)
  | (state, .ok effects) =>
    let (final, later) := continue_ state
    (final, later.map (effects ++ ·))

/-- The first tick of a new run enters its scene. -/
def begin (project : Project) (interpreter : Interpreter) : State × Except Fault (List Effect) :=
  if interpreter.started then (interpreter.state, .ok [])
  else
    match interpreter.state.enterScene project interpreter.state.position.scene with
    | .ok (state, effects) => (state, .ok effects)
    | .error fault => (interpreter.state, .error fault)

/-- Takes the input, if there is one. -/
def take (project : Project) (input : Option Input) (state : State) :
    State × Except Fault (List Effect) :=
  match input with
  | some input => state.answer project input
  | none => (state, .ok [])

/-- Goes on unless the run waits. -/
def proceed (project : Project) (state : State) : State × Except Fault (List Effect) :=
  if state.isWaiting then (state, .ok []) else state.run project State.maxSteps State.maxSteps

def tick (project : Project) (input : Option Input) (interpreter : Interpreter) :
    Interpreter × Except Fault Response :=
  if interpreter.state.finished then (interpreter, .ok ⟨[], .nothing⟩)
  else
    let (state, result) := andThen
      (andThen (interpreter.begin project) (take project input)) (proceed project)
    (⟨state, true⟩, result.map (⟨·, state.waiting⟩))

end Interpreter
end SceneScript
