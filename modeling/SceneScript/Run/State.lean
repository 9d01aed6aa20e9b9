import SceneScript.Project.Basic
import SceneScript.Script.Branching
import SceneScript.Table
/-!
# The state of a run

A state says where in the script the run stands, what the flags and variables hold, what is on the
stage, and what the run waits for.
-/

namespace SceneScript

/-- What has to happen before the run goes on. -/
inductive Waiting where
  | nothing
  | click
  | choice (count : Index)
  | transition (target : Index)
  deriving DecidableEq, Repr, Inhabited

/-- A step from a list of commands into a list inside it: which command holds the list, and which of
its branches or which group it is. -/
inductive Frame where
  | branch (owner branch : Index)
  | group (owner : Index) (id : String)
  deriving DecidableEq, Repr, Inhabited

def Frame.owner : Frame → Index
  | branch owner _ => owner
  | group owner _ => owner

/-- A scene, the way from its commands to the current list, outermost step first, and the place in
that list. -/
structure Position where
  scene : Index
  frames : List Frame := []
  command : Index
  deriving DecidableEq, Repr

namespace Position

def sceneStart (scene : Index) : Position := { scene, command := 0 }

instance : Inhabited Position := ⟨sceneStart 0⟩

/-- Behind the current command. -/
def advance (position : Position) : Except Fault Position := do
  return { position with command := ← position.command.next }

def enter (position : Position) (frame : Frame) : Position :=
  { position with frames := position.frames ++ [frame], command := 0 }

/-- Back to the list around the current one, behind the command that holds it. -/
def leave? (position : Position) : Except Fault (Option Position) :=
  match position.frames.getLast? with
  | none => .ok none
  | some frame => do
    return some
      { position with frames := position.frames.dropLast, command := ← frame.owner.next }

def depth (position : Position) : Nat := position.frames.length

end Position

/-- What is visible. -/
structure Stage where
  backgroundVisible : Bool := true
  characterVisible : Bool := true
  animation : Option FrameAnimation := none
  deriving DecidableEq, Repr, Inhabited

/-- Each scene starts with its background and, if it says so, its character. -/
def Scene.stage (scene : Scene) : Stage := { characterVisible := scene.characterVisible }

structure State where
  position : Position
  flags : Table Bool
  vars : Table UInt8
  stage : Stage
  waiting : Waiting
  finished : Bool := false
  deriving DecidableEq, Inhabited

namespace State

/-- The state before the first command. A project without scenes is finished from the start. -/
def initial (project : Project) : State where
  position := .sceneStart 0
  flags := .ofList (project.flags.map fun flag => (flag.name, flag.value))
  vars := .ofList (project.vars.map fun entry => (entry.name, entry.value))
  stage := (project.scenes.head?.map Scene.stage).getD {}
  waiting := .nothing
  finished := project.scenes.isEmpty

def symbols (state : State) : Symbols := ⟨state.flags.find?, state.vars.find?⟩

def isWaiting (state : State) : Bool := state.waiting != .nothing

/-- The run does not go on by itself. -/
def isPaused (state : State) : Bool := state.isWaiting || state.finished

end State
end SceneScript
