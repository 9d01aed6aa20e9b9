import SceneScript.Run.State
import SceneScript.Run.Effect
import SceneScript.Script.Calls
/-!
# Executing one command

A command changes at most one flag, one variable or the stage. Where the run goes next is for the
caller to carry out; a command that fails leaves no trace.
-/

namespace SceneScript

/-- Where the run goes behind a command. A run that waits stays at its command. -/
inductive Flow where
  | next
  | enter (frame : Frame)
  | jump (scene : Index)
  | wait (reason : Waiting)
  deriving DecidableEq, Repr, Inhabited

namespace Project

def sceneAt (project : Project) (index : Index) : Except Fault Scene :=
  match project.scene? index with
  | some scene => .ok scene
  | none => .error (.missingScene index project.scenes.length)

def groupAt (project : Project) (id : String) : Except Fault CommandGroup :=
  match project.findGroup? id with
  | some group => .ok group
  | none => .error (.missingGroup id)

end Project

namespace State

/-- Only declared flags can be set. -/
def setFlag (state : State) (name : String) (value : Bool) : Except Fault State :=
  match state.flags.find? name with
  | some _ => .ok { state with flags := state.flags.insert name value }
  | none => .error (.undefined .flag name)

/-- The state with a changed variable, and the new value. -/
def changeVariable (state : State) (name : String) (operation : VariableOp) (operand : Int64) :
    Except Fault (State × UInt8) :=
  match state.vars.find? name with
  | some current =>
    let value := operation.apply current operand
    .ok ({ state with vars := state.vars.insert name value }, value)
  | none => .error (.undefined .variable name)

end State

/-! ## Work in place

The state of a run is one store, which a command reads and writes while it runs. -/

/-- What a command brings about besides its change of the state. -/
structure Outcome where
  effects : List Effect := []
  flow : Flow := .next
  deriving DecidableEq, Repr, Inhabited

/-- Work on the state of a run. What has been written stays written, also behind a fault. -/
abbrev Work := ExceptT Fault (StateM State)

namespace Work

/-- Writes a flag, which must be there. -/
def writeFlag (name : String) (value : Bool) : Work Outcome := do
  set (← (← get).setFlag name value)
  return { effects := [.flagChanged name value] }

/-- Writes a variable, which must be there. -/
def writeVariable (name : String) (operation : VariableOp) (operand : Int64) : Work Outcome := do
  let (next, value) ← (← get).changeVariable name operation operand
  set next
  return { effects := [.variableChanged name value] }

/-- Changes what is visible. -/
def writeStage (edit : Stage → Stage) (change : VisibilityChange) : Work Outcome := do
  modify fun state => { state with stage := edit state.stage }
  return { effects := [.visibility change] }

end Work

/-- Runs the action of the command at `index` on the state in place. -/
def Action.perform (project : Project) (index : Index) : Action Command → Work Outcome
  | .dialogue speaker text [] =>
    return { effects := [.say speaker text], flow := .wait .click }
  | .dialogue speaker text choices =>
    return { effects := [.say speaker text, .choices (choices.map (·.text))],
             flow := .wait (.choice (.ofNat choices.length)) }
  | .branching _ branches => do
    match Condition.select (m := Id) (branches.map (·.condition)) (← get).symbols with
    | .ok (some branch) => return { flow := .enter (.branch index branch) }
    | .ok none => return {}
    | .error fault => throw fault
  | .setFlag name value => Work.writeFlag name value
  | .setVariable name operation operand => Work.writeVariable name operation operand
  | .call group => do
    project.checkGroup group
    return { flow := .enter (.group index group) }
  | .goto scene withTransition => do
    let _ ← project.sceneAt scene
    if withTransition then
      return { effects := [.beginTransition (← get).position.scene scene],
               flow := .wait (.transition scene) }
    else
      return { flow := .jump scene }
  | .startTrack track sound => return { effects := [.sound (.ofStart track sound)] }
  | .stopTrack track => return { effects := [.sound (.stop track)] }
  | .fadeTrack track fade => return { effects := [.sound (.ofFade track fade)] }
  | .playSound sound => return { effects := [.sound (.ofEffect sound)] }
  | .showCharacter fadeMs animation =>
    Work.writeStage ({ · with characterVisible := true, animation })
      ⟨.character, true, fadeMs, animation⟩
  | .hideCharacter fadeMs =>
    Work.writeStage ({ · with characterVisible := false }) ⟨.character, false, fadeMs, none⟩
  | .showBackground fadeMs =>
    Work.writeStage ({ · with backgroundVisible := true }) ⟨.background, true, fadeMs, none⟩
  | .hideBackground fadeMs =>
    Work.writeStage ({ · with backgroundVisible := false }) ⟨.background, false, fadeMs, none⟩

/-! ## On a state -/

/-- A command that has succeeded, with the state that it leaves. -/
structure Execution where
  state : State
  effects : List Effect := []
  flow : Flow := .next
  deriving Inhabited

/-- Runs the action of the command at `index` from a state. -/
def Action.execute (project : Project) (state : State) (index : Index) (action : Action Command) :
    Except Fault Execution :=
  match (action.perform project index).run.run state with
  | (.ok outcome, next) => .ok { state := next, effects := outcome.effects, flow := outcome.flow }
  | (.error fault, _) => .error fault

end SceneScript
