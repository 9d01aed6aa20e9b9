import SceneScript.Run.Interpreter

/-! # Runs as lists of commands to do

A reference for runs that knows no positions: what is still to do is one list of commands. Bodies of
branches and groups are put before the list, and variables are changed by exact arithmetic. The
rules for whole runs need no limit of steps.
-/

namespace SceneScript

/-! ## Variables and branches -/

/-- The result of an operation as a whole number. -/
def VariableOp.exact (op : VariableOp) (current : UInt8) (operand : Int64) : Int :=
  match op with
  | .set => operand.toInt
  | .add => current.toNat + operand.toInt
  | .subtract => current.toNat - operand.toInt

/-- The nearest value from 0 to 255. -/
def VariableOp.bounded (op : VariableOp) (current : UInt8) (operand : Int64) : UInt8 :=
  .ofNat (max 0 (min 255 (op.exact current operand))).toNat

/-- The body of the first branch whose condition holds. -/
def Branch.firstBody (symbols : Symbols) :
    List (Branch Command) → Except Fault (Option (List Command))
  | [] => .ok none
  | branch :: rest =>
    match branch.condition.evaluate (m := Id) symbols with
    | .ok true => .ok (some branch.body)
    | .ok false => firstBody symbols rest
    | .error fault => .error fault

/-- The body to run, if the branches are in order and one holds. -/
def Branch.selectBody (branches : List (Branch Command)) (symbols : Symbols) :
    Except Fault (Option (List Command)) := do
  Condition.checkStructure (branches.map (·.condition))
  firstBody symbols branches

/-- A run, with the commands of its scene that are still to do. A command that waits stays first. -/
structure Agenda where
  scene : Index
  commands : List Command
  flags : Table Bool
  vars : Table UInt8
  stage : Stage
  waiting : Waiting := .nothing
  finished : Bool := false
  started : Bool := false

/-- What a tick answers, and the values that it leaves. -/
structure Moment where
  result : Except Fault Response
  flags : Table Bool
  vars : Table UInt8
  stage : Stage
  finished : Bool

namespace Agenda

/-- Before the first command. -/
def initial (project : Project) : Agenda where
  scene := 0
  commands := (project.scenes.head?.map (·.commands)).getD []
  flags := .ofList (project.flags.map fun flag => (flag.name, flag.value))
  vars := .ofList (project.vars.map fun entry => (entry.name, entry.value))
  stage := (project.scenes.head?.map Scene.stage).getD {}
  finished := project.scenes.isEmpty

def symbols (agenda : Agenda) : Symbols := ⟨agenda.flags.find?, agenda.vars.find?⟩

def isPaused (agenda : Agenda) : Bool := agenda.waiting != .nothing || agenda.finished

/-- The commands of a scene replace everything that is still to do. -/
def enter (agenda : Agenda) (index : Index) (scene : Scene) : Agenda × List Effect :=
  ({ agenda with scene := index, commands := scene.commands, stage := scene.stage },
    [.sceneEntered index])

/-- A change of what is visible. -/
def restage (agenda : Agenda) (rest : List Command) (stage : Stage) (change : VisibilityChange) :
    Agenda × List Effect :=
  ({ agenda with stage, commands := rest }, [.visibility change])

/-! ## Steps -/

/-- Does the first command; `rest` stands behind it. -/
def perform (project : Project) (agenda : Agenda) (rest : List Command) :
    Action Command → Except Fault (Agenda × List Effect)
  | .dialogue speaker text [] => .ok ({ agenda with waiting := .click }, [.say speaker text])
  | .dialogue speaker text choices =>
    .ok ({ agenda with waiting := .choice (.ofNat choices.length) },
      [.say speaker text, .choices (choices.map (·.text))])
  | .branching _ branches => do
    let body ← Branch.selectBody branches agenda.symbols
    return ({ agenda with commands := body.getD [] ++ rest }, [])
  | .setFlag name value =>
    match agenda.flags.find? name with
    | some _ =>
      .ok ({ agenda with flags := agenda.flags.insert name value, commands := rest },
        [.flagChanged name value])
    | none => .error (.undefined .flag name)
  | .setVariable name operation operand =>
    match agenda.vars.find? name with
    | some current =>
      let value := operation.bounded current operand
      .ok ({ agenda with vars := agenda.vars.insert name value, commands := rest },
        [.variableChanged name value])
    | none => .error (.undefined .variable name)
  | .call id => do
    project.checkGroup id
    let group ← project.groupAt id
    return ({ agenda with commands := group.commands ++ rest }, [])
  | .goto target withTransition => do
    let scene ← project.sceneAt target
    if withTransition then
      return ({ agenda with waiting := .transition target },
        [.beginTransition agenda.scene target])
    else
      return agenda.enter target scene
  | .startTrack track sound =>
    .ok ({ agenda with commands := rest }, [.sound (.ofStart track sound)])
  | .stopTrack track => .ok ({ agenda with commands := rest }, [.sound (.stop track)])
  | .fadeTrack track fade =>
    .ok ({ agenda with commands := rest }, [.sound (.ofFade track fade)])
  | .playSound sound => .ok ({ agenda with commands := rest }, [.sound (.ofEffect sound)])
  | .showCharacter fadeMs animation =>
    .ok (agenda.restage rest { agenda.stage with characterVisible := true, animation }
      ⟨.character, true, fadeMs, animation⟩)
  | .hideCharacter fadeMs =>
    .ok (agenda.restage rest { agenda.stage with characterVisible := false }
      ⟨.character, false, fadeMs, none⟩)
  | .showBackground fadeMs =>
    .ok (agenda.restage rest { agenda.stage with backgroundVisible := true }
      ⟨.background, true, fadeMs, none⟩)
  | .hideBackground fadeMs =>
    .ok (agenda.restage rest { agenda.stage with backgroundVisible := false }
      ⟨.background, false, fadeMs, none⟩)

/-- Without commands the next scene begins, or the run ends. -/
def step (project : Project) (agenda : Agenda) : Except Fault (Agenda × List Effect) :=
  match agenda.commands with
  | command :: rest => agenda.perform project rest command.action
  | [] =>
    match project.scenes[agenda.scene.toNat + 1]? with
    | some scene => .ok (agenda.enter (agenda.scene + 1) scene)
    | none => .ok ({ agenda with finished := true }, [.halted])

/-- Steps until the run pauses or fails. -/
inductive Runs (project : Project) : Agenda → Agenda → Except Fault (List Effect) → Prop where
  | fails {agenda : Agenda} {fault : Fault} (hstep : agenda.step project = .error fault) :
      Runs project agenda agenda (.error fault)
  | pauses {agenda next : Agenda} {effects : List Effect}
      (hstep : agenda.step project = .ok (next, effects)) (hpaused : next.isPaused = true) :
      Runs project agenda next (.ok effects)
  | goes {agenda next final : Agenda} {effects : List Effect} {result : Except Fault (List Effect)}
      (hstep : agenda.step project = .ok (next, effects)) (hpaused : next.isPaused = false)
      (hrest : Runs project next final result) :
      Runs project agenda final (result.map (effects ++ ·))

/-! ## Answers -/

/-- Sets the flag of an answer, if it has one. -/
def setChoiceFlag (agenda : Agenda) (choice : Choice) : Except Fault (Agenda × List Effect) :=
  match choice.flagEffect with
  | some (name, value) =>
    match agenda.flags.find? name with
    | some _ =>
      .ok ({ agenda with flags := agenda.flags.insert name value }, [.flagChanged name value])
    | none => .error (.undefined .flag name)
  | none => .ok (agenda, [])

/-- Takes an answer: the dialogue is done, unless the run waits to leave for another scene. -/
def pick (project : Project) (agenda : Agenda) (choice : Choice) :
    Except Fault (Agenda × List Effect) := do
  if choice.enableGoto then
    let _ ← project.sceneAt choice.goto
    let (agenda, effects) ← agenda.setChoiceFlag choice
    return ({ agenda with waiting := .transition choice.goto },
      effects ++ [.beginTransition agenda.scene choice.goto])
  else
    let (agenda, effects) ← agenda.setChoiceFlag choice
    return ({ agenda with waiting := .nothing, commands := agenda.commands.tail }, effects)

/-- The answers of the first command. -/
def choices (agenda : Agenda) : List Choice :=
  (agenda.commands.head?.bind Command.choices?).getD []

def choose (project : Project) (agenda : Agenda) (count index : Index) :
    Except Fault (Agenda × List Effect) :=
  if count ≤ index then .error (.invalidChoice index count)
  else
    match agenda.choices[index.toNat]? with
    | some choice => agenda.pick project choice
    | none => .error (.invalidPosition .noChoice)

/-- An input that does not answer the wait is ignored. -/
def answer (project : Project) (agenda : Agenda) (input : Input) :
    Except Fault (Agenda × List Effect) :=
  match agenda.waiting, input with
  | .click, .click =>
    .ok ({ agenda with waiting := .nothing, commands := agenda.commands.tail }, [])
  | .choice count, .choose index => agenda.choose project count index
  | .transition target, .transitionFinished => do
    let scene ← project.sceneAt target
    return { agenda with waiting := .nothing }.enter target scene
  | _, _ => .ok (agenda, [])

/-! ## Ticks -/

/-- The first tick enters the first scene. -/
def begin (project : Project) (agenda : Agenda) : Except Fault (Agenda × List Effect) :=
  if agenda.started then .ok (agenda, [])
  else do
    let scene ← project.sceneAt agenda.scene
    return { agenda with started := true }.enter agenda.scene scene

def take (project : Project) (input : Option Input) (agenda : Agenda) :
    Except Fault (Agenda × List Effect) :=
  match input with
  | some input => agenda.answer project input
  | none => .ok (agenda, [])

/-- A tick enters the first scene if it has to, takes its input and runs unless it has to wait. -/
inductive Ticks (project : Project) (input : Option Input) (agenda : Agenda) :
    Agenda → Except Fault Response → Prop where
  | ended (hfinished : agenda.finished = true) :
      Ticks project input agenda agenda (.ok ⟨[], .nothing⟩)
  | unready {fault : Fault} (hfinished : agenda.finished = false)
      (hbegin : agenda.begin project = .error fault) :
      Ticks project input agenda { agenda with started := true } (.error fault)
  | refused {begun : Agenda} {entered : List Effect} {fault : Fault}
      (hfinished : agenda.finished = false) (hbegin : agenda.begin project = .ok (begun, entered))
      (htake : begun.take project input = .error fault) :
      Ticks project input agenda begun (.error fault)
  | waits {begun taken : Agenda} {entered answered : List Effect}
      (hfinished : agenda.finished = false) (hbegin : agenda.begin project = .ok (begun, entered))
      (htake : begun.take project input = .ok (taken, answered))
      (hwaiting : taken.waiting ≠ .nothing) :
      Ticks project input agenda taken (.ok ⟨entered ++ answered, taken.waiting⟩)
  | runs {begun taken final : Agenda} {entered answered : List Effect}
      {result : Except Fault (List Effect)}
      (hfinished : agenda.finished = false) (hbegin : agenda.begin project = .ok (begun, entered))
      (htake : begun.take project input = .ok (taken, answered))
      (hwaiting : taken.waiting = .nothing) (hruns : taken.Runs project final result) :
      Ticks project input agenda final
        (result.map fun later => ⟨entered ++ answered ++ later, final.waiting⟩)

/-! ## One outcome -/

variable {project : Project} {agenda final final' : Agenda}

/-- The rules for runs leave nothing open. -/
theorem Runs.unique {result result' : Except Fault (List Effect)}
    (h : Runs project agenda final result) (h' : Runs project agenda final' result') :
    final = final' ∧ result = result' := by
  induction h generalizing final' result' with
  | fails hstep =>
      cases h' with
      | fails hstep' =>
          rw [hstep] at hstep'
          cases hstep'
          exact ⟨rfl, rfl⟩
      | pauses hstep' _ | goes hstep' _ _ =>
          rw [hstep] at hstep'
          cases hstep'
  | pauses hstep hpaused =>
      cases h' with
      | fails hstep' =>
          rw [hstep] at hstep'
          cases hstep'
      | pauses hstep' _ =>
          rw [hstep] at hstep'
          cases hstep'
          exact ⟨rfl, rfl⟩
      | goes hstep' hpaused' _ =>
          rw [hstep] at hstep'
          cases hstep'
          rw [hpaused] at hpaused'
          cases hpaused'
  | goes hstep hpaused _ ih =>
      cases h' with
      | fails hstep' =>
          rw [hstep] at hstep'
          cases hstep'
      | pauses hstep' hpaused' =>
          rw [hstep] at hstep'
          cases hstep'
          rw [hpaused] at hpaused'
          cases hpaused'
      | goes hstep' _ hrest' =>
          rw [hstep] at hstep'
          cases hstep'
          obtain ⟨rfl, rfl⟩ := ih hrest'
          exact ⟨rfl, rfl⟩

theorem Ticks.unique {input : Option Input} {result result' : Except Fault Response}
    (h : Ticks project input agenda final result) (h' : Ticks project input agenda final' result') :
    final = final' ∧ result = result' := by
  cases h with
  | ended hfinished => cases h' <;> simp_all
  | unready hfinished hbegin => cases h' <;> simp_all
  | refused hfinished hbegin htake => cases h' <;> simp_all
  | waits hfinished hbegin htake hwaiting => cases h' <;> simp_all
  | runs hfinished hbegin htake hwaiting hruns =>
      cases h' with
      | runs _ hbegin' htake' _ hruns' =>
          rw [hbegin] at hbegin'
          cases hbegin'
          rw [htake] at htake'
          cases htake'
          obtain ⟨rfl, rfl⟩ := hruns.unique hruns'
          exact ⟨rfl, rfl⟩
      | _ => simp_all

/-! ## What can be observed -/

def moment (agenda : Agenda) (result : Except Fault Response) : Moment :=
  ⟨result, agenda.flags, agenda.vars, agenda.stage, agenda.finished⟩

/-- What is observed while a run takes one input after the other. -/
inductive Transcript (project : Project) : Agenda → List (Option Input) → List Moment → Prop where
  | nil {agenda : Agenda} : Transcript project agenda [] []
  | cons {agenda next : Agenda} {input : Option Input} {result : Except Fault Response}
      {inputs : List (Option Input)} {moments : List Moment}
      (hticks : agenda.Ticks project input next result)
      (hrest : Transcript project next inputs moments) :
      Transcript project agenda (input :: inputs) (next.moment result :: moments)

theorem Transcript.unique {inputs : List (Option Input)} {moments moments' : List Moment}
    (h : Transcript project agenda inputs moments)
    (h' : Transcript project agenda inputs moments') : moments = moments' := by
  induction h generalizing moments' with
  | nil =>
      cases h'
      rfl
  | cons hticks _ ih =>
      cases h' with
      | cons hticks' hrest' =>
          obtain ⟨rfl, rfl⟩ := hticks.unique hticks'
          rw [ih hrest']

end Agenda
end SceneScript
