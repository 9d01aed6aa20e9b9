import SceneScript.Config
/-!
# Command lines

A command line names a task, its operand and its options. Options may stand anywhere; two of them,
the configuration file and the log level, belong to every task.
-/

namespace SceneScript

inductive Task where
  | check (project : String) (verbose : Bool)
  | play (project : String) (choices : List UInt64) (maxFrames : Nat) (save : Option String)
  | publish (project loader program output : String) (scale : Option UInt32)
  deriving DecidableEq, Repr, Inhabited

structure CommandLine where
  task : Task
  configPath : String
  overrides : Overrides
  deriving DecidableEq, Repr, Inhabited

inductive UsageFault where
  | noTask
  | unknownTask (name : String)
  | unexpected (argument : String)
  | repeated (option : String)
  | missing (argument : String)
  | valueMissing (option : String)
  | invalidValue (option value : String)
  deriving DecidableEq, Repr, Inhabited

def UsageFault.message : UsageFault → String
  | noTask => "a subcommand is required: check, play or export"
  | unknownTask name => s!"unrecognized subcommand '{name}'"
  | unexpected argument => s!"unexpected argument '{argument}' found"
  | repeated option => s!"the argument '{option}' cannot be used multiple times"
  | missing argument => s!"the following required argument was not provided: {argument}"
  | valueMissing option => s!"a value is required for '{option}' but none was supplied"
  | invalidValue option value => s!"invalid value '{value}' for '{option}'"

namespace CommandLine

/-! ## Words -/

/-- The options of a task: those with a value, and switches. -/
structure Options where
  valued : List String := []
  switches : List String := []

def Options.ofTask : String → Options
  | "check" => { switches := ["--verbose"] }
  | "play" => {
      valued := ["--choose", "--assets-dir", "--frames-dir", "--frame-interval-ms", "--max-frames",
        "--save"]
      switches := ["--show-scene-index"] }
  | "export" => { valued := ["--runtime-js", "--runtime-wasm", "--output", "--scale"] }
  | _ => {}

/-- The options of every task. -/
def common : List String := ["--config", "--log-level"]

def tasks : List String := ["check", "play", "export"]

/-- Every option with a value. -/
def valued : List String := common ++ tasks.flatMap fun task => (Options.ofTask task).valued

/-- Every switch. -/
def switches : List String := tasks.flatMap fun task => (Options.ofTask task).switches

/-- The options with their values, and the other words. A switch has an empty value. -/
structure Words where
  options : List (String × String) := []
  operands : List String := []
  deriving DecidableEq, Repr, Inhabited

def Words.option (name value : String) (words : Words) : Words :=
  { words with options := (name, value) :: words.options }

def Words.operand (word : String) (words : Words) : Words :=
  { words with operands := word :: words.operands }

/-- The long name of an option. -/
def longName : String → String
  | "-v" => "--verbose"
  | "-o" => "--output"
  | name => name

/-- A word up to its first `=`, and what follows that. -/
def splitValue (word : String) : String × Option String :=
  let chars := word.toList
  let name := chars.takeWhile (· != '=')
  match chars.drop name.length with
  | [] => (word, none)
  | _ :: value => (.ofList name, some (.ofList value))

/-- Sorts the words. Behind `--` all of them are operands. -/
def sort : List String → Except UsageFault Words
  | [] => .ok {}
  | "--" :: rest => .ok { operands := rest }
  | word :: rest =>
    if word.startsWith "-" && word != "-" then
      match splitValue word with
      | (name, value) =>
        let name := longName name
        if switches.contains name && value.isNone then (sort rest).map (·.option name "")
        else if valued.contains name then
          match value, rest with
          | some value, rest => (sort rest).map (·.option name value)
          | none, value :: rest => (sort rest).map (·.option name value)
          | none, [] => .error (.valueMissing name)
        else .error (.unexpected word)
    else (sort rest).map (·.operand word)

/-! ## Values -/

def allowed (task : String) (name : String) : Bool :=
  common.contains name || (Options.ofTask task).valued.contains name
    || (Options.ofTask task).switches.contains name

/-- Each option belongs to the task, and occurs once. Choices may be given in several lists. -/
def checkOptions (task : String) : List (String × String) → Except UsageFault Unit
  | [] => .ok ()
  | (name, _) :: rest => do
    if !allowed task name then throw (.unexpected name)
    if name != "--choose" && (rest.lookup name).isSome then throw (.repeated name)
    checkOptions task rest

def value? (words : Words) (name : String) : Option String := words.options.lookup name

def required (words : Words) (name : String) : Except UsageFault String :=
  (value? words name).elim (.error (.missing name)) .ok

/-- A number below a bound. -/
def numberOf (bound : Nat) (option text : String) : Except UsageFault Nat :=
  match Natural.ofText? text with
  | some number => if number < bound then .ok number else .error (.invalidValue option text)
  | none => .error (.invalidValue option text)

def number? (words : Words) (bound : Nat) (name : String) : Except UsageFault (Option Nat) :=
  (value? words name).mapM (numberOf bound name)

def choices (words : Words) : Except UsageFault (List UInt64) := do
  let lists := (words.options.filter (·.1 == "--choose")).map fun (_, list) => list.splitOn ","
  lists.flatten.mapM fun text => return .ofNat (← numberOf UInt64.size "--choose" text)

/-! ## Tasks -/

def taskOf (words : Words) (name project : String) : Except UsageFault Task :=
  match name with
  | "check" => return .check project (value? words "--verbose").isSome
  | "play" => do
    let maxFrames ← number? words UInt64.size "--max-frames"
    return .play project (← choices words) (maxFrames.getD 1000) (value? words "--save")
  | "export" => do
    let scale ← number? words UInt32.size "--scale"
    return .publish project (← required words "--runtime-js") (← required words "--runtime-wasm")
      ((value? words "--output").getD "game.html") (scale.map .ofNat)
  | name => .error (.unknownTask name)

def overridesOf (words : Words) : Except UsageFault Overrides := do
  let interval ← number? words UInt64.size "--frame-interval-ms"
  return {
    assetsDir := value? words "--assets-dir"
    framesDir := value? words "--frames-dir"
    logLevel := value? words "--log-level"
    frameIntervalMs := interval.map .ofNat
    showSceneIndex := (value? words "--show-scene-index").isSome }

def ofWords (words : Words) : Except UsageFault CommandLine := do
  match words.operands with
  | [] => throw .noTask
  | [task] => throw (if tasks.contains task then .missing "<PROJECT>" else .unknownTask task)
  | [task, project] =>
    if !tasks.contains task then throw (.unknownTask task)
    checkOptions task words.options
    return {
      task := ← taskOf words task project
      configPath := (value? words "--config").getD "vn.json"
      overrides := ← overridesOf words }
  | _ :: _ :: extra :: _ => throw (.unexpected extra)

def ofArguments (arguments : List String) : Except UsageFault CommandLine := do
  ofWords (← sort arguments)

end CommandLine
end SceneScript
