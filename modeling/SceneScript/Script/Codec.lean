import SceneScript.Script.Basic
import SceneScript.Json.Read
/-!
# Scripts as JSON

Every type has its `toJson` and its `read`. A command is one flat object: its identifier, its type
and the fields of that type side by side.
-/

namespace SceneScript

namespace VariableOp

def name : VariableOp → String
  | set => "set" | add => "add" | subtract => "subtract"

def names : List (String × VariableOp) := [set, add, subtract].map fun op => (op.name, op)

end VariableOp

namespace BranchKind

def name : BranchKind → String
  | «if» => "if" | elseIf => "elseif" | «else» => "else"

def names : List (String × BranchKind) := [«if», elseIf, «else»].map fun kind => (kind.name, kind)

end BranchKind

namespace SymbolKind

def name : SymbolKind → String
  | .flag => "flag" | .variable => "variable"

def names : List (String × SymbolKind) :=
  [SymbolKind.flag, .variable].map fun kind => (kind.name, kind)

end SymbolKind

namespace Comparison

def names : List (String × Comparison) := [eq, ne, gt, lt, ge, le].map fun op => (op.symbol, op)

end Comparison

namespace Reader

variable {α : Type}

/-- An alternative without content inside a command, where an empty object counts as no content. -/
def namedInCommand (names : List (String × α)) : Reader α
  | _ + 1, .obj [(name, .obj [])] => names.lookup name
  | n, tree => named names n tree

/-- The fields of a command are set aside before its type is known. An alternative without content
may be written in one more way there. -/
def namedIn (inCommand : Bool) (names : List (String × α)) : Reader α :=
  if inCommand then namedInCommand names else named names

end Reader

open Reader

namespace FrameAnimation

def toJson (animation : FrameAnimation) : Json :=
  .obj [("frameCount", .nat animation.frameCount.toNat),
    ("frameWidth", .nat animation.frameWidth.toNat),
    ("frameDurationMs", .nat animation.frameDurationMs.toNat),
    ("looping", .bool animation.looping)]

def read : Reader FrameAnimation := fun n tree => do
  let record ← Record.of? ["frameCount", "frameWidth", "frameDurationMs", "looping"] n tree
  return {
    frameCount := ← record.required "frameCount" uint32
    frameWidth := ← record.required "frameWidth" uint32
    frameDurationMs := ← record.required "frameDurationMs" uint32
    looping := ← record.withDefault "looping" bool true }

end FrameAnimation

namespace Choice

def toJson (choice : Choice) : Json :=
  .obj [("text", .str choice.text), ("enableGoto", .bool choice.enableGoto),
    ("goto", .nat choice.goto.toNat), ("setFlag", .str choice.setFlag),
    ("setFlagValue", .bool choice.setFlagValue)]

def read : Reader Choice := fun n tree => do
  let record ← Record.of? ["text", "enableGoto", "goto", "setFlag", "setFlagValue"] n tree
  return {
    text := ← record.required "text" string
    enableGoto := ← record.withDefault "enableGoto" bool false
    goto := ← record.withDefault "goto" uint64 0
    setFlag := ← record.withDefault "setFlag" string ""
    setFlagValue := ← record.withDefault "setFlagValue" bool false }

end Choice

namespace Literal

def toJson : Literal → Json
  | .bool value => .bool value
  | .int value => .int value.toInt

def read : Reader Literal
  | _, .bool value => some (.bool value)
  | n, tree => (int64 n tree).map .int

end Literal

namespace TrackStart

def fields (sound : TrackStart) : List (String × Json) :=
  [("source", .str sound.source), ("volume", .nat sound.volume.toNat),
    ("pitch", .nat sound.pitch.toNat)]

def names : List String := ["source", "volume", "pitch"]

def ofRecord (record : Record) : Option TrackStart := do
  return {
    source := ← record.required "source" string
    volume := ← record.withDefault "volume" uint8 100
    pitch := ← record.withDefault "pitch" uint16 100 }

end TrackStart

namespace TrackFade

def fields (fade : TrackFade) : List (String × Json) :=
  [("targetVolume", .nat fade.targetVolume.toNat), ("durationMs", .nat fade.durationMs.toNat)]

def names : List String := ["targetVolume", "durationMs"]

def ofRecord (record : Record) : Option TrackFade := do
  return {
    targetVolume := ← record.required "targetVolume" uint8
    durationMs := ← record.required "durationMs" uint32 }

end TrackFade

namespace SoundEffect

def fields (sound : SoundEffect) : List (String × Json) :=
  [("source", .str sound.source), ("volume", .nat sound.volume.toNat),
    ("pitch", .nat sound.pitch.toNat), ("pan", .int sound.pan.toInt)]

def names : List String := ["source", "volume", "pitch", "pan"]

def ofRecord (record : Record) : Option SoundEffect := do
  return {
    source := ← record.required "source" string
    volume := ← record.withDefault "volume" uint8 100
    pitch := ← record.withDefault "pitch" uint16 100
    pan := ← record.withDefault "pan" int16 0 }

end SoundEffect

/-! ## Branches -/

namespace Condition

/-- The fields of a branch that belong to its condition. -/
def fields (condition : Condition) : List (String × Json) :=
  [("type", .str condition.kind.name), ("checkType", .str condition.subject.name),
    ("flagName", .str condition.flagName), ("variableName", .str condition.variableName),
    ("operator", .str condition.operator.symbol), ("compareValue", condition.value.toJson)]

def names : List String :=
  ["type", "checkType", "flagName", "variableName", "operator", "compareValue"]

def ofRecord (inCommand : Bool) (record : Record) : Option Condition := do
  return {
    kind := ← record.required "type" (namedIn inCommand BranchKind.names)
    subject := ← record.withDefault "checkType" (namedIn inCommand SymbolKind.names) .flag
    flagName := ← record.withDefault "flagName" string ""
    variableName := ← record.withDefault "variableName" string ""
    operator := ← record.withDefault "operator" (namedIn inCommand Comparison.names) .eq
    value := ← record.withDefault "compareValue" Literal.read (.bool true) }

end Condition

/-! ## Commands -/

namespace Track

/-- Ends the type of a command. -/
def suffix : Track → String
  | music => "BGM" | ambience => "BGS"

end Track

namespace Action

variable {α : Type}

def name : Action α → String
  | dialogue .. => "dialogue"
  | branching .. => "branching"
  | setFlag .. => "setFlag"
  | setVariable .. => "setVariable"
  | call .. => "callSharedCommand"
  | goto .. => "goto"
  | startTrack track _ => "play" ++ track.suffix
  | stopTrack track => "stop" ++ track.suffix
  | fadeTrack track _ => "fade" ++ track.suffix
  | playSound .. => "playSFX"
  | showCharacter .. => "showCharacter"
  | hideCharacter .. => "hideCharacter"
  | showBackground .. => "showBackground"
  | hideBackground .. => "hideBackground"

/-- The types in order. A type may also be written as its place in this list. -/
def types : List String :=
  ["dialogue", "branching", "setFlag", "setVariable", "callSharedCommand", "goto",
    "playBGM", "stopBGM", "fadeBGM", "playBGS", "stopBGS", "fadeBGS", "playSFX",
    "showCharacter", "hideCharacter", "showBackground", "hideBackground"]

def typeName : Reader String
  | _, .str name => if name ∈ types then some name else none
  | n, tree => (uint64 n tree).bind fun index => Index.of? index types

/-- The fields that commands of a type know. -/
def names : String → List String
  | "dialogue" => ["speaker", "text", "choices"]
  | "branching" => ["label", "conditions"]
  | "setFlag" => ["flagName", "value"]
  | "setVariable" => ["variableName", "operation", "value"]
  | "callSharedCommand" => ["sharedCommandId"]
  | "goto" => ["targetScene", "useTransition"]
  | "playBGM" | "playBGS" => TrackStart.names
  | "fadeBGM" | "fadeBGS" => TrackFade.names
  | "playSFX" => SoundEffect.names
  | "showCharacter" => ["fadeMs", "animation"]
  | "hideCharacter" | "showBackground" | "hideBackground" => ["fadeMs"]
  | _ => []

/-- Reads the fields of a type. -/
def ofRecord (branches : Json → Option (List (Branch α))) (type : String) (record : Record) :
    Option (Action α) :=
  match type with
  | "dialogue" => do
    return .dialogue (← record.withDefault "speaker" string "")
      (← record.withDefault "text" string "") (← record.withDefault "choices" (list Choice.read) [])
  | "branching" => do
    return .branching (← record.withDefault "label" string "")
      (← record.withDefault "conditions" (fun _ => branches) [])
  | "setFlag" => do
    return .setFlag (← record.required "flagName" string) (← record.required "value" bool)
  | "setVariable" => do
    return .setVariable (← record.required "variableName" string)
      (← record.required "operation" (namedInCommand VariableOp.names))
      (← record.required "value" int64)
  | "callSharedCommand" => do return .call (← record.required "sharedCommandId" string)
  | "goto" => do
    return .goto (← record.required "targetScene" uint64)
      (← record.withDefault "useTransition" bool false)
  | "playBGM" => (TrackStart.ofRecord record).map (.startTrack .music)
  | "stopBGM" => some (.stopTrack .music)
  | "fadeBGM" => (TrackFade.ofRecord record).map (.fadeTrack .music)
  | "playBGS" => (TrackStart.ofRecord record).map (.startTrack .ambience)
  | "stopBGS" => some (.stopTrack .ambience)
  | "fadeBGS" => (TrackFade.ofRecord record).map (.fadeTrack .ambience)
  | "playSFX" => (SoundEffect.ofRecord record).map .playSound
  | "showCharacter" => do
    return .showCharacter (← record.withDefault "fadeMs" uint32 0)
      (← record.withDefault "animation" FrameAnimation.read.nullable none)
  | "hideCharacter" => (record.withDefault "fadeMs" uint32 0).map .hideCharacter
  | "showBackground" => (record.withDefault "fadeMs" uint32 0).map .showBackground
  | "hideBackground" => (record.withDefault "fadeMs" uint32 0).map .hideBackground
  | _ => none

end Action

mutual

def Command.toJson : Command → Json
  | ⟨id, action⟩ => .obj (("id", .str id) :: ("type", .str action.name) :: action.fields)

/-- The fields of a command behind its type. -/
def Action.fields : Action Command → List (String × Json)
  | .dialogue speaker text choices =>
    [("speaker", .str speaker), ("text", .str text), ("choices", .arr (choices.map Choice.toJson))]
  | .branching label branches =>
    [("label", .str label), ("conditions", .arr (Branch.listToJson branches))]
  | .setFlag name value => [("flagName", .str name), ("value", .bool value)]
  | .setVariable name operation operand =>
    [("variableName", .str name), ("operation", .str operation.name), ("value", .int operand.toInt)]
  | .call group => [("sharedCommandId", .str group)]
  | .goto scene withTransition =>
    [("targetScene", .nat scene.toNat), ("useTransition", .bool withTransition)]
  | .startTrack _ sound => sound.fields
  | .stopTrack _ => []
  | .fadeTrack _ fade => fade.fields
  | .playSound sound => sound.fields
  | .showCharacter fadeMs animation =>
    ("fadeMs", .nat fadeMs.toNat) :: (animation.map fun a => ("animation", a.toJson)).toList
  | .hideCharacter fadeMs | .showBackground fadeMs | .hideBackground fadeMs =>
    [("fadeMs", .nat fadeMs.toNat)]

def Branch.toJson : Branch Command → Json
  | ⟨condition, body⟩ => .obj (condition.fields ++ [("commands", .arr (Command.listToJson body))])

def Branch.listToJson : List (Branch Command) → List Json
  | [] => []
  | branch :: rest => Branch.toJson branch :: Branch.listToJson rest

def Command.listToJson : List Command → List Json
  | [] => []
  | command :: rest => command.toJson :: Command.listToJson rest

end

namespace Branch

def names : List String := Condition.names ++ ["commands"]

def ofRecord (inCommand : Bool) (body : Json → Option (List Command)) (record : Record) :
    Option (Branch Command) := do
  return ⟨← Condition.ofRecord inCommand record, ← record.withDefault "commands" (fun _ => body) []⟩

end Branch

/-- No field of a command may occur twice, and all of them must be readable within the allowance,
also those that its type does not know. -/
def Command.ofMembers (branches : Json → Option (List (Branch Command))) (n : Nat)
    (members : List (String × Json)) : Option Command := do
  let head ← Record.of? ["id", "type"] (n + 1) (.obj members)
  if !Json.membersReadable members || Json.membersDepth members > n then none
  let type ← head.required "type" Action.typeName
  let record ← Record.of? (Action.names type) (n + 1) (.obj members)
  return ⟨← head.required "id" string, ← Action.ofRecord branches type record⟩

mutual

/-- The allowance falls by one at each bracket between a command and the commands inside it. -/
def Command.read : Reader Command
  | n + 1, .obj members => Command.ofMembers (Branch.readList n) n members
  | _, _ => none

def Branch.readList : Reader (List (Branch Command))
  | n + 1, .arr items => items.mapM (Branch.readInCommand n)
  | _, _ => none

def Branch.readInCommand : Reader (Branch Command)
  | n + 1, tree =>
    (Record.of? Branch.names (n + 1) tree).bind (Branch.ofRecord true (Command.readList n))
  | _, _ => none

def Command.readList : Reader (List Command)
  | n + 1, .arr items => items.mapM (Command.read n)
  | _, _ => none

end

/-- Reads a branch that stands outside a command. -/
def Branch.read : Reader (Branch Command)
  | n + 1, tree =>
    (Record.of? Branch.names (n + 1) tree).bind (Branch.ofRecord false (Command.readList n))
  | _, _ => none

end SceneScript
