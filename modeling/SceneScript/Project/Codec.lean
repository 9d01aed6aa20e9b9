import SceneScript.Project.Basic
import SceneScript.Script.Codec
import SceneScript.Json.Parse
import SceneScript.Json.Print
/-!
# Projects as JSON

A project is one document. Members that are absent take their defaults, so that older documents stay
readable.
-/

namespace SceneScript

open Reader

/-- A member that is left out when it has no value. -/
def Json.optionalMember (name : String) (value : Option String) : List (String × Json) :=
  (value.map fun text => (name, Json.str text)).toList

namespace Flag

def toJson (flag : Flag) : Json :=
  .obj [("id", .str flag.id), ("name", .str flag.name), ("value", .bool flag.value)]

def read : Reader Flag := fun n tree => do
  let record ← Record.of? ["id", "name", "value"] n tree
  return {
    id := ← record.required "id" string
    name := ← record.required "name" string
    value := ← record.withDefault "value" bool false }

end Flag

namespace Variable

def toJson (variable_ : Variable) : Json :=
  .obj [("id", .str variable_.id), ("name", .str variable_.name),
    ("value", .nat variable_.value.toNat)]

def read : Reader Variable := fun n tree => do
  let record ← Record.of? ["id", "name", "value"] n tree
  return {
    id := ← record.required "id" string
    name := ← record.required "name" string
    value := ← record.withDefault "value" uint8 0 }

end Variable

namespace Scene

def toJson (scene : Scene) : Json :=
  .obj ([("id", .str scene.id), ("name", .str scene.name),
      ("backgroundColor", .str scene.backgroundColor)]
    ++ Json.optionalMember "backgroundId" scene.backgroundId
    ++ Json.optionalMember "characterId" scene.characterId
    ++ [("characterVisible", .bool scene.characterVisible),
      ("commands", .arr (Command.listToJson scene.commands))])

def names : List String :=
  ["id", "name", "backgroundColor", "backgroundId", "characterId", "characterVisible", "commands"]

def read : Reader Scene := fun n tree => do
  let record ← Record.of? names n tree
  return {
    id := ← record.required "id" string
    name := ← record.withDefault "name" string ""
    backgroundColor := ← record.withDefault "backgroundColor" string "#000000"
    backgroundId := ← record.withDefault "backgroundId" string.nullable none
    characterId := ← record.withDefault "characterId" string.nullable none
    characterVisible := ← record.withDefault "characterVisible" bool true
    commands := ← record.withDefault "commands" (list Command.read) [] }

end Scene

namespace CommandGroup

def toJson (group : CommandGroup) : Json :=
  .obj [("id", .str group.id), ("name", .str group.name),
    ("commands", .arr (Command.listToJson group.commands))]

def read : Reader CommandGroup := fun n tree => do
  let record ← Record.of? ["id", "name", "commands"] n tree
  return {
    id := ← record.required "id" string
    name := ← record.withDefault "name" string ""
    commands := ← record.withDefault "commands" (list Command.read) [] }

end CommandGroup

namespace AssetEntry

def toJson (entry : AssetEntry) : Json :=
  .obj [("id", .str entry.id), ("name", .str entry.name), ("image", .str entry.image)]

def read : Reader AssetEntry := fun n tree => do
  let record ← Record.of? ["id", "name", "image"] n tree
  return {
    id := ← record.required "id" string
    name := ← record.withDefault "name" string ""
    image := ← record.withDefault "image" string "" }

end AssetEntry

namespace Settings

def toJson (settings : Settings) : Json :=
  .obj ([("scale", .nat settings.scale.toNat), ("font", .str settings.font)]
    ++ Json.optionalMember "customFont" settings.customFont
    ++ Json.optionalMember "messageBoxImage" settings.messageBoxImage
    ++ Json.optionalMember "nameBoxImage" settings.nameBoxImage
    ++ Json.optionalMember "choiceBoxImage" settings.choiceBoxImage
    ++ Json.optionalMember "transitionImage" settings.transitionImage
    ++ [("transitionDurationMs", .nat settings.transitionDurationMs.toNat)])

def names : List String :=
  ["scale", "font", "customFont", "messageBoxImage", "nameBoxImage", "choiceBoxImage",
    "transitionImage", "transitionDurationMs"]

def read : Reader Settings := fun n tree => do
  let record ← Record.of? names n tree
  return {
    scale := ← record.withDefault "scale" uint32 2
    font := ← record.withDefault "font" string "default"
    customFont := ← record.withDefault "customFont" string.nullable none
    messageBoxImage := ← record.withDefault "messageBoxImage" string.nullable none
    nameBoxImage := ← record.withDefault "nameBoxImage" string.nullable none
    choiceBoxImage := ← record.withDefault "choiceBoxImage" string.nullable none
    transitionImage := ← record.withDefault "transitionImage" string.nullable none
    transitionDurationMs := ← record.withDefault "transitionDurationMs" uint64 800 }

end Settings

namespace Project

def toJson (project : Project) : Json :=
  .obj [("title", .str project.title),
    ("resolution", .arr [.nat project.resolution.1.toNat, .nat project.resolution.2.toNat]),
    ("flags", .arr (project.flags.map Flag.toJson)),
    ("variables", .arr (project.vars.map Variable.toJson)),
    ("scenes", .arr (project.scenes.map Scene.toJson)),
    ("sharedCommands", .arr (project.sharedCommands.map CommandGroup.toJson)),
    ("settings", project.settings.toJson),
    ("characters", .arr (project.characters.map AssetEntry.toJson)),
    ("backgrounds", .arr (project.backgrounds.map AssetEntry.toJson))]

def names : List String :=
  ["title", "resolution", "flags", "variables", "scenes", "sharedCommands", "settings",
    "characters", "backgrounds"]

/-- Exactly a width and a height. -/
def readResolution : Reader (UInt32 × UInt32) := fun n tree =>
  match list uint32 n tree with
  | some [width, height] => some (width, height)
  | _ => none

def read : Reader Project := fun n tree => do
  let record ← Record.of? names n tree
  return {
    title := ← record.withDefault "title" string ""
    resolution := ← record.withDefault "resolution" readResolution (canvasWidth, canvasHeight)
    flags := ← record.withDefault "flags" (list Flag.read) []
    vars := ← record.withDefault "variables" (list Variable.read) []
    scenes := ← record.withDefault "scenes" (list Scene.read) []
    sharedCommands := ← record.withDefault "sharedCommands" (list CommandGroup.read) []
    settings := ← record.withDefault "settings" Settings.read {}
    characters := ← record.withDefault "characters" (list AssetEntry.read) []
    backgrounds := ← record.withDefault "backgrounds" (list AssetEntry.read) [] }

/-- Why a document is no project. -/
inductive LoadError where
  | unreadable
  | unsupportedResolution (width height : UInt32)
  deriving DecidableEq, Repr, Inhabited

def LoadError.message : LoadError → String
  | unreadable => "工程文件解析失败"
  | unsupportedResolution width height =>
    s!"不支持的分辨率 {width}×{height}，画布固定为 {canvasWidth}×{canvasHeight}"

/-- Every layout is made for one canvas, so a project with another resolution is refused. -/
def checkResolution (project : Project) : Except LoadError Project :=
  if project.resolution = (canvasWidth, canvasHeight) then .ok project
  else .error (.unsupportedResolution project.resolution.1 project.resolution.2)

def ofTree (tree : Json) : Except LoadError Project :=
  match read nesting tree with
  | some project => project.checkResolution
  | none => .error .unreadable

def ofText (text : String) : Except LoadError Project :=
  match Json.parse? text with
  | some tree => ofTree tree
  | none => .error .unreadable

def toText (project : Project) : String := project.toJson.pretty

end Project
end SceneScript
