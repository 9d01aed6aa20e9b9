import SceneScript.Run.Interpreter
import SceneScript.Script.Codec
import SceneScript.Json.Parse
/-!
# States, inputs and effects as JSON
-/

namespace SceneScript

open Reader

namespace Json

/-- An alternative with content. -/
def alternative (name : String) (members : List (String × Json)) : Json :=
  .obj [(name, .obj members)]

def ofIndex (index : Index) : Json := .nat index.toNat

end Json

/-! ## Positions and states -/

namespace Waiting

def toJson : Waiting → Json
  | nothing => .str "None"
  | click => .str "WaitForClick"
  | choice count => .alternative "WaitForChoice" [("choice_count", .ofIndex count)]
  | transition target => .alternative "WaitForTransition" [("target_scene", .ofIndex target)]

def read : Reader Waiting :=
  variant ([("None", nothing), ("WaitForClick", click)].lookup ·) fun
    | "WaitForChoice" => some fun n tree => do
      let record ← Record.of? ["choice_count"] n tree
      return choice (← record.required "choice_count" uint64)
    | "WaitForTransition" => some fun n tree => do
      let record ← Record.of? ["target_scene"] n tree
      return transition (← record.required "target_scene" uint64)
    | _ => none

end Waiting

namespace Frame

def toJson : Frame → Json
  | branch owner chosen =>
    .alternative "Branch" [("command_index", .ofIndex owner), ("condition_index", .ofIndex chosen)]
  | group owner id =>
    .alternative "Shared" [("command_index", .ofIndex owner), ("group_id", .str id)]

def read : Reader Frame :=
  variant (fun _ => none) fun
    | "Branch" => some fun n tree => do
      let record ← Record.of? ["command_index", "condition_index"] n tree
      return branch (← record.required "command_index" uint64)
        (← record.required "condition_index" uint64)
    | "Shared" => some fun n tree => do
      let record ← Record.of? ["command_index", "group_id"] n tree
      return group (← record.required "command_index" uint64) (← record.required "group_id" string)
    | _ => none

end Frame

namespace Position

def toJson (position : Position) : Json :=
  .obj [("scene_index", .ofIndex position.scene),
    ("frames", .arr (position.frames.map Frame.toJson)),
    ("command_index", .ofIndex position.command)]

def read : Reader Position := fun n tree => do
  let record ← Record.of? ["scene_index", "frames", "command_index"] n tree
  return {
    scene := ← record.required "scene_index" uint64
    frames := ← record.withDefault "frames" (list Frame.read) []
    command := ← record.required "command_index" uint64 }

end Position

namespace Stage

def toJson (stage : Stage) : Json :=
  .obj [("background_visible", .bool stage.backgroundVisible),
    ("character_visible", .bool stage.characterVisible),
    ("character_animation", (stage.animation.map FrameAnimation.toJson).getD .null)]

def read : Reader Stage := fun n tree => do
  let record ← Record.of? ["background_visible", "character_visible", "character_animation"] n tree
  return {
    backgroundVisible := ← record.required "background_visible" bool
    characterVisible := ← record.required "character_visible" bool
    animation := ← record.withDefault "character_animation" FrameAnimation.read.nullable none }

end Stage

namespace State

def toJson (state : State) : Json :=
  .obj [("position", state.position.toJson),
    ("flags", state.flags.toJson .bool),
    ("variables", state.vars.toJson fun value => .nat value.toNat),
    ("stage", state.stage.toJson),
    ("waiting", state.waiting.toJson),
    ("finished", .bool state.finished)]

def names : List String := ["position", "flags", "variables", "stage", "waiting", "finished"]

def read : Reader State := fun n tree => do
  let record ← Record.of? names n tree
  return {
    position := ← record.required "position" Position.read
    flags := ← record.required "flags" (Table.read bool)
    vars := ← record.required "variables" (Table.read uint8)
    stage := ← record.required "stage" Stage.read
    waiting := ← record.required "waiting" Waiting.read
    finished := ← record.withDefault "finished" bool false }

end State

/-! ## Inputs -/

namespace Input

def toJson : Input → Json
  | click => .str "Click"
  | choose index => .alternative "ChoiceSelected" [("index", .ofIndex index)]
  | transitionFinished => .str "TransitionFinished"

def read : Reader Input :=
  variant ([("Click", click), ("TransitionFinished", transitionFinished)].lookup ·) fun
    | "ChoiceSelected" => some fun n tree => do
      let record ← Record.of? ["index"] n tree
      return choose (← record.required "index" uint64)
    | _ => none

end Input

/-! ## Effects -/

namespace Track

def name : Track → String
  | music => "Bgm" | ambience => "Bgs"

def names : List (String × Track) := [music, ambience].map fun track => (track.name, track)

end Track

namespace SoundCue

def toJson : SoundCue → Json
  | start track source volume pitch =>
    .alternative "Play" [("channel", .str track.name), ("source", .str source),
      ("volume", .nat volume.toNat), ("pitch", .nat pitch.toNat)]
  | stop track => .alternative "Stop" [("channel", .str track.name)]
  | fade track targetVolume durationMs =>
    .alternative "Fade" [("channel", .str track.name), ("target_volume", .nat targetVolume.toNat),
      ("duration_ms", .nat durationMs.toNat)]
  | effect source volume pitch pan =>
    .alternative "Sfx" [("source", .str source), ("volume", .nat volume.toNat),
      ("pitch", .nat pitch.toNat), ("pan", .int pan.toInt)]

def read : Reader SoundCue :=
  variant (fun _ => none) fun
    | "Play" => some fun n tree => do
      let record ← Record.of? ["channel", "source", "volume", "pitch"] n tree
      return start (← record.required "channel" (named Track.names))
        (← record.required "source" string) (← record.required "volume" uint8)
        (← record.required "pitch" uint16)
    | "Stop" => some fun n tree => do
      let record ← Record.of? ["channel"] n tree
      return stop (← record.required "channel" (named Track.names))
    | "Fade" => some fun n tree => do
      let record ← Record.of? ["channel", "target_volume", "duration_ms"] n tree
      return fade (← record.required "channel" (named Track.names))
        (← record.required "target_volume" uint8) (← record.required "duration_ms" uint32)
    | "Sfx" => some fun n tree => do
      let record ← Record.of? ["source", "volume", "pitch", "pan"] n tree
      return effect (← record.required "source" string) (← record.required "volume" uint8)
        (← record.required "pitch" uint16) (← record.required "pan" int16)
    | _ => none

end SoundCue

namespace StageLayer

def name : StageLayer → String
  | background => "Background" | character => "Character"

def names : List (String × StageLayer) :=
  [background, character].map fun layer => (layer.name, layer)

end StageLayer

namespace VisibilityChange

def toJson (change : VisibilityChange) : Json :=
  .obj [("layer", .str change.layer.name), ("visible", .bool change.visible),
    ("fade_ms", .nat change.fadeMs.toNat),
    ("animation", (change.animation.map FrameAnimation.toJson).getD .null)]

def read : Reader VisibilityChange := fun n tree => do
  let record ← Record.of? ["layer", "visible", "fade_ms", "animation"] n tree
  return {
    layer := ← record.required "layer" (named StageLayer.names)
    visible := ← record.required "visible" bool
    fadeMs := ← record.required "fade_ms" uint32
    animation := ← record.implied "animation" FrameAnimation.read }

end VisibilityChange

namespace Effect

def toJson : Effect → Json
  | sceneEntered scene => .alternative "SceneEntered" [("scene_index", .ofIndex scene)]
  | dialogue speaker text =>
    .alternative "ShowDialogue"
      [("speaker", (speaker.map Json.str).getD .null), ("text", .str text)]
  | choices texts => .alternative "PresentChoices" [("choices", .arr (texts.map Json.str))]
  | flagChanged name value =>
    .alternative "FlagChanged" [("name", .str name), ("value", .bool value)]
  | variableChanged name value =>
    .alternative "VariableChanged" [("name", .str name), ("value", .nat value.toNat)]
  | sound cue => .obj [("Audio", cue.toJson)]
  | visibility change => .obj [("Visibility", change.toJson)]
  | beginTransition fromScene toScene =>
    .alternative "BeginTransition"
      [("from_scene", .ofIndex fromScene), ("to_scene", .ofIndex toScene)]
  | halted => .str "Halted"

def read : Reader Effect :=
  variant ([("Halted", halted)].lookup ·) fun
    | "SceneEntered" => some fun n tree => do
      let record ← Record.of? ["scene_index"] n tree
      return sceneEntered (← record.required "scene_index" uint64)
    | "ShowDialogue" => some fun n tree => do
      let record ← Record.of? ["speaker", "text"] n tree
      return dialogue (← record.implied "speaker" string) (← record.required "text" string)
    | "PresentChoices" => some fun n tree => do
      let record ← Record.of? ["choices"] n tree
      return choices (← record.required "choices" (list string))
    | "FlagChanged" => some fun n tree => do
      let record ← Record.of? ["name", "value"] n tree
      return flagChanged (← record.required "name" string) (← record.required "value" bool)
    | "VariableChanged" => some fun n tree => do
      let record ← Record.of? ["name", "value"] n tree
      return variableChanged (← record.required "name" string) (← record.required "value" uint8)
    | "Audio" => some fun n tree => (SoundCue.read n tree).map sound
    | "Visibility" => some fun n tree => (VisibilityChange.read n tree).map visibility
    | "BeginTransition" => some fun n tree => do
      let record ← Record.of? ["from_scene", "to_scene"] n tree
      return beginTransition (← record.required "from_scene" uint64)
        (← record.required "to_scene" uint64)
    | _ => none

end Effect
end SceneScript
