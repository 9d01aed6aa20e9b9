import SceneScript.Picture.Drawing
import SceneScript.Run.Codec
/-!
# Drawing calls as JSON
-/

namespace SceneScript

open Reader

namespace Rect

def toJson (rect : Rect) : Json :=
  .obj [("x", .int rect.x.toInt), ("y", .int rect.y.toInt), ("width", .nat rect.width.toNat),
    ("height", .nat rect.height.toNat)]

def read : Reader Rect := fun n tree => do
  let record ← Record.of? ["x", "y", "width", "height"] n tree
  return ⟨← record.required "x" int32, ← record.required "y" int32,
    ← record.required "width" uint32, ← record.required "height" uint32⟩

end Rect

namespace Color

def toJson (color : Color) : Json :=
  .arr ([color.red, color.green, color.blue, color.alpha].map fun channel => .nat channel.toNat)

/-- Exactly four channels. -/
def read : Reader Color := fun n tree =>
  match list uint8 n tree with
  | some [red, green, blue, alpha] => some ⟨red, green, blue, alpha⟩
  | _ => none

end Color

namespace Layer

def name : Layer → String
  | background => "Background" | character => "Character" | messageBox => "MessageBox"
  | nameBox => "NameBox" | text => "Text" | choices => "Choices" | advanceArrow => "AdvanceArrow"
  | sceneIndex => "SceneIndex"

def names : List (String × Layer) := all.map fun layer => (layer.name, layer)

end Layer

namespace DrawOp

def toJson : DrawOp → Json
  | fill rect color => .alternative "Fill" [("rect", rect.toJson), ("color", color.toJson)]
  | image handle source target opacity =>
    .alternative "Image" [("handle", .str handle), ("src", source.toJson), ("dest", target.toJson),
      ("opacity", .nat opacity.toNat)]
  | skin handle target =>
    .alternative "NineSlice" [("handle", .str handle), ("dest", target.toJson)]
  | .text line x y color =>
    .alternative "Text" [("text", .str line), ("x", .int x.toInt), ("y", .int y.toInt),
      ("color", color.toJson)]
  | arrow x y color =>
    .alternative "AdvanceArrow" [("x", .int x.toInt), ("y", .int y.toInt), ("color", color.toJson)]

def read : Reader DrawOp :=
  variant (fun _ => none) fun
    | "Fill" => some fun n tree => do
      let record ← Record.of? ["rect", "color"] n tree
      return fill (← record.required "rect" Rect.read) (← record.required "color" Color.read)
    | "Image" => some fun n tree => do
      let record ← Record.of? ["handle", "src", "dest", "opacity"] n tree
      return image (← record.required "handle" string) (← record.required "src" Rect.read)
        (← record.required "dest" Rect.read) (← record.required "opacity" uint8)
    | "NineSlice" => some fun n tree => do
      let record ← Record.of? ["handle", "dest"] n tree
      return skin (← record.required "handle" string) (← record.required "dest" Rect.read)
    | "Text" => some fun n tree => do
      let record ← Record.of? ["text", "x", "y", "color"] n tree
      return .text (← record.required "text" string) (← record.required "x" int32)
        (← record.required "y" int32) (← record.required "color" Color.read)
    | "AdvanceArrow" => some fun n tree => do
      let record ← Record.of? ["x", "y", "color"] n tree
      return arrow (← record.required "x" int32) (← record.required "y" int32)
        (← record.required "color" Color.read)
    | _ => none

end DrawOp

namespace DrawCall

def toJson (call : DrawCall) : Json :=
  .obj [("layer", .str call.layer.name), ("op", call.op.toJson)]

def read : Reader DrawCall := fun n tree => do
  let record ← Record.of? ["layer", "op"] n tree
  return ⟨← record.required "layer" (named Layer.names), ← record.required "op" DrawOp.read⟩

end DrawCall
end SceneScript
