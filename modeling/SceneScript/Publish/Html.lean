import SceneScript.Project.Codec
import SceneScript.Text.Base64
/-!
# Stories as web pages

A story is published as one page that needs no other file: the project, the program that plays it,
and the script that starts the program.
-/

namespace SceneScript

/-- The player for web pages: a script that starts it, and the program. -/
structure WebPlayer where
  loader : String
  program : List UInt8
  deriving DecidableEq, Repr, Inhabited

/-- Why a project cannot be published. -/
inductive PublishFault where
  | noProgram
  | zeroScale
  | overflow
  deriving DecidableEq, Repr, Inhabited

def PublishFault.message : PublishFault → String
  | noProgram => "运行时 wasm 为空，无法导出"
  | zeroScale => "缩放倍数必须大于 0"
  | overflow => "attempt to multiply with overflow"

namespace Html

/-- The spelling of a character in the text of a page. -/
def escapeChar : Char → List Char
  | '&' => "&amp;".toList
  | '<' => "&lt;".toList
  | '>' => "&gt;".toList
  | '"' => "&quot;".toList
  | '\'' => "&#39;".toList
  | c => [c]

def escape (text : List Char) : List Char := text.flatMap escapeChar

/-- Text inside a script element, with no closing tag left in it. JSON and scripts read `\/` in a
string as `/`. -/
def escapeScript : List Char → List Char
  | '<' :: '/' :: rest => '<' :: '\\' :: '/' :: escapeScript rest
  | c :: rest => c :: escapeScript rest
  | [] => []

def title (text : String) : List Char :=
  "<title>".toList ++ escape text.toList ++ "</title>\n".toList

def style : String :=
  "<style>\nhtml,body\x7bmargin:0;height:100%;background:#000;\x7d\n" ++
  "body\x7bdisplay:flex;align-items:center;justify-content:center;\x7d\n" ++
  "canvas\x7bimage-rendering:pixelated;image-rendering:crisp-edges;\x7d\n</style>\n"

/-- A side of the canvas on the page, which has to be a word. -/
def enlarged (side scale : UInt32) : Except PublishFault UInt32 :=
  if side.toNat * scale.toNat < UInt32.size then .ok (side * scale) else .error .overflow

/-- The canvas, and its size on the page. -/
def canvas (width height : UInt32) : String :=
  s!"<canvas id=\"vn-canvas\" width=\"{canvasWidth}\" height=\"{canvasHeight}\" " ++
  s!"style=\"width:{width}px;height:{height}px\"></canvas>\n"

/-- Data for the script, under a name. -/
def dataElement (type name : String) (content : List Char) : List Char :=
  s!"<script type=\"{type}\" id=\"{name}\">".toList ++ content ++ "</script>\n".toList

def loaderElement (content : List Char) : List Char :=
  "<script>\n".toList ++ content ++ "\n</script>\n".toList

def page (project : Project) (player : WebPlayer) (width height : UInt32) : List Char :=
  "<!DOCTYPE html>\n<html>\n<head>\n<meta charset=\"utf-8\">\n".toList
    ++ title project.title ++ style.toList ++ "</head>\n<body>\n".toList
    ++ (canvas width height).toList
    ++ dataElement "application/json" "vn-project" (escapeScript project.toJson.compactChars)
    ++ dataElement "application/wasm" "vn-runtime" (Base64.encode player.program)
    ++ loaderElement (escapeScript player.loader.toList)
    ++ "</body>\n</html>\n".toList

end Html

/-- The page of a project, enlarged as asked for, or else as the project says. -/
def Project.toHtml (project : Project) (player : WebPlayer) (scale : Option UInt32) :
    Except PublishFault String := do
  let scale := scale.getD project.settings.scale
  if player.program.isEmpty then throw .noProgram
  if scale = 0 then throw .zeroScale
  let width ← Html.enlarged canvasWidth scale
  let height ← Html.enlarged canvasHeight scale
  return .ofList (Html.page project player width height)

end SceneScript
