import SceneScript.Picture.Drawing
import SceneScript.Text.Wrap
import SceneScript.Run.Interpreter
/-!
# Layout

What a moment of the story looks like: the background, the character, and, while a dialogue waits,
its boxes, its text and its choices. The boxes of the choices are drawn and clicked at the same
places.
-/

namespace SceneScript

/-- How to look at a moment. An opacity that is given goes before visibility. -/
structure View where
  showSceneIndex : Bool := false
  backgroundOpacity : Option UInt8 := none
  characterOpacity : Option UInt8 := none
  clockMs : UInt64 := 0
  deriving DecidableEq, Repr, Inhabited

/-- A moment of the story. -/
structure Shot where
  project : Project
  scene : Index
  active : Option Command
  stage : Stage
  view : View
  hasFollowingContent : Bool

namespace Shot

/-- The moment at which a run stands. -/
def ofState (project : Project) (state : State) (view : View) : Except Fault Shot := do
  return {
    project, view
    scene := state.position.scene
    active := ← state.activeCommand project
    stage := state.stage
    hasFollowingContent := ← state.hasFollowingContent project }

end Shot

namespace Layout

/-! ## Measures and colours -/

def canvas : Rect := ⟨0, 0, canvasWidth, canvasHeight⟩
def messageBox : Rect := ⟨4, 124, 248, 64⟩
def textPaddingX : Int32 := 8
def textPaddingY : Int32 := 6
def nameBoxHeight : UInt32 := 13
/-- Left and right of the name together. -/
def nameBoxPadding : UInt32 := 8
def placeholderWidth : UInt32 := 48
def placeholderHeight : UInt32 := 96

def boxFill : Color := ⟨16, 16, 40, 224⟩
def choiceFill : Color := ⟨48, 48, 96, 224⟩
def placeholderFill : Color := ⟨128, 128, 128, 255⟩
def overlayFill : Color := ⟨0, 0, 0, 160⟩
def overlayText : Color := ⟨255, 255, 0, 255⟩

/-- The left edge of text and choices. -/
def textX : Int32 := messageBox.x + textPaddingX

def textY : Int32 := messageBox.y + textPaddingY

/-- The width that text and choices have. -/
def textWidth : UInt32 := messageBox.width - 2 * textPaddingX.toUInt32

/-- Height of a row of choices, and the space below it. More than three rows are lower. -/
def rowMetrics (choices : Nat) : UInt32 × UInt32 := if choices ≤ 3 then (14, 2) else (10, 1)

/-- The top of a line in the middle of a box; a line that is too high starts at the top. -/
def centered (box : Rect) (lineHeight : UInt32) : Int32 :=
  box.y + ((if lineHeight ≤ box.height then box.height - lineHeight else 0) / 2).toInt32

/-! ## Parts of a drawing -/

/-- A part of a drawing, and what had to be drawn in a plainer way in it. -/
structure Piece where
  calls : List DrawCall := []
  degraded : List AssetFault := []
  deriving DecidableEq, Repr, Inhabited

namespace Piece

def append (part other : Piece) : Piece :=
  ⟨part.calls ++ other.calls, part.degraded ++ other.degraded⟩

instance : Append Piece := ⟨append⟩

def ofOp (layer : Layer) (op : DrawOp) : Piece := ⟨[⟨layer, op⟩], []⟩

/-- What is drawn instead of a picture that cannot be used. -/
def instead (fault : AssetFault) (layer : Layer) (op : DrawOp) : Piece := ⟨[⟨layer, op⟩], [fault]⟩

def join (parts : List Piece) : Piece := parts.foldr append {}

end Piece

open Piece

/-- A box with its skin, or in a plain colour. -/
def skinnedBox (catalogue : Catalogue) (layer : Layer) (skin : Option String) (box : Rect)
    (plain : Color) : Piece :=
  match skin with
  | none => ofOp layer (.fill box plain)
  | some handle =>
    match catalogue handle with
    | .pending => ofOp layer (.skin handle box)
    | .failed message => instead (.loadFailure handle message) layer (.fill box plain)
    | .ready image =>
      if image.isSkin then ofOp layer (.skin handle box)
      else instead (.malformedSkin handle image.width image.height) layer (.fill box plain)

/-- What is visible is opaque, unless an opacity is given. -/
def opacity (visible : Bool) (given : Option UInt8) : UInt8 :=
  given.getD (if visible then 255 else 0)

def backgroundPicture (catalogue : Catalogue) (scene : Scene) (opacity : UInt8) : Piece :=
  let plain := DrawOp.fill canvas ((Color.ofHex scene.backgroundColor).withOpacity opacity)
  match scene.backgroundId with
  | none => ofOp .background plain
  | some id =>
    match catalogue id with
    | .ready image => ofOp .background (.image id image.bounds canvas opacity)
    | .pending => ofOp .background (.image id canvas canvas opacity)
    | .failed message => instead (.loadFailure id message) .background plain

/-- A black ground, and on it the background of the scene. -/
def background (catalogue : Catalogue) (scene : Scene) (opacity : UInt8) : Piece :=
  ofOp .background (.fill canvas .black)
    ++ if opacity = 0 then {} else backgroundPicture catalogue scene opacity

/-- The frame on show of a strip of sprites. A strip without usable frames is one picture. -/
def spriteSource (width height : UInt32) (animation : Option FrameAnimation) (clockMs : UInt64) :
    Rect :=
  match animation with
  | none => ⟨0, 0, width, height⟩
  | some animation =>
    if 0 < animation.frameWidth ∧ animation.frameWidth ≤ width then
      let last := width / animation.frameWidth - 1
      let x := min (animation.frameAt clockMs) last * animation.frameWidth
      ⟨x.toInt32, 0, animation.frameWidth, height⟩
    else ⟨0, 0, width, height⟩

/-- In the middle of the canvas, on its lower edge. -/
def stand (width height : UInt32) : Rect :=
  ⟨(canvasWidth.toInt32 - width.toInt32) / 2, canvasHeight.toInt32 - height.toInt32, width, height⟩

def characterPicture (catalogue : Catalogue) (id : String) (animation : Option FrameAnimation)
    (clockMs : UInt64) (opacity : UInt8) : Piece :=
  let placeholder := stand placeholderWidth placeholderHeight
  match catalogue id with
  | .ready image =>
    let source := spriteSource image.width image.height animation clockMs
    ofOp .character (.image id source (stand source.width source.height) opacity)
  | .pending =>
    ofOp .character
      (.image id ⟨0, 0, placeholder.width, placeholder.height⟩ placeholder opacity)
  | .failed message =>
    instead (.loadFailure id message) .character
      (.fill placeholder (placeholderFill.withOpacity opacity))

def character (catalogue : Catalogue) (scene : Scene) (animation : Option FrameAnimation)
    (clockMs : UInt64) (opacity : UInt8) : Piece :=
  match scene.characterId with
  | none => {}
  | some id =>
    if opacity = 0 then {} else characterPicture catalogue id animation clockMs opacity

/-! ## Dialogues -/

/-- The box of the speaker's name, on top of the message box. -/
def nameBox (font : Font) (speaker : String) : Rect :=
  ⟨messageBox.x, messageBox.y - nameBoxHeight.toInt32, font.measure speaker + nameBoxPadding,
    nameBoxHeight⟩

/-- Narration has no name. -/
def name (catalogue : Catalogue) (font : Font) (skin : Option String) (speaker : String) : Piece :=
  if speaker = "" then {}
  else
    let box := nameBox font speaker
    skinnedBox catalogue .nameBox skin box boxFill
      ++ ofOp .nameBox (.text speaker (box.x + (nameBoxPadding / 2).toInt32)
        (centered box font.lineHeight) .white)

/-- The top of the line at an index. -/
def lineY (font : Font) (index : Nat) : Int32 :=
  textY + Int32.ofNat index * font.lineHeight.toInt32

def message (font : Font) (lines : List String) : Piece :=
  ⟨lines.zipIdx.map fun (line, index) => ⟨.text, .text line textX (lineY font index) .white⟩, []⟩

/-- The row of the choice at an index, below the lines of the text. -/
def choiceRow (font : Font) (lines choices index : Nat) : Rect :=
  let (height, space) := rowMetrics choices
  ⟨textX, lineY font lines + 2 + Int32.ofNat index * (height + space).toInt32, textWidth, height⟩

def choice (catalogue : Catalogue) (font : Font) (skin : Option String) (row : Rect)
    (text : String) : Piece :=
  skinnedBox catalogue .choices skin row choiceFill
    ++ ofOp .choices (.text text (row.x + 4) (centered row font.lineHeight) .white)

def arrow (hasFollowingContent : Bool) : Piece :=
  if hasFollowingContent then
    ofOp .advanceArrow (.arrow (messageBox.right - 12) (messageBox.bottom - 9) .white)
  else {}

/-- The choices of a dialogue, each with its row. -/
def choiceRows (font : Font) (text : String) (choices : List Choice) : List (Choice × Rect) :=
  let lines := (Wrap.lines font textWidth text).length
  choices.zipIdx.map fun (choice, index) => (choice, choiceRow font lines choices.length index)

def dialogue (catalogue : Catalogue) (font : Font) (settings : Settings)
    (hasFollowingContent : Bool) (speaker text : String) (choices : List Choice) : Piece :=
  skinnedBox catalogue .messageBox settings.messageBoxImage messageBox boxFill
    ++ name catalogue font settings.nameBoxImage speaker
    ++ message font (Wrap.lines font textWidth text)
    ++ if choices.isEmpty then arrow hasFollowingContent
      else join ((choiceRows font text choices).map fun (answer, row) =>
        choice catalogue font settings.choiceBoxImage row answer.text)

def hits (font : Font) (text : String) (choices : List Choice) : List HitBox :=
  (choiceRows font text choices).zipIdx.map fun ((_, row), index) => ⟨row, .ofNat index⟩

/-! ## Drawings -/

/-- The number of the scene in the upper left corner. -/
def sceneIndex (font : Font) (scene : Index) : Piece :=
  let label := s!"#{scene.toNat}"
  ofOp .sceneIndex (.fill ⟨0, 0, font.measure label + 4, font.lineHeight + 2⟩ overlayFill)
    ++ ofOp .sceneIndex (.text label 2 1 overlayText)

end Layout

/-- The speaker, text and choices of the dialogue that waits. -/
def Shot.dialogue? (shot : Shot) : Option (String × String × List Choice) :=
  match shot.active with
  | some ⟨_, .dialogue speaker text choices⟩ => some (speaker, text, choices)
  | _ => none

open Layout in
def Shot.parts (shot : Shot) (catalogue : Catalogue) (font : Font) (scene : Scene) : Piece :=
  background catalogue scene
      (opacity shot.stage.backgroundVisible shot.view.backgroundOpacity)
    ++ character catalogue scene shot.stage.animation shot.view.clockMs
      (opacity shot.stage.characterVisible shot.view.characterOpacity)
    ++ (match shot.dialogue? with
      | some (speaker, text, choices) =>
        dialogue catalogue font shot.project.settings shot.hasFollowingContent speaker text choices
      | none => {})
    ++ (if shot.view.showSceneIndex then sceneIndex font shot.scene else {})

/-- The drawing of a moment, provided that its scene exists. -/
def Shot.layout (shot : Shot) (catalogue : Catalogue) (font : Font) : Except Fault Drawing := do
  let scene ← shot.project.sceneAt shot.scene
  let part := shot.parts catalogue font scene
  return {
    width := canvasWidth
    height := canvasHeight
    calls := part.calls
    hits := match shot.dialogue? with
      | some (_, text, choices) => Layout.hits font text choices
      | none => []
    degraded := part.degraded }

end SceneScript
