import SceneScript.Asset.Catalogue
import SceneScript.Script.Basic
/-!
# Drawings

A drawing is a list of calls on layers, from the lowest layer up, together with the boxes that can
be clicked.
-/

namespace SceneScript

inductive Layer where
  | background | character | messageBox | nameBox | text | choices | advanceArrow | sceneIndex
  deriving DecidableEq, Repr, Inhabited

namespace Layer

/-- Layers with greater numbers cover those with smaller ones. -/
def rank : Layer → Nat
  | background => 0 | character => 1 | messageBox => 2 | nameBox => 3 | text => 4 | choices => 5
  | advanceArrow => 6 | sceneIndex => 7

def all : List Layer :=
  [background, character, messageBox, nameBox, text, choices, advanceArrow, sceneIndex]

end Layer

inductive DrawOp where
  | fill (rect : Rect) (color : Color)
  /-- The part `source` of a picture, stretched to `target`. -/
  | image (handle : String) (source target : Rect) (opacity : UInt8)
  | skin (handle : String) (target : Rect)
  /-- A line of text; the point is its upper left corner. -/
  | text (text : String) (x y : Int32) (color : Color)
  | arrow (x y : Int32) (color : Color)
  deriving DecidableEq, Repr, Inhabited

/-- The picture that an operation needs. -/
def DrawOp.handle? : DrawOp → Option String
  | image handle .. => some handle
  | skin handle _ => some handle
  | _ => none

structure DrawCall where
  layer : Layer
  op : DrawOp
  deriving DecidableEq, Repr, Inhabited

/-- A box that picks a choice. -/
structure HitBox where
  rect : Rect
  choice : Index
  deriving DecidableEq, Repr, Inhabited

/-- The choice of the first box that contains a point. -/
def HitBox.test (boxes : List HitBox) (x y : Int32) : Option Index :=
  (boxes.find? fun box => box.rect.contains x y).map (·.choice)

structure Drawing where
  width : UInt32
  height : UInt32
  calls : List DrawCall := []
  hits : List HitBox := []
  /-- What is drawn in a plainer way than it should be. -/
  degraded : List AssetFault := []
  deriving DecidableEq, Repr, Inhabited

namespace Drawing

def layerOps (drawing : Drawing) (layer : Layer) : List DrawOp :=
  (drawing.calls.filter (·.layer == layer)).map (·.op)

/-- The layers in order; calls side by side on one layer count once. -/
def layers (drawing : Drawing) : List Layer :=
  drawing.calls.foldr (fun call layers =>
    if layers.head? == some call.layer then layers else call.layer :: layers) []

end Drawing

/-! ## Staging -/

/-- A drawing can be shown when all its pictures have come, or failed. -/
inductive Staging where
  | ready
  | waiting (layer : Layer) (handle : String)
  deriving DecidableEq, Repr, Inhabited

namespace Staging

def isReady : Staging → Bool
  | ready => true
  | waiting .. => false

/-- The call still waits for its picture. -/
def isPending (catalogue : Catalogue) (call : DrawCall) : Option String :=
  match call.op.handle? with
  | some handle => if catalogue handle matches .pending then some handle else none
  | none => none

end Staging

/-- Waits for the first picture that has not come. -/
def Drawing.staging (drawing : Drawing) (catalogue : Catalogue) : Staging :=
  match drawing.calls.findSome? fun call =>
    (Staging.isPending catalogue call).map (call.layer, ·) with
  | some (layer, handle) => .waiting layer handle
  | none => .ready

end SceneScript
