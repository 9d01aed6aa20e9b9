import SceneScript.Picture.Drawing
import SceneScript.Picture.Font
import SceneScript.Picture.Skin
/-!
# Rendering drawings

The calls are painted in order over an opaque black ground. Pictures that have not come are left
out.
-/

namespace SceneScript

namespace Render

def fill (canvas : Bitmap) (rect : Rect) (color : Color) : Bitmap :=
  canvas.paint rect fun _ _ below => below.blend color 255

/-- Where a place in a stretched span comes from: `offset` places behind the start of a target of
length `target`, for a source of length `source` that starts at `start`. -/
def sourcePlace (start : Int32) (source target : UInt32) (offset : Nat) : Int :=
  start.toInt + (offset * source.toNat / target.toNat : Nat)

/-- The pixel of a picture at a place that may lie outside of it. -/
def pixelAt? (image : Bitmap) (x y : Int) : Option Color :=
  if 0 ≤ x ∧ 0 ≤ y ∧ y < image.height.toNat then image.pixel? x.toNat y.toNat else none

/-- Paints a part of a picture, each pixel from the nearest place. -/
def blit (canvas image : Bitmap) (source target : Rect) (opacity : UInt8) : Bitmap :=
  if source.width = 0 ∨ source.height = 0 then canvas
  else
    canvas.paint target fun y =>
      let sourceY := sourcePlace source.y source.height target.height
        ((y : Int) - target.y.toInt).toNat
      fun x below =>
        let sourceX := sourcePlace source.x source.width target.width
          ((x : Int) - target.x.toInt).toNat
        match pixelAt? image sourceX sourceY with
        | some color => below.blend color opacity
        | none => below

/-- Paints the covered places of a glyph. -/
def glyph (canvas : Bitmap) (glyph : Glyph) (x y : Int32) (color : Color) : Bitmap :=
  let top := y + glyph.offsetY
  canvas.paint ⟨x, top, glyph.width, glyph.height⟩ fun row column below =>
    if glyph.covers ((column : Int) - x.toInt).toNat ((row : Int) - top.toInt).toNat then
      below.blend color 255
    else below

/-- Paints character by character; each moves the pen by its own width. -/
def text (font : Font) (y : Int32) (color : Color) : Bitmap → Int32 → List Char → Bitmap
  | canvas, _, [] => canvas
  | canvas, x, c :: rest =>
    let canvas := match font.glyph? c with
      | some shape => glyph canvas shape x y color
      | none => canvas
    text font y color canvas (x + (font.measure (String.singleton c)).toInt32) rest

/-- The rows of the arrow: seven pixels, and two fewer in each further row. -/
def arrowRows (x y : Int32) : List Rect :=
  [⟨x, y, 7, 1⟩, ⟨x + 1, y + 1, 5, 1⟩, ⟨x + 2, y + 2, 3, 1⟩, ⟨x + 3, y + 3, 1, 1⟩]

def op (catalogue : Catalogue) (font : Font) (canvas : Bitmap) : DrawOp → Bitmap
  | .fill rect color => fill canvas rect color
  | .image handle source target opacity =>
    match catalogue handle with
    | .ready image => blit canvas image source target opacity
    | _ => canvas
  | .skin handle target =>
    match catalogue handle with
    | .ready image =>
      if image.isSkin then
        (Skin.slices target).foldl
          (fun canvas (source, target) => blit canvas image source target 255) canvas
      else canvas
    | _ => canvas
  | .text line x y color => text font y color canvas x line.toList
  | .arrow x y color => (arrowRows x y).foldl (fun canvas row => fill canvas row color) canvas

end Render

def Drawing.render (drawing : Drawing) (catalogue : Catalogue) (font : Font) : Bitmap :=
  drawing.calls.foldl (fun canvas call => Render.op catalogue font canvas call.op)
    (.filled drawing.width drawing.height .black)

end SceneScript
