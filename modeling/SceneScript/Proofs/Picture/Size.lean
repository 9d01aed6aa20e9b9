import SceneScript.Picture.Layout
import SceneScript.Picture.Render
import SceneScript.Show.Transition

/-! # Sizes of pictures

Painting keeps the size of a picture, so all pictures of a show have the size of the canvas.
-/

namespace SceneScript

namespace Bitmap

variable {image other third : Bitmap}

theorem SameSize.refl (image : Bitmap) : image.SameSize image := ⟨rfl, rfl⟩

theorem SameSize.trans (h : image.SameSize other) (h' : other.SameSize third) :
    image.SameSize third :=
  ⟨h.1.trans h'.1, h.2.trans h'.2⟩

theorem sameSize_paint (image : Bitmap) (region : Rect) (change : Nat → Nat → Color → Color) :
    (image.paint region change).SameSize image := by
  unfold paint
  cases region.intersect? image.bounds with
  | none => exact .refl image
  | some within => exact ⟨rfl, rfl⟩

/-- What keeps the size at each item of a list keeps it over the list. -/
theorem sameSize_foldl {α : Type} {f : Bitmap → α → Bitmap}
    (h : ∀ image item, (f image item).SameSize image) (items : List α) (image : Bitmap) :
    (items.foldl f image).SameSize image := by
  induction items generalizing image with
  | nil => exact .refl image
  | cons item rest ih => exact (ih (f image item)).trans (h image item)

/-- The image has the size of the canvas. -/
def FitsCanvas (image : Bitmap) : Prop := image.width = canvasWidth ∧ image.height = canvasHeight

theorem FitsCanvas.sameSize (h : image.FitsCanvas) (h' : other.FitsCanvas) :
    image.SameSize other :=
  ⟨h.1.trans h'.1.symm, h.2.trans h'.2.symm⟩

theorem SameSize.fitsCanvas (h : image.SameSize other) (h' : other.FitsCanvas) :
    image.FitsCanvas :=
  ⟨h.1.trans h'.1, h.2.trans h'.2⟩

/-- A wipe has the size of its sides. -/
theorem sameSize_wipe (h : image.SameSize other) (mask : Option Bitmap) (threshold : Nat) :
    (image.wipe other mask threshold).SameSize other := by
  unfold wipe
  cases mask with
  | none => exact .refl other
  | some mask =>
      by_cases hempty : mask.width = 0 ∨ mask.height = 0
      · simp only [if_pos hempty]
        exact .refl other
      · simp only [if_neg hempty]
        exact h

end Bitmap

namespace Render

theorem sameSize_blit (canvas image : Bitmap) (source target : Rect) (opacity : UInt8) :
    (blit canvas image source target opacity).SameSize canvas := by
  unfold blit
  split
  · exact .refl canvas
  · exact Bitmap.sameSize_paint _ _ _

theorem sameSize_text (font : Font) (y : Int32) (color : Color) (characters : List Char)
    (canvas : Bitmap) (x : Int32) : (text font y color canvas x characters).SameSize canvas := by
  induction characters generalizing canvas x with
  | nil => exact .refl canvas
  | cons c rest ih =>
      unfold text
      refine (ih _ _).trans ?_
      cases font.glyph? c with
      | none => exact .refl canvas
      | some shape => exact Bitmap.sameSize_paint _ _ _

theorem sameSize_op (catalogue : Catalogue) (font : Font) (canvas : Bitmap) (op : DrawOp) :
    (Render.op catalogue font canvas op).SameSize canvas := by
  cases op with
  | fill rect color => exact Bitmap.sameSize_paint _ _ _
  | image handle source target opacity =>
      simp only [Render.op]
      cases catalogue handle with
      | ready image => exact sameSize_blit _ _ _ _ _
      | _ => exact .refl canvas
  | skin handle target =>
      simp only [Render.op]
      cases catalogue handle with
      | ready image =>
          by_cases hskin : image.isSkin = true
          · simp only [if_pos hskin]
            exact Bitmap.sameSize_foldl (fun image slice => sameSize_blit image _ _ _ _) _ _
          · simp only [if_neg hskin]
            exact .refl canvas
      | _ => exact .refl canvas
  | text line x y color => exact sameSize_text font y color _ _ _
  | arrow x y color =>
      exact Bitmap.sameSize_foldl (fun image row => Bitmap.sameSize_paint image _ _) _ _

end Render

/-- A rendered drawing has the size of the drawing. -/
theorem Drawing.size_render (drawing : Drawing) (catalogue : Catalogue) (font : Font) :
    (drawing.render catalogue font).width = drawing.width ∧
      (drawing.render catalogue font).height = drawing.height := by
  have hcall : ∀ (canvas : Bitmap) (call : DrawCall),
      (Render.op catalogue font canvas call.op).SameSize canvas :=
    fun canvas call => Render.sameSize_op catalogue font canvas call.op
  exact Bitmap.sameSize_foldl hcall drawing.calls
    (.filled drawing.width drawing.height .black)

/-- A drawing of a moment is as large as the canvas, whatever pictures have come. -/
theorem Shot.fitsCanvas_render {shot : Shot} {catalogue : Catalogue} {font : Font}
    {drawing : Drawing} (h : shot.layout catalogue font = .ok drawing) (catalogue' : Catalogue)
    (font' : Font) : (drawing.render catalogue' font').FitsCanvas := by
  unfold Shot.layout at h
  cases hscene : shot.project.sceneAt shot.scene with
  | error fault =>
      rw [hscene] at h
      cases h
  | ok scene =>
      rw [hscene] at h
      cases h
      exact Drawing.size_render _ catalogue' font'

end SceneScript
