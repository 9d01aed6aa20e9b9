import SceneScript.Proofs.Picture.Painting

/-! # The painter's algorithm

What a drawing puts on a point can be told for that point alone: every call that covers the point
adds its colours, in the order of the calls, over opaque black. As long as all coordinates are
words, rendering gives each pixel exactly this colour, and it is opaque.
-/

namespace SceneScript

/-! ## Coats of colour -/

/-- A colour that is put on a point. -/
structure Coat where
  color : Color
  opacity : UInt8 := 255
  deriving DecidableEq, Repr

namespace Coat

/-- Coats one over the other, the last one on top. -/
def onto (coats : List Coat) (below : Color) : Color :=
  coats.foldl (fun below coat => below.blend coat.color coat.opacity) below

theorem onto_nil : onto [] = id := rfl

theorem onto_append (coats more : List Coat) (below : Color) :
    onto (coats ++ more) below = onto more (onto coats below) :=
  List.foldl_append

end Coat

theorem Color.alpha_blend {below : Color} (h : below.alpha = 255) (above : Color)
    (opacity : UInt8) : (below.blend above opacity).alpha = 255 := by
  unfold blend
  dsimp only
  split
  · exact h
  · generalize scale above.alpha opacity = alpha
    have hlt := alpha.toNat_lt
    have hrest : (255 - alpha).toNat = 255 - alpha.toNat := by
      rw [UInt8.toNat_sub_of_le]
      · rfl
      · rw [UInt8.le_iff_toNat_le]
        exact Nat.le_of_lt_succ hlt
    have hscale : (scale 255 (255 - alpha)).toNat = 255 - alpha.toNat := by
      unfold scale
      rw [hrest, UInt8.toNat_ofNat', show (255 : UInt8).toNat = 255 from rfl]
      omega
    rw [h]
    unfold saturate
    rw [hscale, show alpha.toNat + (255 - alpha.toNat) = 255 by omega]
    rfl

theorem Coat.alpha_onto (coats : List Coat) {below : Color} (h : below.alpha = 255) :
    (onto coats below).alpha = 255 := by
  induction coats generalizing below with
  | nil => exact h
  | cons coat rest ih => exact ih (Color.alpha_blend h coat.color coat.opacity)

/-! ## What is put on a point -/

/-- A plain colour over an area. -/
def Area.coats (area : Area) (color : Color) (x y : Int) : List Coat :=
  if area.Covers x y then [{ color }] else []

/-- Part of a picture, stretched to an area: each point takes the colour of the place below it, if
the picture has that place. -/
def Bitmap.coats (image : Bitmap) (source target : Area) (opacity : UInt8) (x y : Int) :
    List Coat :=
  if 0 < source.width ∧ 0 < source.height ∧ target.Covers x y then
    let column := source.x + (x - target.x) * source.width / target.width
    let row := source.y + (y - target.y) * source.height / target.height
    ((Render.pixelAt? image column row).map fun color => { color, opacity }).toList
  else []

/-- Where a glyph is drawn. -/
def Glyph.area (shape : Glyph) (pen top : Int) : Area :=
  ⟨pen, top + shape.offsetY.toInt, shape.width.toNat, shape.height.toNat⟩

/-- The covered places of a glyph. -/
def Glyph.coats (shape : Glyph) (pen top : Int) (color : Color) (x y : Int) : List Coat :=
  let area := shape.area pen top
  if area.Covers x y ∧ shape.covers (x - area.x).toNat (y - area.y).toNat then [{ color }] else []

/-- The glyphs of a line, each with the place of the pen. -/
def Font.pens (font : Font) (pen : Int) : List Char → List (Int × Glyph)
  | [] => []
  | c :: rest =>
    ((font.glyph? c).map (pen, ·)).toList
      ++ pens font (pen + (font.measure (String.singleton c)).toNat) rest

/-- The rows of the arrow. -/
def arrowAreas (x y : Int) : List Area :=
  (List.range 4).map fun (row : Nat) => ⟨x + row, y + row, 7 - 2 * row, 1⟩

/-- What a call puts on a point. -/
def DrawOp.coats (catalogue : Catalogue) (font : Font) (op : DrawOp) (x y : Int) : List Coat :=
  match op with
  | .fill rect color => rect.area.coats color x y
  | .image handle source target opacity =>
    match catalogue handle with
    | .ready picture => picture.coats source.area target.area opacity x y
    | _ => []
  | .skin handle target =>
    match catalogue handle with
    | .ready picture =>
      if picture.isSkin then
        (Skin.slices target).flatMap fun slice => picture.coats slice.1.area slice.2.area 255 x y
      else []
    | _ => []
  | .text line left top color =>
    (font.pens left.toInt line.toList).flatMap fun (pen, shape) =>
      shape.coats pen top.toInt color x y
  | .arrow left top color =>
    (arrowAreas left.toInt top.toInt).flatMap fun row => row.coats color x y

/-- The colour of a point, by all calls that cover it. -/
def Drawing.colorAt (drawing : Drawing) (catalogue : Catalogue) (font : Font) (x y : Int) : Color :=
  Coat.onto (drawing.calls.flatMap fun call => call.op.coats catalogue font x y) .black

/-! ## Coordinates -/

/-- The coordinates of a call are words. -/
def DrawOp.Fits (font : Font) : DrawOp → Prop
  | .fill rect _ => rect.area.Fits
  | .image _ _ target _ => target.area.Fits
  | .skin _ target => ∀ slice ∈ Skin.slices target, slice.2.area.Fits
  | .text line left top _ =>
    ∀ place ∈ font.pens left.toInt line.toList, (place.2.area place.1 top.toInt).Fits
  | .arrow left top _ => Area.Fits ⟨left.toInt, top.toInt, 7, 4⟩

instance (font : Font) : (op : DrawOp) → Decidable (op.Fits font)
  | .fill rect _ => inferInstanceAs (Decidable rect.area.Fits)
  | .image _ _ target _ => inferInstanceAs (Decidable target.area.Fits)
  | .skin _ target => inferInstanceAs (Decidable (∀ slice ∈ Skin.slices target, slice.2.area.Fits))
  | .text line left top _ => inferInstanceAs (Decidable
      (∀ place ∈ font.pens left.toInt line.toList, (place.2.area place.1 top.toInt).Fits))
  | .arrow left top _ => inferInstanceAs (Decidable (Area.Fits ⟨left.toInt, top.toInt, 7, 4⟩))

/-- All coordinates of the drawing are words. -/
def Drawing.Fits (drawing : Drawing) (font : Font) : Prop :=
  Area.Fits ⟨0, 0, drawing.width.toNat, drawing.height.toNat⟩ ∧
    ∀ call ∈ drawing.calls, call.op.Fits font

instance (drawing : Drawing) (font : Font) : Decidable (drawing.Fits font) :=
  inferInstanceAs (Decidable (_ ∧ _))

/-! ## Painted bitmaps -/

namespace Bitmap

/-- Every pixel of a bitmap has got its coats. -/
structure Painted (before after : Bitmap) (coats : Int → Int → List Coat) : Prop where
  size : after.SameSize before
  pixel : ∀ x y : Nat, after.pixel? x y = (before.pixel? x y).map (Coat.onto (coats x y))

variable {before middle after image : Bitmap} {coats more : Int → Int → List Coat} {region : Rect}
  {change : Nat → Nat → Color → Color}

theorem Painted.refl (image : Bitmap) : image.Painted image fun _ _ => [] where
  size := .refl image
  pixel x y := by
    rw [Coat.onto_nil, Option.map_id, id]

theorem Painted.trans (h : before.Painted middle coats) (h' : middle.Painted after more) :
    before.Painted after fun x y => coats x y ++ more x y where
  size := h'.size.trans h.size
  pixel x y := by
    rw [h'.pixel, h.pixel, Option.map_map]
    congr 1
    funext below
    exact (Coat.onto_append (coats x y) (more x y) below).symm

/-- Painting item by item puts on each point the coats of all items. -/
theorem Painted.foldl {α : Type} {step : Bitmap → α → Bitmap} {coats : α → Int → Int → List Coat}
    {items : List α}
    (h : ∀ image : Bitmap, image.Fits → ∀ item ∈ items,
      image.Painted (step image item) (coats item))
    (hfits : before.Fits) :
    before.Painted (items.foldl step before) fun x y =>
      items.flatMap fun item => coats item x y := by
  induction items generalizing before with
  | nil => exact .refl before
  | cons item rest ih =>
      have hfirst := h before hfits item (List.mem_cons_self ..)
      have hitems : ∀ image : Bitmap, image.Fits → ∀ item ∈ rest,
          image.Painted (step image item) (coats item) := by
        intro image hfits item hitem
        exact h image hfits item (List.mem_cons_of_mem _ hitem)
      have hrest := ih hitems (hfirst.size.fits hfits)
      exact hfirst.trans hrest

/-- Painting a region puts on each of its points what the change does there. -/
theorem painted_paint (hfits : image.Fits) (hregion : region.area.Fits)
    (hinside : ∀ x y : Nat, region.area.Covers x y → change y x = Coat.onto (coats x y))
    (houtside : ∀ x y : Nat, ¬region.area.Covers x y → coats x y = []) :
    image.Painted (image.paint region change) coats where
  size := sameSize_paint image region change
  pixel x y := by
    rw [pixel?_paint hfits hregion]
    by_cases hcovers : region.area.Covers x y
    · rw [if_pos hcovers, hinside x y hcovers]
    · rw [if_neg hcovers, houtside x y hcovers, Coat.onto_nil, Option.map_id, id]

end Bitmap

/-! ## Calls -/

namespace Render

variable {canvas image : Bitmap} {font : Font} {catalogue : Catalogue}

theorem painted_fill (hfits : canvas.Fits) {rect : Rect} (hrect : rect.area.Fits) (color : Color) :
    canvas.Painted (fill canvas rect color) (rect.area.coats color) := by
  apply Bitmap.painted_paint hfits hrect
  · intro x y hcovers
    rw [Area.coats, if_pos hcovers]
    rfl
  · intro x y houtside
    rw [Area.coats, if_neg houtside]

theorem sourcePlace_toNat (start : Int32) (source target : UInt32) {offset : Int}
    (h : 0 ≤ offset) :
    sourcePlace start source target offset.toNat =
      start.toInt + offset * source.toNat / target.toNat := by
  rw [sourcePlace, Int.natCast_ediv, Int.natCast_mul, Int.toNat_of_nonneg h]

theorem painted_blit (hfits : canvas.Fits) {target : Rect} (htarget : target.area.Fits)
    (image : Bitmap) (source : Rect) (opacity : UInt8) :
    canvas.Painted (blit canvas image source target opacity)
      (image.coats source.area target.area opacity) := by
  unfold blit
  by_cases hempty : source.width = 0 ∨ source.height = 0
  · have hnothing : image.coats source.area target.area opacity = fun _ _ => [] := by
      funext x y
      rw [Bitmap.coats, if_neg]
      rintro ⟨hwidth, hheight, -⟩
      rcases hempty with hzero | hzero <;> simp [Rect.area, hzero] at hwidth hheight
    rw [if_pos hempty, hnothing]
    exact .refl canvas
  · have hsource : 0 < source.area.width ∧ 0 < source.area.height := by
      rw [not_or] at hempty
      constructor
      · exact Nat.pos_of_ne_zero fun hzero => hempty.1 (UInt32.toNat_inj.mp hzero)
      · exact Nat.pos_of_ne_zero fun hzero => hempty.2 (UInt32.toNat_inj.mp hzero)
    rw [if_neg hempty]
    apply Bitmap.painted_paint hfits htarget
    · intro x y hcovers
      funext below
      have hx : 0 ≤ (x : Int) - target.x.toInt := Int.sub_nonneg_of_le hcovers.1
      have hy : 0 ≤ (y : Int) - target.y.toInt := Int.sub_nonneg_of_le hcovers.2.2.1
      rw [Bitmap.coats, if_pos ⟨hsource.1, hsource.2, hcovers⟩]
      simp only [sourcePlace_toNat _ _ _ hx, sourcePlace_toNat _ _ _ hy, Rect.area]
      split
      · next color hcolor =>
          rw [hcolor]
          rfl
      · next hnone =>
          rw [hnone]
          rfl
    · intro x y houtside
      rw [Bitmap.coats, if_neg]
      rintro ⟨-, -, hcovers⟩
      exact houtside hcovers

/-- The rectangle of a glyph has the exact coordinates as long as they are words. -/
theorem area_glyph {shape : Glyph} {x y : Int32} (hshape : (shape.area x.toInt y.toInt).Fits) :
    Rect.area ⟨x, y + shape.offsetY, shape.width, shape.height⟩ =
      shape.area x.toInt y.toInt := by
  have hlow : -2147483648 ≤ y.toInt + shape.offsetY.toInt := hshape.2.1
  have hhigh : y.toInt + shape.offsetY.toInt + shape.height.toNat ≤ 2147483647 := hshape.2.2
  rw [Rect.area, toInt_add_of_fits hlow (by omega)]
  rfl

theorem painted_glyph (hfits : canvas.Fits) {shape : Glyph} {x y : Int32}
    (hshape : (shape.area x.toInt y.toInt).Fits) (color : Color) :
    canvas.Painted (glyph canvas shape x y color) (shape.coats x.toInt y.toInt color) := by
  have harea := area_glyph hshape
  have htop : (y + shape.offsetY).toInt = (shape.area x.toInt y.toInt).y :=
    congrArg Area.y harea
  have hregion : (Rect.area ⟨x, y + shape.offsetY, shape.width, shape.height⟩).Fits := by
    rw [harea]
    exact hshape
  apply Bitmap.painted_paint hfits hregion
  · intro x' y' hcovers
    rw [harea] at hcovers
    funext below
    rw [htop, Glyph.coats]
    by_cases hcovered : shape.covers ((x' : Int) - x.toInt).toNat
        ((y' : Int) - (shape.area x.toInt y.toInt).y).toNat = true
    · rw [if_pos hcovered, if_pos ⟨hcovers, hcovered⟩]
      rfl
    · rw [if_neg hcovered, if_neg fun h => hcovered h.2]
      rfl
  · intro x' y' houtside
    rw [harea] at houtside
    rw [Glyph.coats, if_neg fun h => houtside h.1]

/-- A word that stands for a place of the pen is that place as long as the glyph fits there. -/
theorem toInt_ofInt_pen {shape : Glyph} {pen top : Int} (h : (shape.area pen top).Fits) :
    (Int32.ofInt pen).toInt = pen := by
  have hlow : -2147483648 ≤ pen := h.1.1
  have hhigh : pen + shape.width.toNat ≤ 2147483647 := h.1.2
  exact Int32.toInt_ofInt_of_le (by omega) (by omega)

/-- The pen may leave the words between two glyphs that fit; sums of words are then still the right
words. -/
theorem painted_text (hfits : canvas.Fits) {y : Int32} (pen : Int) {characters : List Char}
    (hpens : ∀ place ∈ font.pens pen characters, (place.2.area place.1 y.toInt).Fits)
    (color : Color) :
    canvas.Painted (text font y color canvas (.ofInt pen) characters) fun x' y' =>
      (font.pens pen characters).flatMap fun (pen, shape) =>
        shape.coats pen y.toInt color x' y' := by
  induction characters generalizing canvas pen with
  | nil => exact .refl canvas
  | cons c rest ih =>
      have hpen : Int32.ofInt pen + (font.measure (String.singleton c)).toInt32 =
          .ofInt (pen + (font.measure (String.singleton c)).toNat) := by
        rw [Int32.ofInt_add, toInt32_eq_ofInt]
      rw [text, hpen]
      cases hshape : font.glyph? c with
      | none =>
          simp only [Font.pens, hshape] at hpens ⊢
          exact ih hfits _ hpens
      | some shape =>
          simp only [Font.pens, hshape, Option.map_some, Option.toList_some, List.cons_append,
            List.nil_append, List.flatMap_cons] at hpens ⊢
          have hfirst : (shape.area pen y.toInt).Fits := hpens (pen, shape) (List.mem_cons_self ..)
          have hplace := toInt_ofInt_pen hfirst
          have hglyph : canvas.Painted (glyph canvas shape (.ofInt pen) y color)
              (shape.coats pen y.toInt color) := by
            have hpainted := painted_glyph hfits (x := .ofInt pen) (hplace.symm ▸ hfirst) color
            rwa [hplace] at hpainted
          have hrest := ih (hglyph.size.fits hfits) _ fun place hmem =>
            hpens place (List.mem_cons_of_mem _ hmem)
          exact hglyph.trans hrest

theorem area_arrowRows {x y : Int32} (h : Area.Fits ⟨x.toInt, y.toInt, 7, 4⟩) :
    (arrowRows x y).map Rect.area = arrowAreas x.toInt y.toInt := by
  have hx : -2147483648 ≤ x.toInt ∧ x.toInt + 7 ≤ 2147483647 := h.1
  have hy : -2147483648 ≤ y.toInt ∧ y.toInt + 4 ≤ 2147483647 := h.2
  have hx' (step : Int32) (hstep : 0 ≤ step.toInt ∧ step.toInt ≤ 7) :
      (x + step).toInt = x.toInt + step.toInt :=
    toInt_add_of_fits (by omega) (by omega)
  have hy' (step : Int32) (hstep : 0 ≤ step.toInt ∧ step.toInt ≤ 4) :
      (y + step).toInt = y.toInt + step.toInt :=
    toInt_add_of_fits (by omega) (by omega)
  simp only [arrowRows, arrowAreas, Rect.area, List.map_cons, List.map_nil]
  rw [hx' 1 (by decide), hx' 2 (by decide), hx' 3 (by decide), hy' 1 (by decide),
    hy' 2 (by decide), hy' 3 (by decide)]
  simp [List.range_succ]

theorem fits_arrowAreas {x y : Int} (h : Area.Fits ⟨x, y, 7, 4⟩) :
    ∀ area ∈ arrowAreas x y, area.Fits := by
  intro area harea
  obtain ⟨row, hrow, rfl⟩ := List.mem_map.mp harea
  have hbelow : row < 4 := List.mem_range.mp hrow
  obtain ⟨⟨hleft, hright⟩, htop, hbottom⟩ := h
  dsimp only at hleft hright htop hbottom
  refine ⟨⟨?_, ?_⟩, ?_, ?_⟩ <;> dsimp only <;> omega

theorem painted_op {op : DrawOp} (hfits : canvas.Fits) (hop : op.Fits font) :
    canvas.Painted (Render.op catalogue font canvas op) (op.coats catalogue font) := by
  change canvas.Painted _ fun x y => op.coats catalogue font x y
  cases op with
  | fill rect color => exact painted_fill hfits hop color
  | image handle source target opacity =>
      simp only [Render.op, DrawOp.coats]
      cases catalogue handle with
      | ready picture => exact painted_blit hfits hop picture source opacity
      | _ => exact .refl canvas
  | skin handle target =>
      simp only [Render.op, DrawOp.coats]
      cases catalogue handle with
      | ready picture =>
          by_cases hskin : picture.isSkin = true
          · simp only [if_pos hskin]
            apply Bitmap.Painted.foldl _ hfits
            intro image himage slice hslice
            exact painted_blit himage (hop slice hslice) picture slice.1 255
          · simp only [if_neg hskin]
            exact .refl canvas
      | _ => exact .refl canvas
  | text line left top color =>
      have hpainted := painted_text hfits left.toInt hop color
      rwa [Int32.ofInt_toInt] at hpainted
  | arrow left top color =>
      have hareas := area_arrowRows hop
      have hrows : ∀ row ∈ arrowRows left top, row.area.Fits := by
        intro row hrow
        apply fits_arrowAreas hop
        rw [← hareas]
        exact List.mem_map_of_mem hrow
      have hpainted : canvas.Painted
          ((arrowRows left top).foldl (fun canvas row => fill canvas row color) canvas)
          fun x y => (arrowRows left top).flatMap fun row => row.area.coats color x y := by
        apply Bitmap.Painted.foldl _ hfits
        intro image himage row hrow
        exact painted_fill himage (hrows row hrow) color
      simp only [Render.op, DrawOp.coats, ← hareas, List.flatMap_map]
      exact hpainted

end Render

/-! ## Drawings -/

/-- Rendering gives each pixel the colour that the calls put on its point one after the other, and
that colour is opaque. -/
theorem Drawing.pixel?_render {drawing : Drawing} {font : Font} (h : drawing.Fits font)
    (catalogue : Catalogue) :
    (drawing.render catalogue font).width = drawing.width ∧
      (drawing.render catalogue font).height = drawing.height ∧
      ∀ x y : Nat, x < drawing.width.toNat → y < drawing.height.toNat →
        (drawing.render catalogue font).pixel? x y = some (drawing.colorAt catalogue font x y) ∧
          (drawing.colorAt catalogue font x y).alpha = 255 := by
  obtain ⟨hcanvas, hcalls⟩ := h
  have hfits : (Bitmap.filled drawing.width drawing.height .black).Fits := hcanvas
  have hpainted : (Bitmap.filled drawing.width drawing.height .black).Painted
      (drawing.render catalogue font)
      fun x y => drawing.calls.flatMap fun call => call.op.coats catalogue font x y := by
    apply Bitmap.Painted.foldl _ hfits
    intro image himage call hcall
    exact Render.painted_op himage (hcalls call hcall)
  refine ⟨hpainted.size.1, hpainted.size.2, ?_⟩
  intro x y hx hy
  constructor
  · rw [hpainted.pixel, Bitmap.pixel?_filled hx hy]
    rfl
  · exact Coat.alpha_onto _ rfl

/-- A drawing with a bit of everything, some of it beyond the edges. -/
def sketch : Drawing where
  width := 12
  height := 8
  calls := [
    ⟨.background, .fill ⟨-2, -1, 9, 6⟩ ⟨200, 0, 0, 255⟩⟩,
    ⟨.background, .image "tile" ⟨0, 0, 2, 1⟩ ⟨-3, 2, 10, 9⟩ 128⟩,
    ⟨.messageBox, .skin "skin" ⟨2, 3, 11, 12⟩⟩,
    ⟨.text, .text "A b" 1 0 .white⟩,
    ⟨.advanceArrow, .arrow 4 5 .white⟩]

/-- A tile of two pixels, and a skin. -/
def sketchPictures : Catalogue
  | "tile" => .ready (.generate 2 1 fun x _ => if x = 0 then .white else ⟨0, 0, 200, 255⟩)
  | "skin" => .ready (.filled 16 16 ⟨0, 200, 0, 100⟩)
  | _ => .pending

/-- A point that is filled red, then takes a blue place of the tile, then the green of the skin. -/
theorem pixel?_render_sketch :
    sketch.Fits .default ∧
      sketch.colorAt sketchPictures .default 6 4 = ⟨61, 78, 61, 255⟩ ∧
      (sketch.render sketchPictures .default).pixel? 6 4 = some ⟨61, 78, 61, 255⟩ := by
  have hfits : sketch.Fits .default := by decide +kernel
  have hcolor : sketch.colorAt sketchPictures .default 6 4 = ⟨61, 78, 61, 255⟩ := by
    decide +kernel
  obtain ⟨-, -, hpixels⟩ := Drawing.pixel?_render hfits sketchPictures
  obtain ⟨hpixel, -⟩ := hpixels 6 4 (by decide) (by decide)
  exact ⟨hfits, hcolor, hpixel.trans (congrArg some hcolor)⟩

end SceneScript
