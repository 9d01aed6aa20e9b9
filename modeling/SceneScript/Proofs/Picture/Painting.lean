import SceneScript.Proofs.Picture.Area
import SceneScript.Proofs.Picture.Size

/-! # Painting

Painting a region changes each pixel of the bitmap that the region covers once, and no other pixel.
-/

namespace SceneScript.Bitmap

/-! ## Runs and rows -/

theorem getElem?_paintRun (change : Nat → Color → Color) (first x count : Nat)
    (pixels : Array Color) (place : Nat) :
    (paintRun change first x count pixels)[place]? =
      if first ≤ place ∧ place < first + count then
        pixels[place]?.map (change (x + (place - first)))
      else pixels[place]? := by
  induction count generalizing first x pixels with
  | zero =>
      rw [paintRun, if_neg (by omega)]
  | succ count ih =>
      rw [paintRun, ih, Array.getElem?_modify]
      by_cases hfirst : first = place
      · subst hfirst
        rw [if_neg (by omega), if_pos rfl, if_pos (by omega), Nat.sub_self, Nat.add_zero]
      · rw [if_neg hfirst]
        by_cases hlater : first + 1 ≤ place ∧ place < first + 1 + count
        · have hcolumn : x + 1 + (place - (first + 1)) = x + (place - first) := by omega
          rw [if_pos hlater, if_pos (by omega), hcolumn]
        · rw [if_neg hlater, if_neg (by omega)]

/-- A pixel lies in a run of another row only if the run is too long for its row. -/
theorem row_eq_of_mem_run {width x first columns y top : Nat} (hcolumns : first + columns ≤ width)
    (hx : x < width) (hlow : top * width + first ≤ y * width + x)
    (hhigh : y * width + x < top * width + first + columns) : y = top := by
  apply Nat.le_antisymm
  · apply Nat.le_of_not_lt
    intro habove
    have hrows : (top + 1) * width ≤ y * width := Nat.mul_le_mul_right width habove
    rw [Nat.add_mul] at hrows
    omega
  · apply Nat.le_of_not_lt
    intro hbelow
    have hrows : (y + 1) * width ≤ top * width := Nat.mul_le_mul_right width hbelow
    rw [Nat.add_mul] at hrows
    omega

theorem getElem?_paintRows (change : Nat → Nat → Color → Color) {width first columns : Nat}
    (hcolumns : first + columns ≤ width) (top rows : Nat) (pixels : Array Color) {x : Nat}
    (hx : x < width) (y : Nat) :
    (paintRows change width first columns top rows pixels)[y * width + x]? =
      if (top ≤ y ∧ y < top + rows) ∧ first ≤ x ∧ x < first + columns then
        pixels[y * width + x]?.map (change y x)
      else pixels[y * width + x]? := by
  induction rows generalizing top pixels with
  | zero => rw [paintRows, if_neg (by omega)]
  | succ rows ih =>
      rw [paintRows, ih, getElem?_paintRun]
      by_cases hrow : y = top
      · subst hrow
        rw [if_neg (by omega)]
        by_cases hcovered : first ≤ x ∧ x < first + columns
        · have hcolumn : first + (y * width + x - (y * width + first)) = x := by omega
          rw [if_pos (by omega), if_pos (by omega), hcolumn]
        · rw [if_neg (by omega), if_neg (by omega)]
      · have hrun : ¬(top * width + first ≤ y * width + x ∧
            y * width + x < top * width + first + columns) := by
          intro hmem
          exact hrow (row_eq_of_mem_run hcolumns hx hmem.1 hmem.2)
        rw [if_neg hrun]
        have hrows : top + 1 ≤ y ∧ y < top + 1 + rows ↔ top ≤ y ∧ y < top + (rows + 1) := by omega
        simp only [hrows]

/-! ## Pixels -/

section Pixels

variable {width height : UInt32} {x y : Nat}

/-- The place of a pixel among the pixels, row by row. -/
theorem place_lt (hx : x < width.toNat) (hy : y < height.toNat) :
    y * width.toNat + x < width.toNat * height.toNat := by
  have hrows : (y + 1) * width.toNat ≤ height.toNat * width.toNat :=
    Nat.mul_le_mul_right width.toNat hy
  rw [Nat.add_mul] at hrows
  rw [Nat.mul_comm width.toNat]
  omega

theorem pixel?_filled (hx : x < width.toNat) (hy : y < height.toNat) (color : Color) :
    (filled width height color).pixel? x y = some color := by
  simp [pixel?, filled, hx, place_lt hx hy]

theorem pixel?_generate (hx : x < width.toNat) (hy : y < height.toNat)
    (pixel : Nat → Nat → Color) :
    (generate width height pixel).pixel? x y = some (pixel x y) := by
  have hcolumn : (y * width.toNat + x) % width.toNat = x := by
    rw [Nat.mul_add_mod_self_right, Nat.mod_eq_of_lt hx]
  have hrow : (y * width.toNat + x) / width.toNat = y := by
    rw [Nat.add_comm, Nat.add_mul_div_right _ _ (Nat.zero_lt_of_lt hx), Nat.div_eq_of_lt hx,
      Nat.zero_add]
  simp [pixel?, generate, hx, place_lt hx hy, hcolumn, hrow]

theorem exists_pixel? (image : Bitmap) (hx : x < image.width.toNat) (hy : y < image.height.toNat) :
    ∃ color, image.pixel? x y = some color := by
  have hplace : y * image.width.toNat + x < image.pixels.size := by
    rw [image.size_eq]
    exact place_lt hx hy
  rw [pixel?, if_pos hx, Array.getElem?_eq_getElem hplace]
  exact ⟨_, rfl⟩

/-- Images of one size with the same pixels are the same. -/
theorem eq_of_pixel?_eq {image other : Bitmap} (hsize : image.SameSize other)
    (h : ∀ x y : Nat, x < image.width.toNat → y < image.height.toNat →
      image.pixel? x y = other.pixel? x y) : image = other := by
  obtain ⟨width, height, pixels, hpixels⟩ := image
  obtain ⟨_, _, others, hothers⟩ := other
  obtain ⟨rfl, rfl⟩ := hsize
  have hsame : pixels = others := by
    refine Array.ext (hpixels.trans hothers.symm) fun place hmem hmem' => ?_
    have hplace : place < width.toNat * height.toNat := hpixels ▸ hmem
    have hwidth : 0 < width.toNat := Nat.pos_of_mul_pos_right (Nat.zero_lt_of_lt hplace)
    have hcolumn := Nat.mod_lt place hwidth
    have hrow := Nat.div_lt_of_lt_mul hplace
    have hpixel := h (place % width.toNat) (place / width.toNat) hcolumn hrow
    simpa only [pixel?, if_pos hcolumn, Nat.div_add_mod', Array.getElem?_eq_getElem hmem,
      Array.getElem?_eq_getElem hmem', Option.some.injEq] using hpixel
  subst hsame
  rfl

end Pixels

/-! ## Regions -/

/-- Words can count the columns and rows of the bitmap. -/
def Fits (bitmap : Bitmap) : Prop := bitmap.bounds.area.Fits

theorem SameSize.bounds_eq {image other : Bitmap} (h : image.SameSize other) :
    image.bounds = other.bounds := by
  unfold bounds
  rw [h.1, h.2]

theorem SameSize.fits {image other : Bitmap} (h : image.SameSize other) (hfits : other.Fits) :
    image.Fits := by
  unfold Fits
  rw [h.bounds_eq]
  exact hfits

/-- There are no pixels outside of the bounds. -/
theorem pixel?_eq_none {bitmap : Bitmap} {x y : Nat} (h : ¬bitmap.bounds.area.Covers x y) :
    bitmap.pixel? x y = none := by
  unfold pixel?
  by_cases hx : x < bitmap.width.toNat
  · have hy : bitmap.height.toNat ≤ y := by
      apply Nat.le_of_not_lt
      intro hy
      apply h
      simp [bounds, Rect.area, Area.Covers, hx, hy]
    have hrows : bitmap.height.toNat * bitmap.width.toNat ≤ y * bitmap.width.toNat :=
      Nat.mul_le_mul_right bitmap.width.toNat hy
    rw [if_pos hx, Array.getElem?_eq_none]
    rw [bitmap.size_eq, Nat.mul_comm]
    omega
  · rw [if_neg hx]

/-- Painting changes the pixels that the region covers, and no others. -/
theorem pixel?_paint {bitmap : Bitmap} {region : Rect} (hbitmap : bitmap.Fits)
    (hregion : region.area.Fits) (change : Nat → Nat → Color → Color) (x y : Nat) :
    (bitmap.paint region change).pixel? x y =
      if region.area.Covers x y then (bitmap.pixel? x y).map (change y x)
      else bitmap.pixel? x y := by
  by_cases hinside : bitmap.bounds.area.Covers x y
  · unfold paint
    cases hcommon : region.intersect? bitmap.bounds with
    | none =>
        have houtside : ¬region.area.Covers x y := by
          intro hcovered
          exact Rect.not_covers_of_intersect? hregion hbitmap hcommon hcovered hinside
        rw [if_neg houtside]
    | some common =>
        have hedges := Rect.edges_of_intersect? hregion hbitmap hcommon
        simp only [bounds, Rect.area, Area.Covers, Int32.toInt_zero, Int.zero_add] at hedges hinside
        have hx : x < bitmap.width.toNat := by omega
        have hrows := getElem?_paintRows change
          (show common.x.toInt.toNat + common.width.toNat ≤ bitmap.width.toNat by omega)
          common.y.toInt.toNat common.height.toNat bitmap.pixels hx y
        have hcovered : (common.y.toInt.toNat ≤ y ∧
            y < common.y.toInt.toNat + common.height.toNat) ∧ common.x.toInt.toNat ≤ x ∧
            x < common.x.toInt.toNat + common.width.toNat ↔ region.area.Covers x y := by
          simp only [Rect.area, Area.Covers]
          omega
        simp only [paintWithin, pixel?, if_pos hx, hrows, hcovered]
  · have hpainted : ¬(bitmap.paint region change).bounds.area.Covers x y := by
      rw [(sameSize_paint bitmap region change).bounds_eq]
      exact hinside
    rw [pixel?_eq_none hpainted, pixel?_eq_none hinside, Option.map_none, ite_self]

end SceneScript.Bitmap
