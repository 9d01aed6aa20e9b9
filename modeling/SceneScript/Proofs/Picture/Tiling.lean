import Mathlib.Logic.Basic
import SceneScript.Proofs.Picture.ChoiceRows
import SceneScript.Proofs.Picture.Painter
import SceneScript.Proofs.Picture.Staging

/-! # Skins tile their boxes

The parts of a skin cover the skin, and their places cover the box, none beyond its edges. No point
lies in two parts, nor in two places as long as the corners of the box do not meet, so that each
point of such a box is painted once. All boxes of a drawing are large enough for the corners.
-/

namespace SceneScript

namespace Skin

/-! ## Stretches of a side -/

structure Span where
  start : Int
  length : Nat

namespace Span

def Covers (span : Span) (place : Int) : Prop :=
  span.start ≤ place ∧ place < span.start + span.length

/-- No place lies in both stretches. -/
def Disjoint (span other : Span) : Prop := ∀ place, span.Covers place → ¬other.Covers place

/-- What lies in a stretch of columns and in one of rows. -/
def times (column row : Span) : Area := ⟨column.start, row.start, column.length, row.length⟩

theorem covers_times {column row : Span} {x y : Int} :
    (column.times row).Covers x y ↔ column.Covers x ∧ row.Covers y := by
  simp only [times, Area.Covers, Covers, and_assoc]

theorem disjoint_of_le {span other : Span} (h : span.start + span.length ≤ other.start) :
    span.Disjoint other := by
  intro place hcovers hcovers'
  have hbelow := hcovers.2
  have habove := hcovers'.1
  omega

end Span

/-- A corner, the band, and the other corner. Short sides have no band, and the corners meet. -/
def parts (side : Span) : List Span :=
  [⟨side.start, 5⟩, ⟨side.start + 5, side.length - 10⟩, ⟨side.start + side.length - 5, 5⟩]

variable {side : Span}

theorem covers_parts (h : 5 ≤ side.length) {place : Int} :
    (∃ part ∈ parts side, part.Covers place) ↔ side.Covers place := by
  simp [parts, Span.Covers]
  omega

/-- No part reaches beyond the side. -/
theorem within_parts (h : 5 ≤ side.length) {part : Span} (hpart : part ∈ parts side) :
    side.start ≤ part.start ∧ part.start + part.length ≤ side.start + side.length := by
  simp only [parts, List.mem_cons, List.not_mem_nil, or_false] at hpart
  rcases hpart with rfl | rfl | rfl
  · dsimp only
    omega
  · dsimp only
    omega
  · dsimp only
    omega

theorem disjoint_parts (h : 10 ≤ side.length) : (parts side).Pairwise Span.Disjoint := by
  refine .cons ?_ (.cons ?_ (.cons nofun .nil))
  · intro part hpart
    apply Span.disjoint_of_le
    simp only [List.mem_cons, List.not_mem_nil, or_false] at hpart
    rcases hpart with rfl | rfl
    · exact Int.le_refl _
    · dsimp only
      omega
  · intro part hpart
    apply Span.disjoint_of_le
    rw [List.mem_singleton.mp hpart]
    dsimp only
    omega

/-! ## Grids -/

/-- All areas of columns and rows, row by row. -/
def grid (columns rows : List Span) : List Area :=
  rows.flatMap fun row => columns.map fun column => column.times row

theorem covers_grid (columns rows : List Span) (x y : Int) :
    (∃ area ∈ grid columns rows, area.Covers x y) ↔
      (∃ column ∈ columns, column.Covers x) ∧ ∃ row ∈ rows, row.Covers y := by
  simp only [grid, List.mem_flatMap, List.mem_map]
  constructor
  · rintro ⟨_, ⟨row, hrow, column, hcolumn, rfl⟩, hcovers⟩
    rw [Span.covers_times] at hcovers
    exact ⟨⟨column, hcolumn, hcovers.1⟩, row, hrow, hcovers.2⟩
  · rintro ⟨⟨column, hcolumn, hx⟩, row, hrow, hy⟩
    exact ⟨_, ⟨row, hrow, column, hcolumn, rfl⟩, Span.covers_times.mpr ⟨hx, hy⟩⟩

theorem disjoint_grid {columns rows : List Span} (hcolumns : columns.Pairwise Span.Disjoint)
    (hrows : rows.Pairwise Span.Disjoint) : (grid columns rows).Pairwise Area.Disjoint := by
  rw [grid, List.pairwise_flatMap]
  constructor
  · intro row _
    rw [List.pairwise_map]
    apply hcolumns.imp
    intro column other hapart x y hcovers hcovers'
    rw [Span.covers_times] at hcovers hcovers'
    exact hapart x hcovers.1 hcovers'.1
  · apply hrows.imp
    intro row other hapart area harea area' harea' x y hcovers hcovers'
    obtain ⟨column, -, rfl⟩ := List.mem_map.mp harea
    obtain ⟨column', -, rfl⟩ := List.mem_map.mp harea'
    rw [Span.covers_times] at hcovers hcovers'
    exact hapart y hcovers.2 hcovers'.2

/-! ## Parts of the skin and of the box -/

/-- The exact place of a stretch of words. -/
def spanOf (span : Int32 × UInt32) : Span := ⟨span.1.toInt, span.2.toNat⟩

theorem sourceSpans_exact : sourceSpans.map spanOf = parts ⟨0, 16⟩ := by
  rfl

theorem min_corner {length : UInt32} (h : 5 ≤ length.toNat) : min corner length = corner :=
  if_pos h

theorem toNat_band {length : UInt32} :
    (if 2 * corner ≤ length then length - 2 * corner else 0).toNat = length.toNat - 10 := by
  have hcorners : (2 * corner).toNat = 10 := rfl
  split
  · next hle =>
      rw [UInt32.toNat_sub_of_le _ _ hle, hcorners]
  · next hgt =>
      rw [UInt32.le_iff_toNat_le, hcorners] at hgt
      have hzero : (0 : UInt32).toNat = 0 := rfl
      omega

/-- Where the last corner begins. -/
theorem sub_corner {start finish : Int32} {length : UInt32}
    (hfinish : finish.toInt = start.toInt + length.toNat) (hlength : 5 ≤ length.toNat) :
    (finish - corner.toInt32).toInt = start.toInt + length.toNat - 5 := by
  have hlow := start.le_toInt
  have hhigh := finish.toInt_lt
  have hcorner : corner.toInt32.toInt = 5 := rfl
  rw [Int32.toInt_sub, hfinish, hcorner]
  exact Int.bmod_eq_of_le (by omega) (by omega)

theorem targetSpans_exact {start finish : Int32} {length : UInt32}
    (hfinish : finish.toInt = start.toInt + length.toNat) (hlength : 5 ≤ length.toNat) :
    (targetSpans start finish length).map spanOf = parts ⟨start.toInt, length.toNat⟩ := by
  have hlow := start.le_toInt
  have hhigh := finish.toInt_lt
  have hcorner : corner.toInt32.toInt = 5 := rfl
  have hstart : (start + corner.toInt32).toInt = start.toInt + 5 := by
    rw [toInt_add_of_fits (by omega) (by omega), hcorner]
  simp only [targetSpans, List.map_cons, List.map_nil, spanOf, parts, hstart,
    sub_corner hfinish hlength, min_corner hlength, toNat_band]
  rfl

variable {box : Rect}

theorem areas_source (box : Rect) :
    (slices box).map (fun slice => slice.1.area) = grid (parts ⟨0, 16⟩) (parts ⟨0, 16⟩) := by
  rw [← sourceSpans_exact]
  rfl

theorem areas_target (hfits : box.area.Fits) (hwidth : 5 ≤ box.width.toNat)
    (hheight : 5 ≤ box.height.toNat) :
    (slices box).map (fun slice => slice.2.area) =
      grid (parts ⟨box.x.toInt, box.width.toNat⟩) (parts ⟨box.y.toInt, box.height.toNat⟩) := by
  rw [← targetSpans_exact (Rect.toInt_right hfits) hwidth,
    ← targetSpans_exact (Rect.toInt_bottom hfits) hheight]
  rfl

/-- The places of the parts have words as edges if the box has. -/
theorem fits_target (hfits : box.area.Fits) (hwidth : 5 ≤ box.width.toNat)
    (hheight : 5 ≤ box.height.toNat) {slice : Rect × Rect} (hslice : slice ∈ slices box) :
    slice.2.area.Fits := by
  have harea : slice.2.area ∈ (slices box).map fun slice => slice.2.area :=
    List.mem_map_of_mem hslice
  rw [areas_target hfits hwidth hheight, grid] at harea
  simp only [List.mem_flatMap, List.mem_map] at harea
  obtain ⟨row, hrow, column, hcolumn, heq⟩ := harea
  obtain ⟨⟨hleft, hright⟩, htop, hbottom⟩ := hfits
  have hcolumn := within_parts hwidth hcolumn
  have hrow := within_parts hheight hrow
  rw [← heq]
  exact ⟨⟨Int.le_trans hleft hcolumn.1, Int.le_trans hcolumn.2 hright⟩,
    Int.le_trans htop hrow.1, Int.le_trans hrow.2 hbottom⟩

theorem covers_slices (hfits : box.area.Fits) (hwidth : 5 ≤ box.width.toNat)
    (hheight : 5 ≤ box.height.toNat) {x y : Int} :
    box.area.Covers x y ↔ ∃ slice ∈ slices box, slice.2.area.Covers x y := by
  have hgrid := covers_grid (parts ⟨box.x.toInt, box.width.toNat⟩)
    (parts ⟨box.y.toInt, box.height.toNat⟩) x y
  rw [covers_parts hwidth, covers_parts hheight, ← Span.covers_times,
    ← areas_target hfits hwidth hheight] at hgrid
  simp only [List.mem_map, exists_exists_and_eq_and] at hgrid
  exact hgrid.symm

theorem covers_sources (box : Rect) {x y : Int} :
    Area.Covers ⟨0, 0, 16, 16⟩ x y ↔ ∃ slice ∈ slices box, slice.1.area.Covers x y := by
  have hgrid := covers_grid (parts ⟨0, 16⟩) (parts ⟨0, 16⟩) x y
  rw [covers_parts (by decide), covers_parts (by decide), ← Span.covers_times,
    ← areas_source box] at hgrid
  simp only [List.mem_map, exists_exists_and_eq_and] at hgrid
  exact hgrid.symm

/-! ## Coats -/

variable {picture : Bitmap} {slice : Rect × Rect} {x y : Int}

theorem exists_pixelAt? (hskin : picture.isSkin = true) (h : Area.Covers ⟨0, 0, 16, 16⟩ x y) :
    ∃ color, Render.pixelAt? picture x y = some color := by
  obtain ⟨hwidth, hheight⟩ := Bitmap.isSkin_iff.mp hskin
  have hsize : (16 : UInt32).toNat = 16 := rfl
  obtain ⟨hleft, hright, htop, hbottom⟩ := h
  dsimp only at hleft hright htop hbottom
  rw [Render.pixelAt?, if_pos (by rw [hheight, hsize]; omega)]
  apply Bitmap.exists_pixel?
  · rw [hwidth, hsize]
    omega
  · rw [hheight, hsize]
    omega

/-- A place in the target comes from a place in the source. -/
theorem covers_source (source target : Span) {place : Int} (h : target.Covers place)
    (hsource : 0 < source.length) :
    source.Covers
      (source.start + (place - target.start) * source.length / target.length) := by
  obtain ⟨hlow, hhigh⟩ := h
  have hoffset : 0 ≤ place - target.start := by omega
  constructor
  · apply Int.le_add_of_nonneg_right
    exact Int.ediv_nonneg (Int.mul_nonneg hoffset (by omega)) (by omega)
  · apply Int.add_lt_add_left
    apply Int.ediv_lt_of_lt_mul (by omega)
    rw [Int.mul_comm]
    exact Int.mul_lt_mul_of_pos_left (by omega) (by omega)

theorem source_pos (hslice : slice ∈ slices box) :
    0 < slice.1.area.width ∧ 0 < slice.1.area.height := by
  have hsource : slice.1.area ∈ (slices box).map fun slice => slice.1.area :=
    List.mem_map_of_mem hslice
  have hpos : ∀ area ∈ grid (parts ⟨0, 16⟩) (parts ⟨0, 16⟩), 0 < area.width ∧ 0 < area.height := by
    decide
  rw [areas_source] at hsource
  exact hpos _ hsource

/-- A part of the skin puts one coat on each point of its place. -/
theorem length_coats (hskin : picture.isSkin = true) (hslice : slice ∈ slices box) :
    (picture.coats slice.1.area slice.2.area 255 x y).length =
      if slice.2.area.Covers x y then 1 else 0 := by
  obtain ⟨hwidth, hheight⟩ := source_pos hslice
  by_cases hcovers : slice.2.area.Covers x y
  · have hcolumn := covers_source ⟨slice.1.area.x, slice.1.area.width⟩
      ⟨slice.2.area.x, slice.2.area.width⟩ ⟨hcovers.1, hcovers.2.1⟩ hwidth
    have hrow := covers_source ⟨slice.1.area.y, slice.1.area.height⟩
      ⟨slice.2.area.y, slice.2.area.height⟩ hcovers.2.2 hheight
    have hsource := Span.covers_times.mpr ⟨hcolumn, hrow⟩
    obtain ⟨color, hcolor⟩ :=
      exists_pixelAt? hskin ((covers_sources box).mpr ⟨slice, hslice, hsource⟩)
    rw [Bitmap.coats, if_pos ⟨hwidth, hheight, hcovers⟩, if_pos hcovers]
    simp [hcolor]
  · simp [Bitmap.coats, hcovers]

/-- Of items that exclude each other at most one counts. -/
theorem length_flatMap_of_pairwise {α β : Type} {P : α → Prop} [DecidablePred P] {f : α → List β}
    {items : List α} (h : items.Pairwise fun item other => P item → ¬P other)
    (hlength : ∀ item ∈ items, (f item).length = if P item then 1 else 0) :
    (items.flatMap f).length = if ∃ item ∈ items, P item then 1 else 0 := by
  induction items with
  | nil => simp
  | cons item rest ih =>
      obtain ⟨hfirst, hrest⟩ := List.pairwise_cons.mp h
      have hitems := ih hrest fun item hitem => hlength item (List.mem_cons_of_mem _ hitem)
      rw [List.flatMap_cons, List.length_append, hitems, hlength item List.mem_cons_self]
      by_cases hitem : P item
      · have hothers : ¬∃ other ∈ rest, P other := by
          rintro ⟨other, hother, hP⟩
          exact hfirst other hother hitem hP
        simp [hitem, hothers]
      · simp [hitem]

/-! ## Tilings -/

/-- The parts of the skin make up the skin, and their places the box. -/
structure Tiles (box : Rect) : Prop where
  covers : ∀ x y, box.contains x y = true ↔ ∃ slice ∈ slices box, slice.2.contains x y = true
  disjoint : 10 ≤ box.width.toNat → 10 ≤ box.height.toNat →
    (slices box).Pairwise fun slice other => slice.2.area.Disjoint other.2.area
  /-- The renderer gives each point of a box with room for all corners one coat, and no other point
  any. -/
  paints : 10 ≤ box.width.toNat → 10 ≤ box.height.toNat →
    ∀ (catalogue : Catalogue) (font : Font) handle picture,
      catalogue handle = .ready picture → picture.isSkin = true →
        ∀ x y, ((DrawOp.skin handle box).coats catalogue font x y).length =
          if box.area.Covers x y then 1 else 0
  covers_skin : ∀ x y, Area.Covers ⟨0, 0, 16, 16⟩ x y ↔
    ∃ slice ∈ slices box, slice.1.area.Covers x y
  disjoint_skin : (slices box).Pairwise fun slice other => slice.1.area.Disjoint other.1.area
  /-- The corners go to the corners of the box, and keep their size. -/
  corners : [0, 2, 6, 8].filterMap (fun index =>
      ((slices box).map fun slice => (slice.1.area, slice.2.area))[index]?) =
    let ⟨x, y, width, height⟩ := box.area
    [(⟨0, 0, 5, 5⟩, ⟨x, y, 5, 5⟩), (⟨11, 0, 5, 5⟩, ⟨x + width - 5, y, 5, 5⟩),
      (⟨0, 11, 5, 5⟩, ⟨x, y + height - 5, 5, 5⟩),
      (⟨11, 11, 5, 5⟩, ⟨x + width - 5, y + height - 5, 5, 5⟩)]

theorem disjoint_target (hfits : box.area.Fits) (hwidth : 10 ≤ box.width.toNat)
    (hheight : 10 ≤ box.height.toNat) :
    (slices box).Pairwise fun slice other => slice.2.area.Disjoint other.2.area := by
  rw [← List.pairwise_map, areas_target hfits (by omega) (by omega)]
  exact disjoint_grid (disjoint_parts hwidth) (disjoint_parts hheight)

theorem disjoint_source (box : Rect) :
    (slices box).Pairwise fun slice other => slice.1.area.Disjoint other.1.area := by
  rw [← List.pairwise_map, areas_source]
  exact disjoint_grid (disjoint_parts (by decide)) (disjoint_parts (by decide))

theorem tiles (hfits : box.area.Fits) (hwidth : 5 ≤ box.width.toNat)
    (hheight : 5 ≤ box.height.toNat) : Tiles box where
  covers x y := by
    rw [Rect.contains_iff hfits, covers_slices hfits hwidth hheight]
    constructor
    · rintro ⟨slice, hslice, hcovers⟩
      have hfit := fits_target hfits hwidth hheight hslice
      exact ⟨slice, hslice, (Rect.contains_iff hfit).mpr hcovers⟩
    · rintro ⟨slice, hslice, hcontains⟩
      have hfit := fits_target hfits hwidth hheight hslice
      exact ⟨slice, hslice, (Rect.contains_iff hfit).mp hcontains⟩
  disjoint := disjoint_target hfits
  paints hwide hhigh catalogue font handle picture hready hskin x y := by
    simp only [DrawOp.coats, hready, hskin, if_true]
    have hapart := (disjoint_target hfits hwide hhigh).imp fun hapart => hapart x y
    rw [length_flatMap_of_pairwise hapart fun slice hslice => length_coats hskin hslice]
    simp only [covers_slices hfits hwidth hheight]
  covers_skin x y := covers_sources box
  disjoint_skin := disjoint_source box
  corners := by
    rw [← List.zip_map', areas_source, areas_target hfits hwidth hheight]
    rfl

end Skin

/-! ## Boxes of drawings -/

namespace Layout

/-- The exact place of the box of a name. -/
def nameArea (font : Font) (speaker : String) : Area :=
  ⟨messageBox.x.toInt, messageBox.y.toInt - nameBoxHeight.toNat,
    (font.measure speaker).toNat + nameBoxPadding.toNat, nameBoxHeight.toNat⟩

/-- The box of a call, if it is one, has room for the corners, and the corners do not meet in its
height. -/
def Roomy (call : DrawCall) : Prop :=
  call.layer ∈ [.messageBox, .nameBox, .choices] → ∀ box, call.op.box? = some box →
    8 ≤ box.width.toNat ∧ 10 ≤ box.height.toNat

variable {font : Font} {catalogue : Catalogue}

theorem roomy_other {layer : Layer} (h : layer ∉ [.messageBox, .nameBox, .choices]) (op : DrawOp) :
    Roomy ⟨layer, op⟩ :=
  fun hlayer => absurd hlayer h

theorem roomy_skinnedBox {layer : Layer} {skin : Option String} {box : Rect} {plain : Color}
    (h : 8 ≤ box.width.toNat ∧ 10 ≤ box.height.toNat) :
    (skinnedBox catalogue layer skin box plain).All Roomy := by
  apply all_skinnedBox
  · rintro - _ ⟨⟩
    exact h
  · rintro handle - - _ ⟨⟩
    exact h

theorem roomy_text (layer : Layer) (line : String) (x y : Int32) (color : Color) :
    (Piece.ofOp layer (.text line x y color)).All Roomy :=
  all_single nofun

theorem roomy_name {speaker : String} (skin : Option String) (h : (nameArea font speaker).Fits) :
    (name catalogue font skin speaker).All Roomy := by
  rw [name]
  split
  · exact all_empty
  · have hpadding : nameBoxPadding.toNat = 8 := rfl
    have hheight : 10 ≤ (nameBox font speaker).height.toNat := by
      change 10 ≤ nameBoxHeight.toNat
      decide
    have hwidth : 8 ≤ (nameBox font speaker).width.toNat := by
      obtain ⟨⟨-, hright⟩, -⟩ := h
      have hmax : Int32.maxValue.toInt = 2147483647 := rfl
      have hleft : messageBox.x.toInt = 4 := rfl
      simp only [nameArea, hmax, hleft, hpadding] at hright
      rw [nameBox, UInt32.toNat_add, hpadding, Nat.mod_eq_of_lt (by omega)]
      omega
    exact (roomy_skinnedBox ⟨hwidth, hheight⟩).append (roomy_text _ _ _ _ _)

theorem roomy_row (font : Font) (lines choices index : Nat) :
    8 ≤ (choiceRow font lines choices index).width.toNat ∧
      10 ≤ (choiceRow font lines choices index).height.toNat := by
  have hheight : 10 ≤ (rowMetrics choices).1.toNat := by
    rw [rowMetrics]
    split
    · decide
    · decide
  have hwidth : textWidth.toNat = 232 := rfl
  exact ⟨by rw [choiceRow, hwidth]; decide, hheight⟩

theorem roomy_choice (skin : Option String) {row : Rect} (text : String)
    (h : 8 ≤ row.width.toNat ∧ 10 ≤ row.height.toNat) :
    (choice catalogue font skin row text).All Roomy :=
  (roomy_skinnedBox h).append (roomy_text _ _ _ _ _)

theorem roomy_dialogue {speaker : String} (settings : Settings) (hasFollowingContent : Bool)
    (text : String) (choices : List Choice) (h : (nameArea font speaker).Fits) :
    (dialogue catalogue font settings hasFollowingContent speaker text choices).All Roomy := by
  have hbox : (skinnedBox catalogue .messageBox settings.messageBoxImage messageBox boxFill).All
      Roomy := roomy_skinnedBox (by decide)
  have hmessage : (message font (Wrap.lines font textWidth text)).All Roomy :=
    all_message font _ fun _ _ _ _ => roomy_other (by decide) _
  refine ((hbox.append (roomy_name settings.nameBoxImage h)).append hmessage).append ?_
  split
  · exact all_arrow hasFollowingContent fun _ _ _ => roomy_other (by decide) _
  · apply all_join
    rintro ⟨answer, row⟩ hrow
    obtain ⟨⟨_, index⟩, -, heq⟩ := List.mem_map.mp hrow
    cases heq
    exact roomy_choice _ _ (roomy_row _ _ _ _)

end Layout

/-- The name of who speaks is short enough that words can measure its box. -/
def Shot.NameFits (shot : Shot) (font : Font) : Prop :=
  ∀ speaker text choices, shot.dialogue? = some (speaker, text, choices) →
    (Layout.nameArea font speaker).Fits

open Layout in
theorem Shot.roomy_parts {shot : Shot} {font : Font} (h : shot.NameFits font)
    (catalogue : Catalogue) (scene : Scene) : (shot.parts catalogue font scene).All Roomy := by
  have hbackground (shown : UInt8) : (background catalogue scene shown).All Roomy :=
    all_background catalogue shown (fun _ _ => roomy_other (by decide) _)
      fun _ _ _ _ _ => roomy_other (by decide) _
  have hcharacter (animation : Option FrameAnimation) (clockMs : UInt64) (shown : UInt8) :
      (character catalogue scene animation clockMs shown).All Roomy :=
    all_character catalogue animation clockMs shown (fun _ _ => roomy_other (by decide) _)
      fun _ _ _ _ _ => roomy_other (by decide) _
  refine (((hbackground _).append (hcharacter _ _ _)).append ?_).append ?_
  · split
    · next speaker text choices hdialogue =>
        exact roomy_dialogue _ _ _ _ (h speaker text choices hdialogue)
    · exact all_empty
  · split
    · exact all_sceneIndex font shot.scene (fun _ _ => roomy_other (by decide) _)
        fun _ _ _ _ => roomy_other (by decide) _
    · exact all_empty

theorem Shot.roomy_of_layout {shot : Shot} {catalogue : Catalogue} {font : Font} {drawing : Drawing}
    (h : shot.layout catalogue font = .ok drawing) (hname : shot.NameFits font) :
    ∀ call ∈ drawing.calls, Layout.Roomy call := by
  rw [layout] at h
  obtain ⟨scene, -, hdrawing⟩ := bind_eq_ok.mp h
  rw [← pure_eq_ok.mp hdrawing]
  exact shot.roomy_parts hname catalogue scene

/-- The parts of a skin tile each box with room for a corner, and so all boxes of drawings, as long
as their edges are words. -/
theorem Skin.tiles_of_roomy :
    (∀ box : Rect, box.area.Fits → 5 ≤ box.width.toNat → 5 ≤ box.height.toNat → Tiles box) ∧
      ∀ (shot : Shot) (catalogue : Catalogue) (font : Font) (drawing : Drawing),
        shot.layout catalogue font = .ok drawing → shot.NameFits font →
          ∀ call ∈ drawing.calls, call.layer ∈ [.messageBox, .nameBox, .choices] →
            ∀ box, call.op.box? = some box →
              8 ≤ box.width.toNat ∧ 10 ≤ box.height.toNat ∧ (box.area.Fits → Tiles box) := by
  refine ⟨fun box => tiles, ?_⟩
  intro shot catalogue font drawing hlayout hname call hcall hlayer box hbox
  obtain ⟨hwidth, hheight⟩ := shot.roomy_of_layout hlayout hname call hcall hlayer box hbox
  exact ⟨hwidth, hheight, fun hfits => tiles hfits (by omega) (by omega)⟩

/-- A box in which the corners meet, and the first row of choices of a drawing. -/
theorem tiles_of_roomy_poll :
    Rect.area ⟨-3, 2, 7, 12⟩ = ⟨-3, 2, 7, 12⟩ ∧ Skin.Tiles ⟨-3, 2, 7, 12⟩ ∧
      ∃ drawing, poll.layout pollPictures .default = .ok drawing ∧ poll.NameFits .default ∧
        ⟨.choices, .skin "wood" ⟨12, 156, 232, 10⟩⟩ ∈ drawing.calls ∧
        Skin.Tiles ⟨12, 156, 232, 10⟩ := by
  have hname : poll.NameFits .default := by
    rintro speaker text choices ⟨⟩
    decide
  have hcalls : (poll.layout pollPictures .default).map
      (fun drawing => decide (⟨.choices, .skin "wood" ⟨12, 156, 232, 10⟩⟩ ∈ drawing.calls)) =
        .ok true := by
    decide +kernel
  cases hlayout : poll.layout pollPictures .default with
  | error fault =>
      rw [hlayout] at hcalls
      cases hcalls
  | ok drawing =>
      rw [hlayout] at hcalls
      have hcall := of_decide_eq_true (Except.ok.inj hcalls)
      obtain ⟨-, -, htiles⟩ := Skin.tiles_of_roomy.2 poll pollPictures .default drawing hlayout
        hname _ hcall (by decide) _ rfl
      exact ⟨rfl, Skin.tiles_of_roomy.1 _ (by decide) (by decide) (by decide), drawing, rfl, hname,
        hcall, htiles (by decide)⟩

end SceneScript
