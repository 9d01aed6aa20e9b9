import Mathlib.Algebra.Order.Ring.Rat
import Mathlib.Tactic.Linarith
import SceneScript.Proofs.Picture.Painting

/-! # Wipes

A picture of a transition takes each pixel from the old side or from the new one, as the mask says at
that place. The threshold only rises with the progress, so a place that shows the new side goes on
showing it.
-/

namespace SceneScript

/-! ## Thresholds -/

theorem clampUnit_le_one (q : Rat) : clampUnit q ≤ 1 := by
  unfold clampUnit
  split_ifs <;> linarith

theorem clampUnit_mono {p q : Rat} (h : p ≤ q) : clampUnit p ≤ clampUnit q := by
  unfold clampUnit
  split_ifs <;> linarith

theorem threshold_mono {p q : Rat} (h : p ≤ q) :
    threshold (.finite p) ≤ threshold (.finite q) := by
  have hscaled : clampUnit p * 256 ≤ clampUnit q * 256 := by linarith [clampUnit_mono h]
  exact Int.toNat_le_toNat (Rat.floor_monotone hscaled)

theorem threshold_le (progress : Binary) : threshold progress ≤ 256 := by
  cases progress with
  | finite p =>
      have hscaled : clampUnit p * 256 ≤ (256 : Int) := by
        push_cast
        linarith [clampUnit_le_one p]
      have hfloor := Rat.floor_monotone hscaled
      rw [Rat.floor_intCast] at hfloor
      exact Int.toNat_le_toNat hfloor
  | infinite negative => cases negative <;> decide
  | nan => decide

namespace Bitmap

def HasPixels (image : Bitmap) : Prop := image.width ≠ 0 ∧ image.height ≠ 0

/-- The image shows the new side where the mask is below the threshold, and else the old one. Each
place of the image has a place of the mask, which is stretched over it. -/
structure Wiped (old new mask : Bitmap) (threshold : Nat) (image : Bitmap) : Prop where
  size : image.SameSize old
  sampled : ∀ x y : Nat, x < old.width.toNat → y < old.height.toNat →
    ∃ color, mask.pixel? (x * mask.width.toNat / old.width.toNat)
        (y * mask.height.toNat / old.height.toNat) = some color ∧
      image.pixel? x y = if color.red.toNat < threshold then new.pixel? x y else old.pixel? x y

/-! ## One picture -/

section Wiped

variable {old new mask image later : Bitmap} {threshold further x y : Nat}

/-- The mask has a pixel for each place of a picture. -/
theorem exists_sample (hmask : mask.HasPixels) (hx : x < old.width.toNat)
    (hy : y < old.height.toNat) :
    ∃ color, mask.pixel? (x * mask.width.toNat / old.width.toNat)
      (y * mask.height.toNat / old.height.toNat) = some color := by
  have hcolumns : 0 < mask.width.toNat :=
    Nat.pos_of_ne_zero fun hzero => hmask.1 (UInt32.toNat_inj.mp hzero)
  have hrows : 0 < mask.height.toNat :=
    Nat.pos_of_ne_zero fun hzero => hmask.2 (UInt32.toNat_inj.mp hzero)
  refine exists_pixel? mask (Nat.div_lt_of_lt_mul ?_) (Nat.div_lt_of_lt_mul ?_)
  · exact Nat.mul_lt_mul_of_pos_right hx hcolumns
  · exact Nat.mul_lt_mul_of_pos_right hy hrows

theorem wipe_of_hasPixels (hmask : mask.HasPixels) :
    old.wipe new (some mask) threshold = generate old.width old.height fun x y =>
      ((if mask.maskValue old.width old.height x y < threshold then new else old).pixel? x y).getD
        .black :=
  if_neg (not_or.mpr hmask)

theorem wiped_wipe (hsize : old.SameSize new) (hmask : mask.HasPixels) (threshold : Nat) :
    old.Wiped new mask threshold (old.wipe new (some mask) threshold) := by
  rw [wipe_of_hasPixels hmask]
  refine ⟨⟨rfl, rfl⟩, fun x y hx hy => ?_⟩
  obtain ⟨color, hcolor⟩ := exists_sample hmask hx hy
  obtain ⟨before, hbefore⟩ := exists_pixel? old hx hy
  obtain ⟨after, hafter⟩ := exists_pixel? new (hsize.1 ▸ hx) (hsize.2 ▸ hy)
  have hvalue : mask.maskValue old.width old.height x y = color.red.toNat := by
    rw [maskValue, hcolor, Option.getD_some]
  refine ⟨color, hcolor, ?_⟩
  rw [pixel?_generate hx hy, hvalue, hbefore, hafter]
  split
  · rw [hafter, Option.getD_some]
  · rw [hbefore, Option.getD_some]

theorem wipe_of_no_pixels {mask : Option Bitmap}
    (hmask : ∀ image, mask = some image → ¬image.HasPixels) : old.wipe new mask threshold = new := by
  cases mask with
  | none => rfl
  | some image =>
      have hempty : image.width = 0 ∨ image.height = 0 := by
        simpa [HasPixels, or_iff_not_imp_left] using hmask image rfl
      exact if_pos hempty

namespace Wiped

theorem eq_old (h : old.Wiped new mask threshold image) (hnone : threshold = 0) : image = old := by
  refine eq_of_pixel?_eq h.size fun x y hx hy => ?_
  obtain ⟨color, -, hpixel⟩ := h.sampled x y (h.size.1 ▸ hx) (h.size.2 ▸ hy)
  rw [hpixel, if_neg (by omega)]

/-- At the end all values of the mask have been passed. -/
theorem eq_new (h : old.Wiped new mask threshold image) (hsize : old.SameSize new)
    (hall : threshold = 256) : image = new := by
  refine eq_of_pixel?_eq (h.size.trans hsize) fun x y hx hy => ?_
  obtain ⟨color, -, hpixel⟩ := h.sampled x y (h.size.1 ▸ hx) (h.size.2 ▸ hy)
  have hbelow : color.red.toNat < 256 := color.red.toNat_lt
  rw [hpixel, if_pos (hall ▸ hbelow)]

/-- What shows the new side goes on showing it as the threshold rises. -/
theorem stays_new (h : old.Wiped new mask threshold image)
    (hlater : old.Wiped new mask further later) (hle : threshold ≤ further)
    (hx : x < old.width.toNat) (hy : y < old.height.toNat)
    (hnew : image.pixel? x y = new.pixel? x y) : later.pixel? x y = new.pixel? x y := by
  obtain ⟨color, hcolor, hpixel⟩ := h.sampled x y hx hy
  obtain ⟨other, hother, hpixel'⟩ := hlater.sampled x y hx hy
  cases hcolor.symm.trans hother
  rw [hpixel']
  split
  · rfl
  · -- The place has not gone over before either, so both sides are alike there.
    rw [← hnew, hpixel, if_neg (by omega)]

end Wiped
end Wiped

/-! ## Whole transitions -/

/-- Two sides of one size and a mask with pixels give a picture at every progress. It begins as the
old side, ends as the new one and never goes back. Without such a mask the new side is shown at once;
sides that differ in size are refused. -/
theorem composite_wipes (old new : Bitmap) (progress : Binary) :
    threshold progress ≤ 256 ∧
      (∀ p q : Rat, p ≤ q → threshold (.finite p) ≤ threshold (.finite q)) ∧
      (old.SameSize new → ∀ mask : Bitmap, mask.HasPixels →
        ∃ image, old.composite new (some mask) progress = .ok image ∧
          old.Wiped new mask (threshold progress) image ∧
          (threshold progress = 0 → image = old) ∧ (threshold progress = 256 → image = new) ∧
          ∀ further later, threshold progress ≤ threshold further →
            old.composite new (some mask) further = .ok later →
            ∀ x y : Nat, x < old.width.toNat → y < old.height.toNat →
              image.pixel? x y = new.pixel? x y → later.pixel? x y = new.pixel? x y) ∧
      (old.SameSize new → ∀ mask : Option Bitmap,
        (∀ image, mask = some image → ¬image.HasPixels) →
          old.composite new mask progress = .ok new) ∧
      (¬old.SameSize new → ∀ mask : Option Bitmap, old.composite new mask progress =
        .error (.sizesDiffer old.width old.height new.width new.height)) := by
  refine ⟨threshold_le progress, fun _ _ => threshold_mono, fun hsize mask hmask => ?_,
    fun hsize mask hmask => ?_, fun hsize mask => if_neg hsize⟩
  · have hwiped := wiped_wipe hsize hmask (threshold progress)
    refine ⟨_, if_pos hsize, hwiped, hwiped.eq_old, hwiped.eq_new hsize, ?_⟩
    intro further later hle hlater x y hx hy hnew
    have hcomposite : old.composite new (some mask) further = .ok _ := if_pos hsize
    cases hcomposite.symm.trans hlater
    exact hwiped.stays_new (wiped_wipe hsize hmask _) hle hx hy hnew
  · have hcomposite : old.composite new mask progress = .ok _ := if_pos hsize
    rw [hcomposite, wipe_of_no_pixels hmask]

def red : Bitmap := .filled 3 2 ⟨255, 0, 0, 255⟩

def blue : Bitmap := .filled 3 2 ⟨0, 0, 255, 255⟩

/-- A mask that is stretched over three columns: its dark half takes two of them. -/
def halves : Bitmap := .generate 2 1 fun x _ => if x = 0 then .black else .white

/-- Half way, the dark columns have gone over to blue, and the bright one is still red. -/
theorem composite_wipes_halves :
    red.SameSize blue ∧ halves.HasPixels ∧
      ∃ image, red.composite blue (some halves) (.finite (1 / 2)) = .ok image ∧
        image.pixel? 1 1 = some ⟨0, 0, 255, 255⟩ ∧ image.pixel? 2 0 = some ⟨255, 0, 0, 255⟩ := by
  have hsize : red.SameSize blue := ⟨rfl, rfl⟩
  have hmask : halves.HasPixels := by unfold HasPixels; decide
  have hthreshold : threshold (.finite (1 / 2)) = 128 := by decide +kernel
  obtain ⟨-, -, hwipes, -⟩ := composite_wipes red blue (.finite (1 / 2))
  obtain ⟨image, himage, hwiped, -⟩ := hwipes hsize halves hmask
  rw [hthreshold] at hwiped
  refine ⟨hsize, hmask, image, himage, ?_, ?_⟩
  · obtain ⟨color, hcolor, hpixel⟩ := hwiped.sampled 1 1 (by decide) (by decide)
    cases hcolor
    exact hpixel
  · obtain ⟨color, hcolor, hpixel⟩ := hwiped.sampled 2 0 (by decide) (by decide)
    cases hcolor
    exact hpixel

end Bitmap
end SceneScript
