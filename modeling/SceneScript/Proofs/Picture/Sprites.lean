import SceneScript.Picture.Layout
import SceneScript.Proofs.Picture.Area

/-! # Frames of a sprite sheet

An animation shows the frames of a sheet one after the other, and stays at the last whole one if it
has more frames than the sheet. So the frame on show lies in the sheet. But a frame begins at a pixel,
a number without a sign, and the rectangle of a frame begins at a number with a sign: they are the
same in the first 2³¹ pixels of a sheet only.
-/

namespace SceneScript

/-! ## Words -/

/-- The second half of the words without a sign are the negative ones with a sign. -/
theorem toInt_ofNat {value : Nat} (h : value < 4294967296) : (Int32.ofNat value).toInt =
    if value < 2147483648 then (value : Int) else value - 4294967296 := by
  change (BitVec.ofNat 32 value).toInt = _
  rw [BitVec.toInt_eq_toNat_cond, BitVec.toNat_ofNat, Nat.mod_eq_of_lt h]
  split <;> split <;> omega

theorem toNat_min (a b : UInt32) : (min a b).toNat = min a.toNat b.toNat := by
  rw [instMinUInt32, minOfLe]
  simp only [UInt32.le_iff_toNat_le]
  split <;> omega

theorem toNat_pos {word : UInt32} (h : word ≠ 0) : 0 < word.toNat :=
  Nat.pos_of_ne_zero fun hzero => h (UInt32.toNat_inj.mp hzero)

/-! ## Exact numbers -/

namespace Exact

/-- The number as a word, unless it is too large. -/
def word? (value : Nat) : Option UInt32 :=
  if value < 4294967296 then some (.ofNat value) else none

/-- The number as a word with a sign, unless it is too large. -/
def signed? (value : Nat) : Option Int32 :=
  if value < 2147483648 then some (.ofNat value) else none

def quotient? (value divisor : Nat) : Option Nat :=
  if 0 < divisor then some (value / divisor) else none

def remainder? (value divisor : Nat) : Option Nat :=
  if 0 < divisor then some (value % divisor) else none

def difference? (value less : Nat) : Option Nat :=
  if less ≤ value then some (value - less) else none

variable {value divisor less : Nat}

theorem word?_toNat (word : UInt32) : word? word.toNat = some word := by
  rw [word?, if_pos word.toNat_lt, UInt32.ofNat_toNat]

theorem quotient?_of_pos (h : 0 < divisor) : quotient? value divisor = some (value / divisor) :=
  if_pos h

theorem remainder?_of_pos (h : 0 < divisor) : remainder? value divisor = some (value % divisor) :=
  if_pos h

theorem difference?_of_le (h : less ≤ value) : difference? value less = some (value - less) :=
  if_pos h

end Exact

/-! ## The frame on show -/

namespace FrameAnimation

open Exact

/-- `frameAt`, unless a number is too large or a divisor is zero. -/
def frameAt? (animation : FrameAnimation) (elapsedMs : UInt64) : Option UInt32 :=
  if animation.frameCount = 0 ∨ animation.frameDurationMs = 0 then some 0
  else do
    let step ← quotient? elapsedMs.toNat animation.frameDurationMs.toNat
    if animation.looping then word? (← remainder? step animation.frameCount.toNat)
    else word? (min step (← difference? animation.frameCount.toNat 1))

variable {animation : FrameAnimation} {elapsedMs : UInt64}

/-- The count of frames is a word, and so is the number of each frame. -/
theorem toNat_frameAt (h : ¬(animation.frameCount = 0 ∨ animation.frameDurationMs = 0)) :
    (animation.frameAt elapsedMs).toNat =
      let step := elapsedMs.toNat / animation.frameDurationMs.toNat
      if animation.looping then step % animation.frameCount.toNat
      else min step (animation.frameCount.toNat - 1) := by
  have hcount := toNat_pos (not_or.mp h).1
  have hword := animation.frameCount.toNat_lt
  unfold frameAt
  rw [if_neg h]
  dsimp only
  split
  · exact UInt32.toNat_ofNat_of_lt' (Nat.lt_trans (Nat.mod_lt _ hcount) hword)
  · exact UInt32.toNat_ofNat_of_lt' (Nat.lt_trans (by omega) hword)

theorem frameAt?_eq (animation : FrameAnimation) (elapsedMs : UInt64) :
    animation.frameAt? elapsedMs = some (animation.frameAt elapsedMs) := by
  by_cases h : animation.frameCount = 0 ∨ animation.frameDurationMs = 0
  · rw [frameAt?, frameAt, if_pos h, if_pos h]
  · have hcount := toNat_pos (not_or.mp h).1
    have hduration := toNat_pos (not_or.mp h).2
    rw [← word?_toNat, toNat_frameAt h, frameAt?, if_neg h]
    simp only [quotient?_of_pos hduration, remainder?_of_pos hcount, difference?_of_le hcount,
      Option.bind_eq_bind, Option.bind_some]
    exact (apply_ite word? ..).symm

theorem frameAt_lt (h : 0 < animation.frameCount) :
    animation.frameAt elapsedMs < animation.frameCount := by
  by_cases hstill : animation.frameCount = 0 ∨ animation.frameDurationMs = 0
  · rwa [frameAt, if_pos hstill]
  · have hcount : 0 < animation.frameCount.toNat := UInt32.lt_iff_toNat_lt.mp h
    rw [UInt32.lt_iff_toNat_lt, toNat_frameAt hstill]
    dsimp only
    split
    · exact Nat.mod_lt _ hcount
    · omega

theorem frameAt_mono (h : animation.looping = false) {earlier later : UInt64}
    (hclock : earlier ≤ later) : animation.frameAt earlier ≤ animation.frameAt later := by
  by_cases hstill : animation.frameCount = 0 ∨ animation.frameDurationMs = 0
  · rw [frameAt, frameAt, if_pos hstill, if_pos hstill]
    exact UInt32.le_refl _
  · have hstep := Nat.div_le_div_right (c := animation.frameDurationMs.toNat)
      (UInt64.le_iff_toNat_le.mp hclock)
    rw [UInt32.le_iff_toNat_le, toNat_frameAt hstill, toNat_frameAt hstill]
    simp only [h, Bool.false_eq_true, if_false]
    omega

end FrameAnimation

/-! ## The frame in the sheet -/

namespace Layout

open Exact

/-- The pixel of the sheet at which the frame on show begins. -/
def spriteLeft (width : UInt32) (animation : Option FrameAnimation) (clockMs : UInt64) : Nat :=
  match animation with
  | none => 0
  | some animation =>
    if 0 < animation.frameWidth ∧ animation.frameWidth ≤ width then
      let last := width.toNat / animation.frameWidth.toNat - 1
      min (animation.frameAt clockMs).toNat last * animation.frameWidth.toNat
    else 0

/-- `spriteSource`, unless a number is too large or a divisor is zero. -/
def spriteSource? (width height : UInt32) (animation : Option FrameAnimation) (clockMs : UInt64) :
    Option Rect :=
  match animation with
  | none => some ⟨0, 0, width, height⟩
  | some animation =>
    if 0 < animation.frameWidth ∧ animation.frameWidth ≤ width then do
      let frame ← animation.frameAt? clockMs
      let last ← difference? (← quotient? width.toNat animation.frameWidth.toNat) 1
      let left ← word? (min frame.toNat last * animation.frameWidth.toNat)
      return ⟨← signed? left.toNat, 0, animation.frameWidth, height⟩
    else some ⟨0, 0, width, height⟩

section Frames

variable {width frameWidth : UInt32}

theorem one_le_frames (h : 0 < frameWidth ∧ frameWidth ≤ width) :
    1 ≤ width.toNat / frameWidth.toNat :=
  Nat.div_pos (UInt32.le_iff_toNat_le.mp h.2) (UInt32.lt_iff_toNat_lt.mp h.1)

/-- Behind the last whole frame no other one begins. -/
theorem left_add_frameWidth_le (h : 0 < frameWidth ∧ frameWidth ≤ width) (frame : Nat) :
    min frame (width.toNat / frameWidth.toNat - 1) * frameWidth.toNat + frameWidth.toNat ≤
      width.toNat :=
  calc
    _ ≤ (width.toNat / frameWidth.toNat - 1) * frameWidth.toNat + frameWidth.toNat :=
      Nat.add_le_add_right (Nat.mul_le_mul_right _ (Nat.min_le_right ..)) _
    _ = width.toNat / frameWidth.toNat * frameWidth.toNat := by
      rw [← Nat.succ_mul, Nat.succ_eq_add_one, Nat.sub_add_cancel (one_le_frames h)]
    _ ≤ width.toNat := Nat.div_mul_le_self ..

/-- Words give the same left edge as numbers do. -/
theorem toNat_left (h : 0 < frameWidth ∧ frameWidth ≤ width) (frame : UInt32) :
    (min frame (width / frameWidth - 1) * frameWidth).toNat =
      min frame.toNat (width.toNat / frameWidth.toNat - 1) * frameWidth.toNat := by
  have hframes : 1 ≤ width / frameWidth := by
    rw [UInt32.le_iff_toNat_le, UInt32.toNat_div]
    exact one_le_frames h
  have hlast : (width / frameWidth - 1).toNat = width.toNat / frameWidth.toNat - 1 := by
    rw [UInt32.toNat_sub_of_le _ _ hframes, UInt32.toNat_div]
    rfl
  have hinside := left_add_frameWidth_le h frame.toNat
  have hword := width.toNat_lt
  rw [UInt32.toNat_mul, toNat_min, hlast]
  exact Nat.mod_eq_of_lt (by omega)

end Frames

variable (width height : UInt32) (animation : Option FrameAnimation) (clockMs : UInt64)

/-- The frame on show begins in the sheet and ends in it. -/
theorem spriteLeft_add_width_le : spriteLeft width animation clockMs +
    (spriteSource width height animation clockMs).width.toNat ≤ width.toNat := by
  unfold spriteLeft spriteSource
  cases animation with
  | none => simp
  | some animation =>
      dsimp only
      split
      · next h => exact left_add_frameWidth_le h _
      · simp

/-- The frame on show is as high as the sheet, and begins at the same pixel up to the sign. -/
theorem spriteSource_eq : spriteSource width height animation clockMs =
    ⟨.ofNat (spriteLeft width animation clockMs), 0,
      (spriteSource width height animation clockMs).width, height⟩ := by
  unfold spriteLeft spriteSource
  cases animation with
  | none => rfl
  | some animation =>
      dsimp only
      split
      · next h => rw [toInt32_eq_ofInt, toNat_left h, Int32.ofInt_eq_ofNat]
      · rfl

/-- The left edge of a rectangle is the only number that may be too large. -/
theorem spriteSource?_eq : spriteSource? width height animation clockMs =
    if spriteLeft width animation clockMs < 2147483648 then
      some (spriteSource width height animation clockMs)
    else none := by
  unfold spriteLeft spriteSource spriteSource?
  cases animation with
  | none => rfl
  | some animation =>
      dsimp only
      split
      · next h =>
          have hframe : 0 < animation.frameWidth.toNat := UInt32.lt_iff_toNat_lt.mp h.1
          rw [← toNat_left h, toInt32_eq_ofInt, Int32.ofInt_eq_ofNat]
          simp only [FrameAnimation.frameAt?_eq, quotient?_of_pos hframe,
            difference?_of_le (one_le_frames h), ← toNat_left h, word?_toNat,
            Option.bind_eq_bind, Option.bind_some]
          unfold signed?
          split <;> rfl
      · rfl

theorem spriteLeft_lt (h : width.toNat ≤ 2147483648) :
    spriteLeft width animation clockMs < 2147483648 := by
  unfold spriteLeft
  cases animation with
  | none => exact Nat.zero_lt_succ _
  | some animation =>
      dsimp only
      split
      · next hframe =>
          have hpositive : 0 < animation.frameWidth.toNat := UInt32.lt_iff_toNat_lt.mp hframe.1
          have hinside := left_add_frameWidth_le hframe (animation.frameAt clockMs).toNat
          omega
      · exact Nat.zero_lt_succ _

end Layout

/-- The rectangle lies in the sheet, over the whole height. -/
structure Rect.InSheet (source : Rect) (width height : UInt32) : Prop where
  left : 0 ≤ source.x.toInt
  right : source.x.toInt + source.width.toNat ≤ width.toNat
  top : source.y = 0
  bottom : source.height = height

namespace Layout

/-- The frame on show lies in the sheet, and is found without too large a number, exactly if it begins
in the first 2³¹ pixels. Its number is below the count of frames, and does not fall unless they
repeat. -/
theorem inSheet_spriteSource_iff (width height : UInt32) (animation : Option FrameAnimation)
    (clockMs : UInt64) :
    let source := spriteSource width height animation clockMs
    let left := spriteLeft width animation clockMs
    ((source.InSheet width height ↔ left < 2147483648) ∧
      spriteSource? width height animation clockMs = if left < 2147483648 then some source else none) ∧
    (source.x.toInt + source.width.toNat ≤ width.toNat ∧ source.height = height ∧
      source.x = .ofNat left ∧ left + source.width.toNat ≤ width.toNat ∧
      (width.toNat ≤ 2147483648 → left < 2147483648)) ∧
    ∀ shown ∈ animation,
      shown.frameAt? clockMs = some (shown.frameAt clockMs) ∧
      (0 < shown.frameCount → shown.frameAt clockMs < shown.frameCount) ∧
      (shown.looping = false → ∀ later, clockMs ≤ later →
        shown.frameAt clockMs ≤ shown.frameAt later) := by
  intro source left
  have hinside : left + source.width.toNat ≤ width.toNat :=
    spriteLeft_add_width_le width height animation clockMs
  have hsource : source = ⟨.ofNat left, 0, source.width, height⟩ :=
    spriteSource_eq width height animation clockMs
  have hx : source.x = .ofNat left := congrArg Rect.x hsource
  have hheight : source.height = height := congrArg Rect.height hsource
  have hword := width.toNat_lt
  have hedge : source.x.toInt = if left < 2147483648 then (left : Int) else left - 4294967296 := by
    rw [hx]
    exact toInt_ofNat (by omega)
  have hright : source.x.toInt + source.width.toNat ≤ width.toNat := by
    rw [hedge]
    split <;> omega
  have hsheet : source.InSheet width height ↔ left < 2147483648 := by
    constructor
    · intro hsheet
      have hnonneg := hsheet.left
      rw [hedge] at hnonneg
      split at hnonneg <;> omega
    · intro hleft
      refine ⟨?_, hright, congrArg Rect.y hsource, hheight⟩
      rw [hedge, if_pos hleft]
      omega
  exact ⟨⟨hsheet, spriteSource?_eq width height animation clockMs⟩,
    ⟨hright, hheight, hx, hinside, spriteLeft_lt width animation clockMs⟩,
    fun shown _ => ⟨shown.frameAt?_eq clockMs, FrameAnimation.frameAt_lt,
      fun hlooping _ => FrameAnimation.frameAt_mono hlooping⟩⟩

/-- The third frame of a sheet that begins in the middle of the words. -/
theorem not_inSheet_spriteSource :
    spriteSource 3221225472 0 (some ⟨3, 1073741824, 100, true⟩) 250 =
        ⟨-2147483648, 0, 1073741824, 0⟩ ∧
      ¬(spriteSource 3221225472 0 (some ⟨3, 1073741824, 100, true⟩) 250).InSheet 3221225472 0 ∧
      spriteSource? 3221225472 0 (some ⟨3, 1073741824, 100, true⟩) 250 = none := by
  have hsource : spriteSource 3221225472 0 (some ⟨3, 1073741824, 100, true⟩) 250 =
      ⟨-2147483648, 0, 1073741824, 0⟩ := by decide
  refine ⟨hsource, fun hsheet => ?_, by decide⟩
  rw [hsource] at hsheet
  exact absurd hsheet.left (by decide)

end Layout
end SceneScript
