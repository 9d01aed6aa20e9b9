import SceneScript.Picture.Bitmap

/-! # Areas

An area is a rectangle over the integers. A rectangle of words is such an area as long as its right
and lower edges are words too; clipping then finds exactly the points that lie in both rectangles.
-/

namespace SceneScript

/-! ## Words -/

theorem toInt_max (a b : Int32) : (max a b).toInt = max a.toInt b.toInt := by
  rw [instMaxInt32, maxOfLe]
  simp only [Int32.le_iff_toInt_le]
  split <;> omega

theorem toInt_min (a b : Int32) : (min a b).toInt = min a.toInt b.toInt := by
  rw [instMinInt32, minOfLe]
  simp only [Int32.le_iff_toInt_le]
  split <;> omega

theorem toInt_add_of_fits {x y : Int32} (hlow : -2147483648 ≤ x.toInt + y.toInt)
    (hhigh : x.toInt + y.toInt ≤ 2147483647) : (x + y).toInt = x.toInt + y.toInt := by
  rw [Int32.toInt_add]
  exact Int.bmod_eq_of_le (by omega) (by omega)

/-- A word takes its value from a sum as long as that is a word. -/
theorem toInt_add_toInt32 {x : Int32} {length : UInt32}
    (h : x.toInt + length.toNat ≤ Int32.maxValue.toInt) :
    (x + length.toInt32).toInt = x.toInt + length.toNat := by
  have hlow := x.le_toInt
  have hmax : Int32.maxValue.toInt = 2147483647 := rfl
  rw [Int32.toInt_add, Int32.toInt, Int32.toInt, UInt32.toBitVec_toInt32,
    BitVec.toInt_eq_toNat_bmod length.toBitVec, UInt32.toNat_toBitVec, Int.add_bmod_bmod]
  rw [Int32.toInt] at h hlow
  exact Int.bmod_eq_of_le (by omega) (by omega)

theorem toInt32_eq_ofInt (word : UInt32) : word.toInt32 = .ofInt word.toNat := by
  rw [Int32.ofInt_eq_ofNat, ← UInt32.toInt32_ofNat', UInt32.ofNat_toNat]

/-- The distance of a word to a greater one. -/
theorem toNat_sub_toUInt32 {x y : Int32} (h : x < y) :
    ((y - x).toUInt32.toNat : Int) = y.toInt - x.toInt := by
  have hlt : x.toInt < y.toInt := Int32.lt_iff_toInt_lt.mp h
  have hvalue (z : Int32) : z.toInt = if 2 * z.toUInt32.toNat < 2 ^ 32 then
      (z.toUInt32.toNat : Int) else z.toUInt32.toNat - 2 ^ 32 :=
    BitVec.toInt_eq_toNat_cond z.toBitVec
  have hx := hvalue x
  have hy := hvalue y
  have hbelow (z : Int32) : z.toUInt32.toNat < 2 ^ 32 := z.toUInt32.toNat_lt
  have hxlt := hbelow x
  have hylt := hbelow y
  rw [Int32.toUInt32_sub, UInt32.toNat_sub]
  split at hx <;> split at hy <;> omega

/-! ## Areas of rectangles -/

structure Area where
  x : Int
  y : Int
  width : Nat
  height : Nat
  deriving DecidableEq, Repr

namespace Area

def Covers (area : Area) (x y : Int) : Prop :=
  area.x ≤ x ∧ x < area.x + area.width ∧ area.y ≤ y ∧ y < area.y + area.height

instance (area : Area) (x y : Int) : Decidable (area.Covers x y) :=
  inferInstanceAs (Decidable (_ ∧ _))

/-- All edges are words. -/
def Fits (area : Area) : Prop :=
  (Int32.minValue.toInt ≤ area.x ∧ area.x + area.width ≤ Int32.maxValue.toInt) ∧
    Int32.minValue.toInt ≤ area.y ∧ area.y + area.height ≤ Int32.maxValue.toInt

instance (area : Area) : Decidable area.Fits := inferInstanceAs (Decidable (_ ∧ _))

/-- No point lies in both areas. -/
def Disjoint (area other : Area) : Prop := ∀ x y, area.Covers x y → ¬other.Covers x y

end Area

namespace Rect

def area (rect : Rect) : Area := ⟨rect.x.toInt, rect.y.toInt, rect.width.toNat, rect.height.toNat⟩

variable {rect other common : Rect}

theorem toInt_right (h : rect.area.Fits) : rect.right.toInt = rect.x.toInt + rect.width.toNat :=
  toInt_add_toInt32 h.1.2

theorem toInt_bottom (h : rect.area.Fits) :
    rect.bottom.toInt = rect.y.toInt + rect.height.toNat :=
  toInt_add_toInt32 h.2.2

theorem contains_iff (h : rect.area.Fits) {x y : Int32} :
    rect.contains x y = true ↔ rect.area.Covers x.toInt y.toInt := by
  simp only [contains, Bool.and_eq_true, decide_eq_true_eq, Int32.le_iff_toInt_le,
    Int32.lt_iff_toInt_lt, toInt_right h, toInt_bottom h, and_assoc]
  exact Iff.rfl

/-- The edges of the common part of two rectangles. -/
theorem edges_of_intersect? (h : rect.area.Fits) (h' : other.area.Fits)
    (hcommon : rect.intersect? other = some common) :
    (common.area.x = max rect.area.x other.area.x ∧
      common.area.x + common.area.width =
        min (rect.area.x + rect.area.width) (other.area.x + other.area.width)) ∧
    common.area.y = max rect.area.y other.area.y ∧
      common.area.y + common.area.height =
        min (rect.area.y + rect.area.height) (other.area.y + other.area.height) := by
  have hright := toInt_right h
  have hright' := toInt_right h'
  have hbottom := toInt_bottom h
  have hbottom' := toInt_bottom h'
  unfold intersect? at hcommon
  dsimp only at hcommon
  split at hcommon
  · cases hcommon
  · next hsome =>
      cases hcommon
      rw [not_or, Int32.not_le, Int32.not_le] at hsome
      have hwidth := toNat_sub_toUInt32 hsome.1
      have hheight := toNat_sub_toUInt32 hsome.2
      simp only [toInt_max, toInt_min] at hwidth hheight
      simp only [area, toInt_max, ← hright, ← hright', ← hbottom, ← hbottom']
      refine ⟨⟨trivial, ?_⟩, trivial, ?_⟩ <;> omega

/-- No point lies in two rectangles that have no common part. -/
theorem not_covers_of_intersect? (h : rect.area.Fits) (h' : other.area.Fits)
    (hnone : rect.intersect? other = none) {x y : Int} (hcovers : rect.area.Covers x y) :
    ¬other.area.Covers x y := by
  have hright := toInt_right h
  have hright' := toInt_right h'
  have hbottom := toInt_bottom h
  have hbottom' := toInt_bottom h'
  unfold intersect? at hnone
  dsimp only at hnone
  split at hnone
  · next hempty =>
      simp only [Int32.le_iff_toInt_le, toInt_max, toInt_min] at hempty
      simp only [Area.Covers, area] at hcovers ⊢
      omega
  · cases hnone

end Rect
end SceneScript
