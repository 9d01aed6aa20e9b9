import SceneScript.Picture.Color
import SceneScript.Picture.Rect
/-!
# Bitmaps

A bitmap holds its pixels row by row. All changes go through `paint`, which changes the pixels of
one region and keeps the others.
-/

namespace SceneScript

structure Bitmap where
  width : UInt32
  height : UInt32
  pixels : Array Color
  size_eq : pixels.size = width.toNat * height.toNat
  deriving DecidableEq

namespace Bitmap

def filled (width height : UInt32) (color : Color) : Bitmap :=
  ⟨width, height, .replicate (width.toNat * height.toNat) color, by simp⟩

/-- The bitmap with the given pixel at each column and row. -/
def generate (width height : UInt32) (pixel : Nat → Nat → Color) : Bitmap :=
  ⟨width, height,
    .ofFn fun i : Fin (width.toNat * height.toNat) => pixel (i % width.toNat) (i / width.toNat),
    by simp⟩

instance : Inhabited Bitmap := ⟨filled 0 0 .black⟩

/-- The pixel in a column and a row. -/
def pixel? (bitmap : Bitmap) (x y : Nat) : Option Color :=
  if x < bitmap.width.toNat then bitmap.pixels[y * bitmap.width.toNat + x]? else none

def bounds (bitmap : Bitmap) : Rect := ⟨0, 0, bitmap.width, bitmap.height⟩

/-- Changes `count` pixels of an array from `first` on. The function gets the column, which starts
at `x`. -/
def paintRun (change : Nat → Color → Color) (first x : Nat) :
    Nat → Array Color → Array Color
  | 0, pixels => pixels
  | count + 1, pixels =>
    paintRun change (first + 1) (x + 1) count (pixels.modify first (change x))

/-- Changes `columns` pixels from column `x` on in `rows` rows from row `y` on. -/
def paintRows (change : Nat → Nat → Color → Color) (width x columns y : Nat) :
    Nat → Array Color → Array Color
  | 0, pixels => pixels
  | rows + 1, pixels =>
    paintRows change width x columns (y + 1) rows
      (paintRun (change y) (y * width + x) x columns pixels)

theorem size_paintRun (change : Nat → Color → Color) (first x count : Nat)
    (pixels : Array Color) : (paintRun change first x count pixels).size = pixels.size := by
  induction count generalizing first x pixels with
  | zero => rfl
  | succ count ih => simp [paintRun, ih]

theorem size_paintRows (change : Nat → Nat → Color → Color) (width x columns y rows : Nat)
    (pixels : Array Color) :
    (paintRows change width x columns y rows pixels).size = pixels.size := by
  induction rows generalizing y pixels with
  | zero => rfl
  | succ rows ih => simp [paintRows, ih, size_paintRun]

/-- Changes the pixels of a region that lies in the bitmap. The function gets row and column. -/
def paintWithin (bitmap : Bitmap) (region : Rect) (change : Nat → Nat → Color → Color) : Bitmap :=
  ⟨bitmap.width, bitmap.height,
    paintRows change bitmap.width.toNat region.x.toInt.toNat region.width.toNat
      region.y.toInt.toNat region.height.toNat bitmap.pixels,
    by rw [size_paintRows, bitmap.size_eq]⟩

/-- Changes the pixels of a region, as far as it lies in the bitmap. -/
def paint (bitmap : Bitmap) (region : Rect) (change : Nat → Nat → Color → Color) : Bitmap :=
  match region.intersect? bitmap.bounds with
  | some region => bitmap.paintWithin region change
  | none => bitmap

end Bitmap
end SceneScript
