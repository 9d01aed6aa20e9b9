/-!
# Rectangles

Left and upper edges belong to a rectangle, right and lower ones do not. Coordinates are 32-bit
words.
-/

namespace SceneScript

structure Rect where
  x : Int32
  y : Int32
  width : UInt32
  height : UInt32
  deriving DecidableEq, Repr, Inhabited

namespace Rect

def right (rect : Rect) : Int32 := rect.x + rect.width.toInt32

def bottom (rect : Rect) : Int32 := rect.y + rect.height.toInt32

def contains (rect : Rect) (x y : Int32) : Bool :=
  rect.x ≤ x && x < rect.right && rect.y ≤ y && y < rect.bottom

/-- The common part of two rectangles, unless it is empty. -/
def intersect? (rect other : Rect) : Option Rect :=
  let x := max rect.x other.x
  let y := max rect.y other.y
  let right := min rect.right other.right
  let bottom := min rect.bottom other.bottom
  if right ≤ x ∨ bottom ≤ y then none
  else some ⟨x, y, (right - x).toUInt32, (bottom - y).toUInt32⟩

end Rect
end SceneScript
