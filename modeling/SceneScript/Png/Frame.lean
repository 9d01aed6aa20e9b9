import SceneScript.Png.Chunk
/-!
# Frames of PNG files

An animated file has further pictures, its frames. A control chunk announces each of them. Control
chunks and data of frames share one sequence of numbers, which starts at zero.
-/

namespace SceneScript

namespace Png

/-- The place of a frame in the sequence and on the canvas. -/
structure FrameControl where
  number : Nat
  width : Nat
  height : Nat
  x : Nat
  y : Nat
  deriving DecidableEq, Repr

namespace FrameControl

/-- The bytes of a control chunk. -/
def length : Nat := 26

/-- There are three ways to remove a frame, and two to draw it. Behind the place stands the time
that the frame is shown, then how it is removed and drawn. -/
def ofBytes? (data : ByteArray) : Option FrameControl := do
  let removal ← data[24]?
  let drawing ← data[25]?
  if 2 < removal ∨ 1 < drawing then none
  return ⟨← wordAt? data 0, ← wordAt? data 4, ← wordAt? data 8, ← wordAt? data 12,
    ← wordAt? data 16⟩

/-- The frame has all the canvas. -/
def covers (control : FrameControl) (width height : UInt32) : Bool :=
  control.x = 0 && control.y = 0 && control.width = width.toNat && control.height = height.toNat

/-- The number behind the last one, if there is one. -/
def next (last : Option Nat) : Nat := last.elim 0 (· + 1)

/-- The data of a frame. Each chunk begins with its number. -/
def pieces? : Nat → List Chunk → Option (List ByteArray)
  | _, [] => some []
  | number, chunk :: rest =>
    if wordAt? chunk.data 0 = some number then
      (pieces? (number + 1) rest).map (chunk.data.extract 4 chunk.data.size :: ·)
    else none

end FrameControl
end Png
end SceneScript
