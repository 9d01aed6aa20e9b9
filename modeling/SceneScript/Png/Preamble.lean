import SceneScript.Png.Frame
/-!
# Preambles of PNG files

The chunks before the image data say how large the picture is, how its pixels are stored, and which
colours are transparent. A damaged chunk spoils the file only if it is critical. One that does not
fit spoils it also if it describes the colours or a frame.
-/

namespace SceneScript

namespace Png

inductive PixelKind where
  | grey | rgb | palette | greyAlpha | rgba
  deriving DecidableEq, Repr, Inhabited

namespace PixelKind

def ofNumber? : Nat → Option PixelKind
  | 0 => some grey
  | 2 => some rgb
  | 3 => some palette
  | 4 => some greyAlpha
  | 6 => some rgba
  | _ => none

/-- Bytes a pixel. -/
def size : PixelKind → Nat
  | grey => 1 | rgb => 3 | palette => 1 | greyAlpha => 2 | rgba => 4

end PixelKind

structure Header where
  width : UInt32
  height : UInt32
  kind : PixelKind

namespace Header

/-- Pictures have pixels, of eight bits a channel. There is one way to compress and to filter them,
and they are not interlaced. -/
def ofBytes? (data : ByteArray) : Option Header := do
  if data.size ≠ 13 then none
  let width ← wordAt? data 0
  let height ← wordAt? data 4
  let kind ← (← data[9]?).toNat |> PixelKind.ofNumber?
  if width = 0 ∨ height = 0 then none
  if data[8]? ≠ some 8 ∨ data[10]? ≠ some 0 ∨ data[11]? ≠ some 0 ∨ data[12]? ≠ some 0 then none
  return ⟨.ofNat width, .ofNat height, kind⟩

/-- Bytes a row. -/
def rowSize (header : Header) : Nat := header.width.toNat * header.kind.size

/-- Bytes of the image data: each row stands behind the number of its filter. -/
def dataSize (header : Header) : Nat := header.height.toNat * (header.rowSize + 1)

end Header

/-- What stands before the image data. -/
structure Preamble where
  header : Header
  palette : Option ByteArray := none
  transparency : Option ByteArray := none
  /-- The colours have a description. -/
  isDescribed : Bool := false
  /-- The number of the last frame that was announced. -/
  lastFrame : Option Nat := none

namespace Preamble

/-- The greatest count of colours in a palette. -/
def maxColors : Nat := 256

/-- There is one palette, and it has colours. -/
def addPalette? (preamble : Preamble) (data : ByteArray) : Option Preamble :=
  if preamble.palette.isNone ∧ 3 ≤ data.size ∧ data.size ≤ 3 * maxColors then
    some { preamble with palette := some data }
  else none

/-- Transparency goes with three kinds of pixels: it names one colour, in two bytes a channel, or
gives an alpha to the colours of a palette, which comes first. It is never longer than the longest
palette. -/
def acceptsTransparency (preamble : Preamble) (data : ByteArray) : Bool :=
  data.size ≤ maxColors &&
    match preamble.header.kind with
    | .grey => 2 ≤ data.size
    | .rgb => 6 ≤ data.size
    | .palette => preamble.palette.isSome && 1 ≤ data.size
    | .greyAlpha | .rgba => false

/-- Of several transparencies the first one counts. -/
def addTransparency (preamble : Preamble) (data : ByteArray) : Preamble :=
  if preamble.transparency.isNone && preamble.acceptsTransparency data then
    { preamble with transparency := some data }
  else preamble

/-- The first description of the colours counts, and it comes before the palette. It names
primaries, a transfer function, a matrix and a range. There is no matrix for pixels of this kind,
and there are two ranges. -/
def addDescription? (preamble : Preamble) (data : ByteArray) : Option Preamble :=
  if preamble.isDescribed ∨ preamble.palette.isSome ∨ data.size ≠ 4 then some preamble
  else if data[2]? = some 0 ∧ data[3]?.any (· ≤ 1) then some { preamble with isDescribed := true }
  else none

/-- A frame before the image data has all the canvas. Control chunks of another length than theirs
say nothing. -/
def addFrame? (preamble : Preamble) (data : ByteArray) : Option Preamble :=
  if data.size ≠ FrameControl.length then some preamble
  else do
    let control ← FrameControl.ofBytes? data
    if control.number = FrameControl.next preamble.lastFrame ∧
        control.covers preamble.header.width preamble.header.height then
      some { preamble with lastFrame := some control.number }
    else none

/-- Takes in a chunk. -/
def add? (preamble : Preamble) (chunk : Chunk) : Option Preamble :=
  if !chunk.isIntact then if chunk.isCritical then none else some preamble
  else if chunk.type = typeOf "PLTE" then preamble.addPalette? chunk.data
  else if chunk.type = typeOf "tRNS" then some (preamble.addTransparency chunk.data)
  else if chunk.type = typeOf "cICP" then preamble.addDescription? chunk.data
  else if chunk.type = typeOf "fcTL" then preamble.addFrame? chunk.data
  else if chunk.isCritical then none
  else some preamble

/-- The header comes first. -/
def ofChunks? : List Chunk → Option Preamble
  | [] => none
  | first :: rest => do
    if first.type ≠ typeOf "IHDR" ∨ !first.isIntact then none
    rest.foldlM add? { header := ← Header.ofBytes? first.data }

/-- The pieces of the image data. Those of the picture are not damaged. Those of a frame follow on
the announcement of a frame. -/
def pieces? (preamble : Preamble) (image : List Chunk) : Option (List ByteArray) :=
  if image.all Chunk.isPictureData then
    if image.all Chunk.isIntact then some (image.map (·.data)) else none
  else if preamble.lastFrame.isSome then
    FrameControl.pieces? (FrameControl.next preamble.lastFrame) image
  else none

/-- The one colour that is transparent, if there is one. Of the two bytes of a channel the second
counts. -/
def transparentColor? (preamble : Preamble) : Option (List UInt8) :=
  preamble.transparency.map fun data =>
    match preamble.header.kind with
    | .grey => [data.data.getD 1 0]
    | _ => [data.data.getD 1 0, data.data.getD 3 0, data.data.getD 5 0]

end Preamble
end Png
end SceneScript
