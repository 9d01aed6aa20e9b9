import SceneScript.Picture.Bitmap
import SceneScript.Png.Chunk
/-!
# Writing PNG files

Pictures are written with eight bits for each of four channels, without filters and without
compression.
-/

namespace SceneScript

namespace Png

/-! ## Compressed data -/

/-- The Adler-32 of compressed data: two sums modulo a prime. -/
def adler (bytes : ByteArray) : UInt32 :=
  let (sum, sums) := bytes.foldl (fun (sum, sums) byte =>
    let sum := (sum + byte.toUInt32) % 65521
    (sum, (sums + sum) % 65521)) ((1, 0) : UInt32 × UInt32)
  (sums <<< 16) ||| sum

/-- The greatest length of a stored block. -/
def blockSize : Nat := 65535

/-- Stored blocks; the last one is marked. -/
def storedBlocks (bytes : ByteArray) (offset : Nat) : ByteArray :=
  let length := min blockSize (bytes.size - offset)
  let last := bytes.size ≤ offset + blockSize
  let low : UInt8 := .ofNat length
  let high : UInt8 := .ofNat (length / 256)
  let block := (⟨#[if last then 1 else 0, low, high, ~~~low, ~~~high]⟩ : ByteArray)
    ++ bytes.extract offset (offset + length)
  if bytes.size ≤ offset + blockSize then block
  else block ++ storedBlocks bytes (offset + blockSize)
termination_by bytes.size - offset
decreasing_by simp only [blockSize] at *; omega

/-- Data in the zlib format, stored as they are. -/
def stored (bytes : ByteArray) : ByteArray :=
  (⟨#[0x78, 0x01]⟩ : ByteArray) ++ storedBlocks bytes 0 ++ word (adler bytes)

/-! ## Pictures -/

def pushColor (bytes : ByteArray) (color : Color) : ByteArray :=
  (((bytes.push color.red).push color.green).push color.blue).push color.alpha

/-- The rows of a picture, each behind the number of no filter. -/
def scanlines (image : Bitmap) : ByteArray :=
  let width := image.width.toNat
  (List.range image.height.toNat).foldl (fun bytes row =>
    (image.pixels.extract (row * width) ((row + 1) * width)).foldl pushColor (bytes.push 0)) .empty

/-- Sizes, eight bits a channel, colour with alpha, and the only methods there are. -/
def header (image : Bitmap) : ByteArray :=
  word image.width ++ word image.height ++ ⟨#[8, 6, 0, 0, 0]⟩

def encode (image : Bitmap) : ByteArray :=
  let chunks := [Chunk.ofData "IHDR" (header image), .ofData "IDAT" (stored (scanlines image)),
    .ofData "IEND" .empty]
  chunks.foldl (fun bytes chunk => bytes ++ chunk.toBytes) signature

end Png
end SceneScript
