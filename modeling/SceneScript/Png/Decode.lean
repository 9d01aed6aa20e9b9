import SceneScript.Png.Inflate
import SceneScript.Png.Preamble
import SceneScript.Picture.Bitmap
/-!
# Reading PNG files

Files with eight bits a channel and without interlacing are read, with all five kinds of pixels and
with transparency. Nothing behind the image data matters.
-/

namespace SceneScript

namespace Png

/-! ## Filters -/

/-- Of left, upper and upper left neighbour the one nearest to left + upper - upper left. -/
def paeth (left up corner : UInt8) : UInt8 :=
  let target : Int := left.toNat + up.toNat - corner.toNat
  let toLeft := (target - left.toNat).natAbs
  let toUp := (target - up.toNat).natAbs
  let toCorner := (target - corner.toNat).natAbs
  if toLeft ≤ toUp ∧ toLeft ≤ toCorner then left
  else if toUp ≤ toCorner then up
  else corner

/-- What a filter adds to a byte, given its neighbours. -/
def prediction (filter : Nat) (left up corner : UInt8) : UInt8 :=
  match filter with
  | 0 => 0
  | 1 => left
  | 2 => up
  | 3 => .ofNat ((left.toNat + up.toNat) / 2)
  | _ => paeth left up corner

/-- Restores a row from its filtered bytes and the row above. -/
def unfilterRow (filter size : Nat) (above : Array UInt8) (row : List UInt8) : Array UInt8 :=
  row.foldl (fun done byte =>
    let place := done.size
    let left := if size ≤ place then done.getD (place - size) 0 else 0
    let corner := if size ≤ place then above.getD (place - size) 0 else 0
    done.push (byte + prediction filter left (above.getD place 0) corner)) #[]

/-- So many rows of `length` bytes from an offset on, each behind the number of its filter. -/
def rows (data : ByteArray) (size length : Nat) :
    Nat → Nat → Array UInt8 → Option (List (Array UInt8))
  | 0, _, _ => some []
  | count + 1, offset, above => do
    let filter ← data[offset]?
    let finish := offset + 1 + length
    if filter.toNat ≤ 4 ∧ finish ≤ data.size then
      let row := unfilterRow filter.toNat size above (data.extract (offset + 1) finish).toList
      return row :: (← rows data size length count finish row)
    else none

/-! ## Pixels -/

/-- The alpha of a colour, given the transparent one. -/
def keyedAlpha (transparent : Option (List UInt8)) (channels : List UInt8) : UInt8 :=
  if transparent = some channels then 0 else 255

def greyPixels (transparent : Option (List UInt8)) (row : List UInt8) : List Color :=
  row.map fun v => ⟨v, v, v, keyedAlpha transparent [v]⟩

def rgbPixels (transparent : Option (List UInt8)) : List UInt8 → List Color
  | r :: g :: b :: rest =>
    ⟨r, g, b, keyedAlpha transparent [r, g, b]⟩ :: rgbPixels transparent rest
  | _ => []

def greyAlphaPixels : List UInt8 → List Color
  | v :: a :: rest => ⟨v, v, v, a⟩ :: greyAlphaPixels rest
  | _ => []

def rgbaPixels : List UInt8 → List Color
  | r :: g :: b :: a :: rest => ⟨r, g, b, a⟩ :: rgbaPixels rest
  | _ => []

def paletteColors : List UInt8 → List UInt8 → List Color
  | r :: g :: b :: rest, alphas => ⟨r, g, b, alphas.headD 255⟩ :: paletteColors rest alphas.tail
  | _, _ => []

/-- The colours of a palette. Those without an alpha are opaque, and so are all if there are more
alphas than colours. -/
def paletteOf (palette : ByteArray) (transparency : Option ByteArray) : Array Color :=
  let alphas := (transparency.getD .empty).toList
  (paletteColors palette.toList (if alphas.length ≤ palette.size / 3 then alphas else [])).toArray

/-- How to read the colours of a row. A number that is not in the palette means black. -/
def pixels? (preamble : Preamble) : Option (List UInt8 → List Color) :=
  match preamble.header.kind with
  | .grey => some (greyPixels preamble.transparentColor?)
  | .rgb => some (rgbPixels preamble.transparentColor?)
  | .palette => preamble.palette.map fun palette =>
    let colors := paletteOf palette preamble.transparency
    fun row => row.map fun number => colors.getD number.toNat .black
  | .greyAlpha => some greyAlphaPixels
  | .rgba => some rgbaPixels

/-! ## Files -/

/-- The picture of a preamble and the pieces of the image data. -/
def picture? (preamble : Preamble) (pieces : List ByteArray) : Option Bitmap := do
  let header := preamble.header
  let pixels ← pixels? preamble
  let data ← (inflate pieces header.dataSize).toOption
  let rows ← rows data header.kind.size header.rowSize header.height.toNat 0 #[]
  let colors := (rows.flatMap fun row => pixels row.toList).toArray
  if h : colors.size = header.width.toNat * header.height.toNat then
    some ⟨header.width, header.height, colors, h⟩
  else none

/-- The picture in a file, unless the bytes are none. The chunks of the image data stand side by
side, and it takes the beginning of another chunk to end them. -/
def decode? (bytes : ByteArray) : Option Bitmap :=
  if (bytes.extract 0 signature.size).toList = signature.toList then
    let (chunks, finish) := chunksFrom bytes signature.size
    let (head, rest) := chunks.span fun chunk => !chunk.isPictureData && !chunk.isFrameData
    match rest with
    | [] => none
    | first :: rest =>
      let (image, rest) := rest.span fun chunk => chunk.type = first.type
      let ended := !rest.isEmpty || (typeAt? bytes finish).any fun type => type ≠ first.type
      if ended then do
        let preamble ← Preamble.ofChunks? head
        picture? preamble (← preamble.pieces? (first :: image))
      else none
  else none

end Png
end SceneScript
