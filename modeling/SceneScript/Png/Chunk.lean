/-!
# Chunks of PNG files

A file is a signature and a sequence of chunks. A chunk has a length, a type of four letters, data,
and a checksum of type and data.
-/

namespace SceneScript

namespace Png

def signature : ByteArray := ⟨#[0x89, 0x50, 0x4E, 0x47, 0x0D, 0x0A, 0x1A, 0x0A]⟩

/-- A number as four bytes, the highest one first. -/
def word (value : UInt32) : ByteArray :=
  ⟨#[(value >>> 24).toUInt8, (value >>> 16).toUInt8, (value >>> 8).toUInt8, value.toUInt8]⟩

/-- The number of four bytes. -/
def wordAt? (bytes : ByteArray) (offset : Nat) : Option Nat := do
  let a ← bytes[offset]?
  let b ← bytes[offset + 1]?
  let c ← bytes[offset + 2]?
  let d ← bytes[offset + 3]?
  return ((a.toNat * 256 + b.toNat) * 256 + c.toNat) * 256 + d.toNat

/-! ## Checksums -/

/-- One bit of the division by the polynomial of CRC-32. -/
def checksumBit (rest : UInt32) : UInt32 :=
  if rest &&& 1 = 1 then (rest >>> 1) ^^^ 0xEDB88320 else rest >>> 1

def checksumByte (rest : UInt32) (byte : UInt8) : UInt32 :=
  (List.range 8).foldl (fun rest _ => checksumBit rest) (rest ^^^ byte.toUInt32)

/-- The CRC-32 of bytes. -/
def checksum (bytes : ByteArray) : UInt32 := bytes.foldl checksumByte 0xFFFFFFFF ^^^ 0xFFFFFFFF

/-! ## Chunks -/

/-- A chunk with the checksum that it came with. -/
structure Chunk where
  type : List UInt8
  data : ByteArray
  checksum : UInt32

/-- The type of a chunk from the letters of its name. -/
def typeOf (name : String) : List UInt8 := name.toList.map fun c => .ofNat c.toNat

namespace Chunk

/-- A checksum covers the type and the data. -/
def covered (type : List UInt8) (data : ByteArray) : ByteArray := ⟨type.toArray⟩ ++ data

def ofData (name : String) (data : ByteArray) : Chunk :=
  ⟨typeOf name, data, Png.checksum (covered (typeOf name) data)⟩

def toBytes (chunk : Chunk) : ByteArray :=
  word (.ofNat chunk.data.size) ++ covered chunk.type chunk.data ++ word chunk.checksum

def isIntact (chunk : Chunk) : Bool :=
  Png.checksum (covered chunk.type chunk.data) = chunk.checksum

/-- The chunk must be understood, and its first letter is a capital. -/
def isCritical (chunk : Chunk) : Bool := chunk.type.head?.all fun letter => !letter.toNat.testBit 5

/-- The chunk holds data of the picture. -/
def isPictureData (chunk : Chunk) : Bool := chunk.type = typeOf "IDAT"

/-- The chunk holds data of a frame. -/
def isFrameData (chunk : Chunk) : Bool := chunk.type = typeOf "fdAT"

end Chunk

/-- The type of the chunk that begins at an offset. -/
def typeAt? (bytes : ByteArray) (offset : Nat) : Option (List UInt8) :=
  if offset + 8 ≤ bytes.size then some (bytes.extract (offset + 4) (offset + 8)).toList else none

/-- The chunks from an offset on, as far as they are complete, and the offset behind them. A chunk
takes twelve bytes besides its data. -/
def chunksFrom (bytes : ByteArray) (offset : Nat) : List Chunk × Nat :=
  match wordAt? bytes offset with
  | none => ([], offset)
  | some length =>
    let next := offset + length + 12
    if next ≤ bytes.size then
      let chunk := ⟨(bytes.extract (offset + 4) (offset + 8)).toList,
        bytes.extract (offset + 8) (next - 4), .ofNat ((wordAt? bytes (next - 4)).getD 0)⟩
      let (chunks, finish) := chunksFrom bytes next
      (chunk :: chunks, finish)
    else ([], offset)
termination_by bytes.size - offset

end Png
end SceneScript
