/-!
# Bits of a byte sequence

Bits are read from the lowest bit of each byte up. The bytes come in pieces, whose ends are kept.
-/

namespace SceneScript

/-- Why bits cannot be read: they run out, or have no meaning. -/
inductive BitFault where
  | ended | damaged
  deriving DecidableEq, Repr, Inhabited

structure BitSource where
  bytes : ByteArray
  /-- The offsets at which the pieces end. -/
  ends : List Nat := []
  position : Nat := 0

namespace BitSource

def ofPieces (pieces : List ByteArray) : BitSource :=
  let (bytes, ends) := pieces.foldl (fun (bytes, ends) piece =>
    (bytes ++ piece, (bytes.size + piece.size) :: ends)) (.empty, [])
  { bytes, ends := ends.reverse }

/-- The bits that are left. -/
def left (source : BitSource) : Nat := source.bytes.size * 8 - source.position

/-- The source without the pieces behind the one in which reading has come to rest. -/
def withinPiece (source : BitSource) : BitSource :=
  match source.ends.find? fun finish => source.position ≤ finish * 8 with
  | some finish => { source with bytes := source.bytes.extract 0 finish }
  | none => source

def bit (source : BitSource) : Except BitFault (Bool × BitSource) :=
  match source.bytes[source.position / 8]? with
  | some byte => .ok ((byte.toNat >>> (source.position % 8)) % 2 == 1,
      { source with position := source.position + 1 })
  | none => .error .ended

/-- A number of so many bits, the lowest one first. -/
def number : Nat → BitSource → Except BitFault (Nat × BitSource)
  | 0, source => .ok (0, source)
  | count + 1, source => do
    let (low, source) ← source.bit
    let (high, source) ← number count source
    return (2 * high + low.toNat, source)

/-- Skips to the start of a byte. -/
def align (source : BitSource) : BitSource :=
  { source with position := (source.position + 7) / 8 * 8 }

end BitSource
end SceneScript
