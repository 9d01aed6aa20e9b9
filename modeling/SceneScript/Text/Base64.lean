/-!
# Base64

Three bytes are written as four symbols. A text that ends within a group is padded with `=`, and the
bits of the last symbol that stand for nothing are zero.
-/

namespace SceneScript

namespace Base64

/-! ## Symbols -/

/-- The symbol of six bits. -/
def symbol (value : Nat) : Char :=
  if value < 26 then Char.ofNat ('A'.toNat + value)
  else if value < 52 then Char.ofNat ('a'.toNat + (value - 26))
  else if value < 62 then Char.ofNat ('0'.toNat + (value - 52))
  else if value = 62 then '+' else '/'

/-- The six bits of a symbol, given as a byte. -/
def value? (byte : UInt8) : Option Nat :=
  let code := byte.toNat
  if 65 ≤ code ∧ code ≤ 90 then some (code - 65)
  else if 97 ≤ code ∧ code ≤ 122 then some (code - 97 + 26)
  else if 48 ≤ code ∧ code ≤ 57 then some (code - 48 + 52)
  else if code = 43 then some 62
  else if code = 47 then some 63
  else none

/-- The byte of the padding `=`. -/
def padding : UInt8 := 61

/-! ## Writing -/

def encode : List UInt8 → List Char
  | [] => []
  | [a] => [symbol (a.toNat / 4), symbol (a.toNat % 4 * 16), '=', '=']
  | [a, b] =>
    [symbol (a.toNat / 4), symbol (a.toNat % 4 * 16 + b.toNat / 16),
      symbol (b.toNat % 16 * 4), '=']
  | a :: b :: c :: rest =>
    symbol (a.toNat / 4) :: symbol (a.toNat % 4 * 16 + b.toNat / 16)
      :: symbol (b.toNat % 16 * 4 + c.toNat / 64) :: symbol (c.toNat % 64) :: encode rest

/-! ## Reading -/

inductive DecodeError where
  | invalidSymbol (byte : UInt8) (offset : Nat)
  | invalidLastSymbol (byte : UInt8) (offset : Nat)
  | invalidLength (length : Nat)
  | invalidPadding
  deriving DecidableEq, Repr, Inhabited

def DecodeError.message : DecodeError → String
  | invalidSymbol byte offset => s!"Invalid symbol {byte.toNat}, offset {offset}."
  | invalidLastSymbol byte offset => s!"Invalid last symbol {byte.toNat}, offset {offset}."
  | invalidLength length => s!"Invalid input length: {length}"
  | invalidPadding => "Invalid padding"

/-- The six bits of the symbol at an offset. -/
def valueAt (byte : UInt8) (offset : Nat) : Except DecodeError Nat :=
  match value? byte with
  | some value => .ok value
  | none => .error (.invalidSymbol byte offset)

/-- The symbols of the last group before its padding. Padding starts at the third place at the
earliest, and no symbol follows it. -/
def lastSymbols (offset : Nat) : List UInt8 → Nat → Except DecodeError (List Nat)
  | [], _ => .ok []
  | byte :: rest, place =>
    if byte = padding then
      if place < 2 then .error (.invalidSymbol byte (offset + place))
      else if rest.all (· == padding) then .ok []
      else .error (.invalidSymbol padding (offset + place))
    else do
      let value ← valueAt byte (offset + place)
      return value :: (← lastSymbols offset rest (place + 1))

/-- The last group: it holds two symbols at least, padding fills it up, and no bit is left over. -/
def decodeLast (offset : Nat) (group : List UInt8) : Except DecodeError (List UInt8) := do
  let symbols ← lastSymbols offset group 0
  let lastSymbol := group.getD (symbols.length - 1) 0
  if symbols.length < 2 then throw (.invalidLength (offset + symbols.length))
  if group.length ≠ 4 then throw .invalidPadding
  match symbols with
  | [a, b] =>
    if b % 16 ≠ 0 then throw (.invalidLastSymbol lastSymbol (offset + 1))
    return [.ofNat (a * 4 + b / 16)]
  | [a, b, c] =>
    if c % 4 ≠ 0 then throw (.invalidLastSymbol lastSymbol (offset + 2))
    return [.ofNat (a * 4 + b / 16), .ofNat (b % 16 * 16 + c / 4)]
  | [a, b, c, d] =>
    return [.ofNat (a * 4 + b / 16), .ofNat (b % 16 * 16 + c / 4), .ofNat (c % 4 * 64 + d)]
  | _ => return []

/-- All groups; padding may stand in the last one only. -/
def decodeGroups (offset : Nat) : List UInt8 → Except DecodeError (List UInt8)
  | a :: b :: c :: d :: e :: rest => do
    let first ← valueAt a offset
    let second ← valueAt b (offset + 1)
    let third ← valueAt c (offset + 2)
    let fourth ← valueAt d (offset + 3)
    let bytes ← decodeGroups (offset + 4) (e :: rest)
    return .ofNat (first * 4 + second / 16) :: .ofNat (second % 16 * 16 + third / 4)
      :: .ofNat (third % 4 * 64 + fourth) :: bytes
  | group => decodeLast offset group

/-- A single byte behind the last full group that is no symbol, such as a line break, is reported
before anything else. -/
def decode (text : List UInt8) : Except DecodeError (List UInt8) :=
  match text.getLast? with
  | none => .ok []
  | some last =>
    if text.length % 4 = 1 ∧ last ≠ padding ∧ value? last = none then
      .error (.invalidSymbol last (text.length - 1))
    else decodeGroups 0 text

end Base64
end SceneScript
