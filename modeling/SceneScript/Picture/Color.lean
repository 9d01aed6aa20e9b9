/-!
# Colours

Four channels of eight bits. Products of two channels are rounded to the nearest eight-bit value.
-/

namespace SceneScript

structure Color where
  red : UInt8
  green : UInt8
  blue : UInt8
  alpha : UInt8
  deriving DecidableEq, Repr, Inhabited

namespace Color

def black : Color := ⟨0, 0, 0, 255⟩
def white : Color := ⟨255, 255, 255, 255⟩

/-- The product of two channels as parts of 255. -/
def scale (x y : UInt8) : UInt8 := .ofNat ((x.toNat * y.toNat + 127) / 255)

/-- The sum of two channels, at most 255. -/
def saturate (x y : UInt8) : UInt8 := .ofNat (min (x.toNat + y.toNat) 255)

def withOpacity (color : Color) (opacity : UInt8) : Color :=
  { color with alpha := scale color.alpha opacity }

/-- A colour painted over another one. -/
def blend (below above : Color) (opacity : UInt8) : Color :=
  let alpha := scale above.alpha opacity
  if alpha = 0 then below
  else
    let rest := 255 - alpha
    ⟨saturate (scale above.red alpha) (scale below.red rest),
      saturate (scale above.green alpha) (scale below.green rest),
      saturate (scale above.blue alpha) (scale below.blue rest),
      saturate alpha (scale below.alpha rest)⟩

/-- The value of a digit in base sixteen, in either case. -/
def hexValue? (c : Char) : Option Nat :=
  if '0' ≤ c && c ≤ '9' then some (c.toNat - '0'.toNat)
  else if 'a' ≤ c && c ≤ 'f' then some (c.toNat - 'a'.toNat + 10)
  else if 'A' ≤ c && c ≤ 'F' then some (c.toNat - 'A'.toNat + 10)
  else none

/-- A channel from two characters: two digits, or a plus sign and a digit. -/
def channel? (high low : Char) : Option UInt8 := do
  let low ← hexValue? low
  if high = '+' then return .ofNat low
  return .ofNat (16 * (← hexValue? high) + low)

/-- The colour of `rrggbb`, with or without a leading `#`. Any other text means black. -/
def ofHex (text : String) : Color :=
  let digits := match text.toList with
    | '#' :: digits => digits
    | digits => digits
  match digits with
  | [r₁, r₀, g₁, g₀, b₁, b₀] =>
    match channel? r₁ r₀, channel? g₁ g₀, channel? b₁ b₀ with
    | some red, some green, some blue => ⟨red, green, blue, 255⟩
    | _, _, _ => black
  | _ => black

end Color
end SceneScript
