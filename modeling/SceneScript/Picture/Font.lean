import SceneScript.Text.Blank
/-!
# Fonts

All that layout asks of a font is how wide a text is, how high a line is, and what a character looks
like.
-/

namespace SceneScript

/-- The picture of a character, row by row; `offsetY` is its distance from the top of the line. -/
structure Glyph where
  width : UInt32
  height : UInt32
  offsetY : Int32
  bits : Array Bool
  deriving DecidableEq, Repr, Inhabited

namespace Glyph

def solid (width height : UInt32) (offsetY : Int32) : Glyph :=
  ⟨width, height, offsetY, .replicate (width.toNat * height.toNat) true⟩

def covers (glyph : Glyph) (x y : Nat) : Bool :=
  x < glyph.width.toNat && y < glyph.height.toNat &&
    glyph.bits.getD (y * glyph.width.toNat + x) false

end Glyph

structure Font where
  measure : String → UInt32
  lineHeight : UInt32
  glyph? : Char → Option Glyph

namespace Font

/-- All characters are blocks of one size, and blanks are empty. -/
def blocks (advance lineHeight : UInt32) : Font where
  measure text := .ofNat text.length * advance
  lineHeight := lineHeight
  glyph? c :=
    if isBlank c then none
    else
      some (.solid (.ofNat (max (advance.toNat - 1) 1)) (.ofNat (max (lineHeight.toNat - 4) 1)) 2)

def default : Font := blocks 6 12

instance : Inhabited Font := ⟨default⟩

end Font
end SceneScript
