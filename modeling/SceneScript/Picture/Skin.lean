import SceneScript.Asset.Catalogue
/-!
# Skins

A skin is cut into nine parts: the corners keep their size, and the bands between them stretch.
-/

namespace SceneScript

namespace Skin

/-- The side of a corner. -/
def corner : UInt32 := 5

/-- The width of the band between two corners. -/
def band : UInt32 := skinSize - 2 * corner

/-- The three parts of a side of the skin, each with its start and its length. -/
def sourceSpans : List (Int32 × UInt32) :=
  [(0, corner), (corner.toInt32, band), ((corner + band).toInt32, corner)]

/-- The same parts on a side of the box. A side shorter than two corners has no band. -/
def targetSpans (start finish : Int32) (length : UInt32) : List (Int32 × UInt32) :=
  [(start, min corner length),
    (start + corner.toInt32, if 2 * corner ≤ length then length - 2 * corner else 0),
    (finish - corner.toInt32, min corner length)]

/-- The parts of the skin and where they go on the box, row by row. -/
def slices (box : Rect) : List (Rect × Rect) :=
  (sourceSpans.zip (targetSpans box.y box.bottom box.height)).flatMap fun (source, target) =>
    (sourceSpans.zip (targetSpans box.x box.right box.width)).map fun (source', target') =>
      (⟨source'.1, source.1, source'.2, source.2⟩, ⟨target'.1, target.1, target'.2, target.2⟩)

end Skin
end SceneScript
