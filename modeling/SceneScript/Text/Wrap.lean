import SceneScript.Picture.Font
/-!
# Wrapping text

A line break in the text starts a new paragraph. Within a paragraph each line takes words as long as
they fit; a word that fits on no line has one to itself.
-/

namespace SceneScript

namespace Wrap

/-- The parts of a text between the occurrences of a character. -/
def split (separator : Char) : List Char → List (List Char)
  | [] => [[]]
  | c :: rest =>
    if c = separator then [] :: split separator rest
    else
      match split separator rest with
      | [] => [[c]]
      | part :: parts => (c :: part) :: parts

/-- The words of a paragraph; only blanks proper separate words. -/
def words (paragraph : List Char) : List String :=
  ((split ' ' paragraph).filter fun part => !part.isEmpty).map String.ofList

/-- The word still goes on the line. -/
def fits (font : Font) (budget : UInt32) (line word : String) : Bool :=
  font.measure line + font.measure " " + font.measure word ≤ budget

/-- Continues a line with words, and starts new lines where they do not fit. -/
def fill (font : Font) (budget : UInt32) : String → List String → List String
  | line, [] => [line]
  | line, word :: rest =>
    if fits font budget line word then fill font budget (line ++ " " ++ word) rest
    else line :: fill font budget word rest

/-- The lines of a paragraph. Without words it is one empty line. -/
def paragraphLines (font : Font) (budget : UInt32) (paragraph : List Char) : List String :=
  match words paragraph with
  | [] => [""]
  | word :: rest => fill font budget word rest

/-- The lines of a text. -/
def lines (font : Font) (budget : UInt32) (text : String) : List String :=
  (split '\n' text.toList).flatMap (paragraphLines font budget)

end Wrap
end SceneScript
