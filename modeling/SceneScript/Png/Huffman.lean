import SceneScript.Png.Bits
/-!
# Huffman codes

A code is a tree of bits. It is given by the lengths of its words: words of one length are numbered
in the order of their symbols, and shorter words come first.
-/

namespace SceneScript

inductive Huffman where
  | empty
  | leaf (symbol : Nat)
  | node (zero one : Huffman)
  deriving Inhabited

namespace Huffman

/-- Adds a word, given from its first bit on. -/
def insert (symbol : Nat) : List Bool → Huffman → Huffman
  | [], _ => leaf symbol
  | false :: word, node zero one => node (insert symbol word zero) one
  | true :: word, node zero one => node zero (insert symbol word one)
  | false :: word, _ => node (insert symbol word empty) empty
  | true :: word, _ => node empty (insert symbol word empty)

/-- The bits of a word, the highest one first. -/
def bitsOf (value : Nat) : Nat → List Bool
  | 0 => []
  | length + 1 => value.testBit length :: bitsOf value length

/-- Gives consecutive words of one length to symbols. -/
def addWords (length : Nat) (symbols : List Nat) (state : Huffman × Nat) : Huffman × Nat :=
  symbols.foldl (fun (tree, word) symbol =>
    (tree.insert symbol (bitsOf word length), word + 1)) state

/-- The longest word that a code may have. -/
def maxLength : Nat := 15

/-- The code with these lengths of the words of the symbols `0`, `1`, …; length zero means that a
symbol has no word. -/
def ofLengths (lengths : List Nat) : Huffman :=
  ((List.range' 1 maxLength).foldl (fun (tree, word) length =>
    addWords length ((lengths.zipIdx.filter (·.1 == length)).map (·.2)) (tree, 2 * word))
    (empty, 0)).1

/-- The code with these lengths, provided that every sequence of bits begins with one of its
words. -/
def complete? (lengths : List Nat) : Option Huffman :=
  let used := (lengths.filter (· != 0)).foldl (fun used length =>
    used + 1 <<< (maxLength - length)) 0
  if used = 1 <<< maxLength then some (ofLengths lengths) else none

/-- The symbol of the next word. -/
def decode : Huffman → BitSource → Except BitFault (Nat × BitSource)
  | leaf symbol, source => .ok (symbol, source)
  | empty, _ => .error .damaged
  | node zero one, source =>
    match source.bit with
    | .ok (false, rest) => zero.decode rest
    | .ok (true, rest) => one.decode rest
    | .error fault => .error fault

end Huffman
end SceneScript
