import SceneScript.Png.Huffman
/-!
# Inflating

Compressed data are a sequence of blocks: stored bytes, or literals and references to earlier
output in a fixed or a transmitted code. As soon as there is enough output, reading goes on only
where it brings no more: over the ends and the heads of blocks, up to the end of the piece. The data
may be cut off there, but not be damaged.
-/

namespace SceneScript

namespace Inflate

/-- Reads from the bits, or fails. -/
abbrev Parser := StateT BitSource (Except BitFault)

def number (bits : Nat) : Parser Nat := fun source => source.number bits

def symbol (code : Huffman) : Parser Nat := fun source => code.decode source

/-- Fails if there is no value. -/
def present {α : Type} : Option α → Parser α
  | some value => pure value
  | none => throw .damaged

/-- Fails unless so many bits are left. -/
def require (bits : Nat) : Parser Unit := do
  if (← get).left < bits then throw .ended

/-! ## References -/

/-- The base of each length symbol from 257 on, and its extra bits. -/
def lengthCodes : Array (Nat × Nat) :=
  #[(3, 0), (4, 0), (5, 0), (6, 0), (7, 0), (8, 0), (9, 0), (10, 0), (11, 1), (13, 1), (15, 1),
    (17, 1), (19, 2), (23, 2), (27, 2), (31, 2), (35, 3), (43, 3), (51, 3), (59, 3), (67, 4),
    (83, 4), (99, 4), (115, 4), (131, 5), (163, 5), (195, 5), (227, 5), (258, 0)]

/-- The base of each distance symbol, and its extra bits. -/
def distanceCodes : Array (Nat × Nat) :=
  #[(1, 0), (2, 0), (3, 0), (4, 0), (5, 1), (7, 1), (9, 2), (13, 2), (17, 3), (25, 3), (33, 4),
    (49, 4), (65, 5), (97, 5), (129, 6), (193, 6), (257, 7), (385, 7), (513, 8), (769, 8),
    (1025, 9), (1537, 9), (2049, 10), (3073, 10), (4097, 11), (6145, 11), (8193, 12), (12289, 12),
    (16385, 13), (24577, 13)]

def extended (codes : Array (Nat × Nat)) (symbol : Nat) : Parser Nat := do
  let (base, bits) ← present codes[symbol]?
  return base + (← number bits)

/-- Repeats bytes from so far back; the source may overlap what is written. -/
def copy (distance : Nat) : Nat → ByteArray → Option ByteArray
  | 0, output => some output
  | length + 1, output =>
    if distance ≤ output.size then
      output[output.size - distance]?.bind fun byte => copy distance length (output.push byte)
    else none

/-! ## Blocks -/

/-- What a symbol of a block adds; `none` is the end of the block. -/
def item (literals distances : Huffman) (output : ByteArray) : Parser (Option ByteArray) := do
  let literal ← symbol literals
  if literal < 256 then return some (output.push (.ofNat literal))
  else if literal = 256 then return none
  else
    let length ← extended lengthCodes (literal - 257)
    let distance ← extended distanceCodes (← symbol distances)
    return some (← present (copy distance length output))

/-- What is behind the block if its end comes next. That is looked for only if the longest word
would still fit. -/
def endOfBlock? (literals : Huffman) (source : BitSource) : Option BitSource :=
  let source := source.withinPiece
  if source.left < Huffman.maxLength then none
  else
    match literals.decode source with
    | .ok (256, rest) => some rest
    | _ => none

/-- The symbols up to the end of a block, or to `size` bytes of output, with what is behind the
block if its end was reached. Each symbol takes at least one bit. -/
def items (size : Nat) (literals distances : Huffman) (output : ByteArray) (source : BitSource) :
    Except BitFault (ByteArray × Option BitSource) :=
  if size ≤ output.size then
    .ok (output, if output.size = size then endOfBlock? literals source else none)
  else
    match item literals distances output source with
    | .error fault => .error fault
    | .ok (none, rest) => .ok (output, some rest)
    | .ok (some output, rest) =>
      if rest.left < source.left then items size literals distances output rest
      else .error .damaged
termination_by source.left

/-- So many bytes, as far as `size` bytes of output, with what is behind them if all were read. -/
def storedBytes (size : Nat) : Nat → ByteArray → BitSource →
    Except BitFault (ByteArray × Option BitSource)
  | 0, output, source => .ok (output, some source)
  | count + 1, output, source =>
    if size ≤ output.size then .ok (output, none)
    else do
      let (byte, source) ← source.number 8
      storedBytes size count (output.push (.ofNat byte)) source

/-- The length of a stored block, which is followed by its complement. -/
def storedLength : Parser Nat := do
  modify BitSource.align
  let length ← number 16
  let complement ← number 16
  if length + complement = 65535 then return length else throw .damaged

def fixedLiterals : Huffman :=
  .ofLengths (.replicate 144 8 ++ .replicate 112 9 ++ .replicate 24 7 ++ .replicate 8 8)

def fixedDistances : Huffman := .ofLengths (.replicate 30 5)

/-- The order in which the lengths of the code for lengths are transmitted. -/
def lengthOrder : List Nat := [16, 17, 18, 0, 8, 7, 9, 6, 10, 5, 11, 4, 12, 3, 13, 2, 14, 1, 15]

def transmitted : Nat → Parser (List Nat)
  | 0 => pure []
  | count + 1 => do return (← number 3) :: (← transmitted count)

/-- The longest word of the code for lengths. -/
def maxLengthWord : Nat := 7

/-- Lengths in their own code, latest first: a length, or a repeat of the last one or of zero. -/
def lengths (code : Huffman) (count : Nat) (read : List Nat) : Nat → Parser (List Nat)
  | 0 => throw .damaged
  | steps + 1 => do
    if count < read.length then throw .damaged
    if count = read.length then return read
    require maxLengthWord
    let more ← match ← symbol code with
      | 16 => do
        let repeats ← number 2
        pure (List.replicate (3 + repeats) (← present read.head?))
      | 17 => do pure (List.replicate (3 + (← number 3)) 0)
      | 18 => do pure (List.replicate (11 + (← number 7)) 0)
      | length => pure [length]
    lengths code count (more ++ read) steps

/-- The code for distances. A block without references needs no word, and one with a single
distance has a word of one bit for it. -/
def distanceCode? (lengths : List Nat) : Option Huffman :=
  if (lengths.filter (· != 0)).all (· == 1) && lengths.count 1 ≤ 1 then
    some (Huffman.ofLengths lengths)
  else Huffman.complete? lengths

/-- The codes for literals and distances at the head of a block. The end of the block has a word,
and there are no more symbols than have a meaning. -/
def codes : Parser (Huffman × Huffman) := do
  let literals := 257 + (← number 5)
  let distances := 1 + (← number 5)
  let sentCount := 4 + (← number 4)
  if 257 + lengthCodes.size < literals ∨ distanceCodes.size < distances then throw .damaged
  let sent ← transmitted sentCount
  let order := lengthOrder.zip sent
  let forLengths := (List.range 19).map fun symbol => (order.lookup symbol).getD 0
  let count := literals + distances
  let code ← present (Huffman.complete? forLengths)
  let all := (← lengths code count [] (count + 1)).reverse
  let forLiterals := all.take literals
  if forLiterals[256]? = some 0 then throw .damaged
  return (← present (Huffman.complete? forLiterals),
    ← present (distanceCode? (all.drop literals)))

/-- The fewest bits of a block: its head, and the word for its end in the fixed code. -/
def leastBlock : Nat := 10

/-- One block, with what is behind it if another one follows. -/
def block (size : Nat) (output : ByteArray) (source : BitSource) :
    Except BitFault (ByteArray × Option BitSource) := do
  let ((last, kind), source) ← (do
    require leastBlock
    return (← number 1, ← number 2) : Parser (Nat × Nat)) source
  let (output, rest) ← match kind with
    | 0 => do
      let (length, source) ← storedLength source
      storedBytes size length output source
    | 1 => items size fixedLiterals fixedDistances output source
    | 2 => do
      let ((literals, distances), source) ← codes source
      items size literals distances output source
    | _ => .error .damaged
  return (output, if last = 1 then none else rest)

/-- All blocks, or those up to `size` bytes of output. Each of them takes at least three bits. -/
def blocks (size : Nat) (output : ByteArray) (source : BitSource) : Except BitFault ByteArray :=
  let isEnough := size ≤ output.size
  match block size output (if isEnough then source.withinPiece else source) with
  | .error fault => if isEnough ∧ fault = .ended then .ok output else .error fault
  | .ok (output, none) => .ok output
  | .ok (output, some rest) =>
    if rest.left < source.left then blocks size output rest else .error .damaged
termination_by source.left

end Inflate

/-- The data of a stream, as far as `size` bytes: a header of two bytes, blocks, and a checksum,
which is left unread. -/
def inflate (pieces : List ByteArray) (size : Nat) : Except BitFault ByteArray := do
  let source := BitSource.ofPieces pieces
  let (method, source) ← source.number 8
  let (flags, source) ← source.number 8
  if method % 16 = 8 ∧ method < 128 ∧ (method * 256 + flags) % 31 = 0 ∧ !flags.testBit 5 then
    Inflate.blocks size .empty source
  else throw .damaged

end SceneScript
