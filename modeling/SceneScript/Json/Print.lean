import SceneScript.Json.Basic
/-!
# Printing JSON

Two layouts of one tree: without any blanks, and with one item a line and an indentation of two
blanks a level. Only quotes, backslashes and control characters are escaped.
-/

namespace SceneScript

/-- A digit of a number in base sixteen, in lower case. -/
def hexDigit (value : Nat) : Char :=
  if value < 10 then Char.ofNat ('0'.toNat + value) else Char.ofNat ('a'.toNat + (value - 10))

namespace Json

/-- One character inside a string literal. -/
def escape (c : Char) : List Char :=
  if c == '"' then ['\\', '"']
  else if c == '\\' then ['\\', '\\']
  else if c == '\x08' then ['\\', 'b']
  else if c == '\x0c' then ['\\', 'f']
  else if c == '\n' then ['\\', 'n']
  else if c == '\r' then ['\\', 'r']
  else if c == '\t' then ['\\', 't']
  else if c < ' ' then ['\\', 'u', '0', '0', hexDigit (c.toNat / 16), hexDigit (c.toNat % 16)]
  else [c]

def quote (text : String) : List Char := '"' :: text.toList.flatMap escape ++ ['"']

def numeral : Numeral → List Char
  | .integer value => (toString value).toList
  | .decimal negative mantissa exponent =>
    (if negative then ['-'] else []) ++ (toString mantissa).toList
      ++ 'e' :: (toString exponent).toList

mutual

def compactChars : Json → List Char
  | .null | .unreadable => "null".toList
  | .bool true => "true".toList
  | .bool false => "false".toList
  | .num value => numeral value
  | .str value => quote value
  | .arr [] => "[]".toList
  | .arr (item :: rest) => '[' :: item.compactChars ++ compactItems rest ++ [']']
  | .obj [] => ['\x7b', '\x7d']
  | .obj ((key, value) :: rest) =>
    '\x7b' :: quote key ++ ':' :: value.compactChars ++ compactMembers rest ++ ['\x7d']

def compactItems : List Json → List Char
  | [] => []
  | item :: rest => ',' :: item.compactChars ++ compactItems rest

def compactMembers : List (String × Json) → List Char
  | [] => []
  | (key, value) :: rest => ',' :: quote key ++ ':' :: value.compactChars ++ compactMembers rest

end

/-- A new line at a level of nesting. -/
def newline (level : Nat) : List Char := '\n' :: List.replicate (2 * level) ' '

mutual

def prettyChars (level : Nat) : Json → List Char
  | .null | .unreadable => "null".toList
  | .bool true => "true".toList
  | .bool false => "false".toList
  | .num value => numeral value
  | .str value => quote value
  | .arr [] => "[]".toList
  | .arr (item :: rest) =>
    '[' :: newline (level + 1) ++ item.prettyChars (level + 1) ++ prettyItems (level + 1) rest
      ++ newline level ++ [']']
  | .obj [] => ['\x7b', '\x7d']
  | .obj ((key, value) :: rest) =>
    '\x7b' :: newline (level + 1) ++ quote key ++ ':' :: ' ' :: value.prettyChars (level + 1)
      ++ prettyMembers (level + 1) rest ++ newline level ++ ['\x7d']

def prettyItems (level : Nat) : List Json → List Char
  | [] => []
  | item :: rest => ',' :: newline level ++ item.prettyChars level ++ prettyItems level rest

def prettyMembers (level : Nat) : List (String × Json) → List Char
  | [] => []
  | (key, value) :: rest =>
    ',' :: newline level ++ quote key ++ ':' :: ' ' :: value.prettyChars level
      ++ prettyMembers level rest

end

/-- The text without blanks. -/
def compact (tree : Json) : String := String.ofList tree.compactChars

/-- The text with one item a line. -/
def pretty (tree : Json) : String := String.ofList (tree.prettyChars 0)

end Json
end SceneScript
