import SceneScript.Json.Numeral
import SceneScript.Text.Natural
/-!
# Tokens of a JSON text

`Lexer.step` takes one character; scanning a text is a fold of `step`, so scanning `s ++ t` is
scanning `t` from where `s` ended.
-/

namespace SceneScript

namespace Numeral

open Natural (ofDigits)

/-- The power of ten behind an `e` or `E`. -/
def exponent? : List Char → Option Int
  | [] => some 0
  | mark :: rest =>
    if mark != 'e' && mark != 'E' then none
    else
      let (negative, digits) := match rest with
        | '-' :: digits => (true, digits)
        | '+' :: digits => (false, digits)
        | digits => (false, digits)
      if digits.isEmpty || !digits.all Char.isDigit then none
      else if negative then some (-(ofDigits digits)) else some (ofDigits digits)

/-- The digits behind a point, and what follows them. -/
def fraction? : List Char → Option (List Char × List Char)
  | '.' :: rest =>
    let digits := rest.takeWhile Char.isDigit
    if digits.isEmpty then none else some (digits, rest.dropWhile Char.isDigit)
  | rest => some ([], rest)

/-- A numeral without its sign: no leading zero, a digit on both sides of a point. -/
def ofUnsigned? (negative : Bool) (spelling : List Char) : Option Numeral := do
  let whole := spelling.takeWhile Char.isDigit
  let rest := spelling.dropWhile Char.isDigit
  if whole.isEmpty || (whole.head? = some '0' && whole.length > 1) then none
  if rest.isEmpty && !(negative && whole = ['0']) then
    return .integer (if negative then -(ofDigits whole : Int) else ofDigits whole)
  let (fraction, tail) ← fraction? rest
  return .decimal negative (ofDigits (whole ++ fraction)) ((← exponent? tail) - fraction.length)

def ofChars? : List Char → Option Numeral
  | '-' :: rest => ofUnsigned? true rest
  | spelling => ofUnsigned? false spelling

end Numeral

/-- The token `text none` is a string literal that spells no text. -/
inductive Token where
  | openArray | closeArray
  | openObject | closeObject
  | colon | comma
  | text (value : Option String)
  | atom (value : Json)
  deriving Inhabited

namespace Token

def isHighSurrogate (unit : Nat) : Bool := 0xD800 ≤ unit && unit < 0xDC00

def isLowSurrogate (unit : Nat) : Bool := 0xDC00 ≤ unit && unit < 0xE000

/-- Characters of a sequence of code units, in which a high and a low surrogate side by side stand
for one character. -/
def charsOfUnits? : List Nat → Option (List Char)
  | [] => some []
  | high :: rest =>
    if isHighSurrogate high then
      match rest with
      | low :: rest =>
        if isLowSurrogate low then
          (charsOfUnits? rest).map
            (Char.ofNat (0x10000 + (high - 0xD800) * 0x400 + (low - 0xDC00)) :: ·)
        else none
      | [] => none
    else if isLowSurrogate high then none
    else (charsOfUnits? rest).map (Char.ofNat high :: ·)

def ofWord? : List Char → Option Token
  | ['n', 'u', 'l', 'l'] => some (.atom .null)
  | ['t', 'r', 'u', 'e'] => some (.atom (.bool true))
  | ['f', 'a', 'l', 's', 'e'] => some (.atom (.bool false))
  | _ => none

def ofNumeral (value : Numeral) : Token :=
  .atom (if value.isFinite then .num value else .unreadable)

def ofPunctuation? : Char → Option Token
  | '[' => some .openArray
  | ']' => some .closeArray
  | '{' => some .openObject
  | '}' => some .closeObject
  | ':' => some .colon
  | ',' => some .comma
  | _ => none

end Token

/-- Inside which kind of token the lexer stands. What has been read of it is kept latest first. -/
inductive LexMode where
  | between
  | word (letters : List Char)
  | numeral (chars : List Char)
  | quoted (units : List Nat)
  | escaped (units : List Nat)
  | hex (units : List Nat) (missing : Nat) (value : Nat)
  deriving Inhabited

/-- Tokens so far, latest first. -/
structure Lexer where
  tokens : List Token
  mode : LexMode
  deriving Inhabited

namespace Lexer

def start : Lexer := ⟨[], .between⟩

def isBlank (c : Char) : Bool := c == ' ' || c == '\t' || c == '\n' || c == '\r'

def continuesNumeral (c : Char) : Bool :=
  c.isDigit || c == '.' || c == 'e' || c == 'E' || c == '+' || c == '-'

def hexDigit? (c : Char) : Option Nat :=
  if c.isDigit then some (c.toNat - '0'.toNat)
  else if 'a' ≤ c && c ≤ 'f' then some (c.toNat - 'a'.toNat + 10)
  else if 'A' ≤ c && c ≤ 'F' then some (c.toNat - 'A'.toNat + 10)
  else none

/-- The character that a one-letter escape stands for. -/
def escape? : Char → Option Char
  | '"' => some '"'
  | '\\' => some '\\'
  | '/' => some '/'
  | 'b' => some '\x08'
  | 'f' => some '\x0c'
  | 'n' => some '\n'
  | 'r' => some '\r'
  | 't' => some '\t'
  | _ => none

/-- The first character of a token, or a blank. -/
def begin? (tokens : List Token) (c : Char) : Option Lexer :=
  if isBlank c then some ⟨tokens, .between⟩
  else if c == '"' then some ⟨tokens, .quoted []⟩
  else if c.isDigit || c == '-' then some ⟨tokens, .numeral [c]⟩
  else if c.isAlpha then some ⟨tokens, .word [c]⟩
  else (Token.ofPunctuation? c).map fun token => ⟨token :: tokens, .between⟩

/-- Ends a word or a numeral, the tokens that have no closing character. -/
def close? (lexer : Lexer) : Option (List Token) :=
  match lexer.mode with
  | .between => some lexer.tokens
  | .word letters => (Token.ofWord? letters.reverse).map (· :: lexer.tokens)
  | .numeral chars =>
    (Numeral.ofChars? chars.reverse).map (Token.ofNumeral · :: lexer.tokens)
  | _ => none

def step (lexer : Lexer) (c : Char) : Option Lexer :=
  match lexer.mode with
  | .between => begin? lexer.tokens c
  | .word letters =>
    if c.isAlpha then some { lexer with mode := .word (c :: letters) }
    else lexer.close?.bind (begin? · c)
  | .numeral chars =>
    if continuesNumeral c then some { lexer with mode := .numeral (c :: chars) }
    else lexer.close?.bind (begin? · c)
  | .quoted units =>
    if c == '"' then
      some ⟨.text ((Token.charsOfUnits? units.reverse).map String.ofList) :: lexer.tokens, .between⟩
    else if c == '\\' then some { lexer with mode := .escaped units }
    else if c < ' ' then none
    else some { lexer with mode := .quoted (c.toNat :: units) }
  | .escaped units =>
    if c == 'u' then some { lexer with mode := .hex units 3 0 }
    else (escape? c).map fun c => { lexer with mode := .quoted (c.toNat :: units) }
  | .hex units missing value =>
    (hexDigit? c).map fun digit =>
      match missing with
      | 0 => { lexer with mode := .quoted ((16 * value + digit) :: units) }
      | missing + 1 => { lexer with mode := .hex units missing (16 * value + digit) }

end Lexer

def Token.scan? (text : List Char) : Option (List Token) :=
  (text.foldlM Lexer.step Lexer.start).bind fun lexer => lexer.close?.map List.reverse

end SceneScript
