/-!
# JSON trees

A tree keeps the members of an object in the order of the text, repeated keys included, because
reading a record asks about both.
-/

namespace SceneScript

/-- A number as it is spelled: an integer literal, or `± mantissa · 10 ^ exponent`. A negative zero
is spelled as a decimal. -/
inductive Numeral where
  | integer (value : Int)
  | decimal (negative : Bool) (mantissa : Nat) (exponent : Int)
  deriving DecidableEq, Repr, Inhabited

/-- The constructor `unreadable` is well-formed text without a value: a string or an object key with
an unpaired surrogate escape, or a number too large for double precision. It can be skipped but not
read. -/
inductive Json where
  | null
  | bool (value : Bool)
  | num (value : Numeral)
  | str (value : String)
  | arr (items : List Json)
  | obj (members : List (String × Json))
  | unreadable
  deriving Inhabited, Repr

namespace Json

def int (value : Int) : Json := num (.integer value)

def nat (value : Nat) : Json := int value

mutual

/-- Arrays and objects on the deepest path. -/
def depth : Json → Nat
  | .arr items => itemsDepth items + 1
  | .obj members => membersDepth members + 1
  | _ => 0

def itemsDepth : List Json → Nat
  | [] => 0
  | item :: rest => max item.depth (itemsDepth rest)

def membersDepth : List (String × Json) → Nat
  | [] => 0
  | (_, value) :: rest => max value.depth (membersDepth rest)

end

mutual

/-- Every part of the tree has a value. -/
def isReadable : Json → Bool
  | .unreadable => false
  | .arr items => itemsReadable items
  | .obj members => membersReadable members
  | _ => true

def itemsReadable : List Json → Bool
  | [] => true
  | item :: rest => item.isReadable && itemsReadable rest

def membersReadable : List (String × Json) → Bool
  | [] => true
  | (_, value) :: rest => value.isReadable && membersReadable rest

end

end Json
end SceneScript
