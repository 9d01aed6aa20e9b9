/-!
# Natural numbers in decimal digits
-/

namespace SceneScript

namespace Natural

/-- The value of a run of decimal digits. -/
def ofDigits (digits : List Char) : Nat :=
  digits.foldl (fun value c => 10 * value + (c.toNat - '0'.toNat)) 0

/-- The number of a text of digits, which may follow a plus sign. -/
def ofText? (text : String) : Option Nat :=
  let digits := match text.toList with
    | '+' :: digits => digits
    | digits => digits
  if digits.isEmpty || !digits.all Char.isDigit then none else some (ofDigits digits)

end Natural
end SceneScript
