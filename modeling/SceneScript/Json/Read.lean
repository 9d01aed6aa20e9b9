import SceneScript.Json.Basic
/-!
# Typed reading

A reader gets the nesting that is still allowed. Scalars need none; the parts of an array or object
are read with one less. Members that a record does not know are skipped, however deep they nest.
-/

namespace SceneScript

/-- Reads a value from a tree whose arrays and objects may nest as deep as the allowance. -/
abbrev Reader (α : Type) := Nat → Json → Option α

namespace Reader

/-- How deep a text may nest where it is read. -/
def nesting : Nat := 127

def bool : Reader Bool
  | _, .bool value => some value
  | _, _ => none

def string : Reader String
  | _, .str value => some value
  | _, _ => none

/-- An integer literal between two bounds, ends included. -/
def integer (low high : Int) : Reader Int
  | _, .num (.integer value) => if low ≤ value ∧ value ≤ high then some value else none
  | _, _ => none

/-- A natural number below a bound. -/
def below (bound : Nat) : Reader Nat := fun n tree => (integer 0 (bound - 1) n tree).map Int.toNat

def uint8 : Reader UInt8 := fun n tree => (below UInt8.size n tree).map .ofNat
def uint16 : Reader UInt16 := fun n tree => (below UInt16.size n tree).map .ofNat
def uint32 : Reader UInt32 := fun n tree => (below UInt32.size n tree).map .ofNat
def uint64 : Reader UInt64 := fun n tree => (below UInt64.size n tree).map .ofNat

def int16 : Reader Int16 := fun n tree =>
  (integer Int16.minValue.toInt Int16.maxValue.toInt n tree).map .ofInt

def int32 : Reader Int32 := fun n tree =>
  (integer Int32.minValue.toInt Int32.maxValue.toInt n tree).map .ofInt

def int64 : Reader Int64 := fun n tree =>
  (integer Int64.minValue.toInt Int64.maxValue.toInt n tree).map .ofInt

variable {α : Type}

def nullable (read : Reader α) : Reader (Option α)
  | _, .null => some none
  | n, tree => (read n tree).map some

def list (read : Reader α) : Reader (List α)
  | n + 1, .arr items => items.mapM (read n)
  | _, _ => none

/-- One of several alternatives: the bare name of one without content, or an object whose one
member is named for the alternative. An alternative without content may also be written with the
content `null`. -/
def variant (bare : String → Option α) (content : String → Option (Reader α)) : Reader α
  | _, .str name => bare name
  | n + 1, .obj [(name, tree)] =>
    match content name, tree with
    | some read, tree => read n tree
    | none, .null => bare name
    | none, _ => none
  | _, _ => none

/-- An alternative without content. -/
def named (names : List (String × α)) : Reader α := variant (names.lookup ·) fun _ => none

end Reader

/-- The members of a record, and the allowance that their values are read with. A record may also be
written as an array of its values in order of declaration, the last of them left out. -/
structure Record where
  members : List (String × Json)
  allowance : Nat
  positional : Bool

namespace Record

/-- Refuses a known name that occurs twice. -/
def of? (names : List String) : Nat → Json → Option Record
  | n + 1, .obj members =>
    if names.all fun name => (members.filter fun member => member.1 == name).length ≤ 1 then
      some ⟨members, n, false⟩
    else none
  | n + 1, .arr items =>
    if items.length ≤ names.length then some ⟨names.zip items, n, true⟩ else none
  | _, _ => none

variable {α : Type}

def required (record : Record) (name : String) (read : Reader α) : Option α :=
  (record.members.lookup name).bind (read record.allowance)

def withDefault (record : Record) (name : String) (read : Reader α) (value : α) : Option α :=
  match record.members.lookup name with
  | some tree => read record.allowance tree
  | none => some value

/-- A value that may be absent from an object, but has its place in an array. -/
def implied (record : Record) (name : String) (read : Reader α) : Option (Option α) :=
  match record.members.lookup name with
  | some tree => read.nullable record.allowance tree
  | none => if record.positional then none else some none

end Record
end SceneScript
