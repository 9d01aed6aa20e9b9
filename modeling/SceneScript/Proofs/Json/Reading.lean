import Mathlib.Data.List.Nodup
import SceneScript.Json.Read
import SceneScript.Proofs.Json.RoundTrip

/-! # Reading what was written

A value is written without asking how deep its tree nests, and read back only as far as the reader
is allowed to follow.
-/

namespace SceneScript

variable {α : Type}

attribute [simp] Json.Plain Json.PlainItems Json.PlainMembers
attribute [simp] Json.depth Json.itemsDepth Json.membersDepth

namespace Reader

/-- A value whose tree nests as deep as `used`, if the allowance covers that. -/
def within (used n : Nat) (value : α) : Option α := if used ≤ n then some value else none

/-- What the writer writes is plain, and the reader returns the value again unless it is not allowed
to follow the tree to its ground. -/
structure Recovers (read : Reader α) (write : α → Json) : Prop where
  plain : ∀ value, (write value).Plain
  read : ∀ n value, read n (write value) = within (write value).depth n value

@[simp] theorem within_zero (n : Nat) (value : α) : within 0 n value = some value :=
  if_pos (Nat.zero_le n)

theorem within_of_le {used n : Nat} (h : used ≤ n) (value : α) : within used n value = some value :=
  if_pos h

@[simp] theorem within_succ_succ (used n : Nat) (value : α) :
    within (used + 1) (n + 1) value = within used n value := by
  simp [within]

@[simp] theorem map_within {β : Type} (used n : Nat) (value : α) (f : α → β) :
    (within used n value).map f = within used n (f value) := by
  simp only [within]
  split <;> rfl

@[simp] theorem within_bind_some {β : Type} (used n : Nat) (value : α) (f : α → β) :
    ((within used n value).bind fun value => some (f value)) = within used n (f value) := by
  simp only [within]
  split <;> rfl

/-- The deeper of two parts decides. -/
@[simp] theorem within_bind_within {β : Type} (first second n : Nat) (value : α) (f : α → β) :
    ((within first n value).bind fun value => within second n (f value))
      = within (max first second) n (f value) := by
  simp only [within, Nat.max_le]
  by_cases h : first ≤ n <;> simp [h]

/-! ## Scalars -/

@[simp] theorem bool_bool (n : Nat) (value : Bool) : bool n (.bool value) = some value := rfl

@[simp] theorem string_str (n : Nat) (value : String) : string n (.str value) = some value := rfl

theorem integer_int {low high value : Int} (hlow : low ≤ value) (hhigh : value ≤ high) (n : Nat) :
    integer low high n (.int value) = some value :=
  if_pos ⟨hlow, hhigh⟩

theorem below_nat {bound value : Nat} (h : value < bound) (n : Nat) :
    below bound n (.nat value) = some value := by
  rw [below, Json.nat, integer_int (by omega) (by omega)]
  rfl

@[simp] theorem uint8_nat (n : Nat) (value : UInt8) : uint8 n (.nat value.toNat) = some value := by
  rw [uint8, below_nat value.toNat_lt, Option.map_some, UInt8.ofNat_toNat]

@[simp] theorem uint16_nat (n : Nat) (value : UInt16) :
    uint16 n (.nat value.toNat) = some value := by
  rw [uint16, below_nat value.toNat_lt, Option.map_some, UInt16.ofNat_toNat]

@[simp] theorem uint32_nat (n : Nat) (value : UInt32) :
    uint32 n (.nat value.toNat) = some value := by
  rw [uint32, below_nat value.toNat_lt, Option.map_some, UInt32.ofNat_toNat]

@[simp] theorem uint64_nat (n : Nat) (value : UInt64) :
    uint64 n (.nat value.toNat) = some value := by
  rw [uint64, below_nat value.toNat_lt, Option.map_some, UInt64.ofNat_toNat]

@[simp] theorem int16_int (n : Nat) (value : Int16) : int16 n (.int value.toInt) = some value := by
  rw [int16, integer_int value.minValue_le_toInt value.toInt_le, Option.map_some, Int16.ofInt_toInt]

@[simp] theorem int64_int (n : Nat) (value : Int64) : int64 n (.int value.toInt) = some value := by
  rw [int64, integer_int value.minValue_le_toInt value.toInt_le, Option.map_some, Int64.ofInt_toInt]

end Reader

namespace Json

@[simp] theorem depth_nat (value : Nat) : (nat value).depth = 0 := rfl

@[simp] theorem depth_int (value : Int) : (int value).depth = 0 := rfl

theorem itemsDepth_le_iff {items : List Json} {k : Nat} :
    itemsDepth items ≤ k ↔ ∀ item ∈ items, item.depth ≤ k := by
  induction items with
  | nil => simp
  | cons item rest ih => simp [Nat.max_le, ih]

theorem membersDepth_le_iff {members : List (String × Json)} {k : Nat} :
    membersDepth members ≤ k ↔ ∀ member ∈ members, member.2.depth ≤ k := by
  induction members with
  | nil => simp
  | cons member rest ih => simp [Nat.max_le, ih]

theorem plain_int {value : Int} (h : value.natAbs < UInt64.size) : (int value).Plain := h

theorem plain_nat {value : Nat} (h : value < UInt64.size) : (nat value).Plain := h

@[simp] theorem plain_uint8 (value : UInt8) : (nat value.toNat).Plain :=
  plain_nat (Nat.lt_of_lt_of_le value.toNat_lt (by decide))

@[simp] theorem plain_uint16 (value : UInt16) : (nat value.toNat).Plain :=
  plain_nat (Nat.lt_of_lt_of_le value.toNat_lt (by decide))

@[simp] theorem plain_uint32 (value : UInt32) : (nat value.toNat).Plain :=
  plain_nat (Nat.lt_of_lt_of_le value.toNat_lt (by decide))

@[simp] theorem plain_uint64 (value : UInt64) : (nat value.toNat).Plain :=
  plain_nat value.toNat_lt

@[simp] theorem plain_int16 (value : Int16) : (int value.toInt).Plain := by
  have hlow := value.le_toInt
  have hhigh := value.toInt_lt
  refine plain_int ?_
  simp only [UInt64.size]
  omega

@[simp] theorem plain_int64 (value : Int64) : (int value.toInt).Plain := by
  have hlow := value.le_toInt
  have hhigh := value.toInt_lt
  refine plain_int ?_
  simp only [UInt64.size]
  omega

end Json

theorem Reader.recovers_bool : Recovers bool .bool := ⟨fun _ => trivial, fun _ _ => rfl⟩

theorem Reader.recovers_uint8 : Recovers uint8 fun value => .nat value.toNat :=
  ⟨Json.plain_uint8, by simp⟩

/-! ## Lists -/

namespace Reader

theorem mapM_within {read : Reader α} {write : α → Json} {values : List α}
    (h : ∀ value ∈ values, ∀ n, read n (write value) = within (write value).depth n value)
    (n : Nat) :
    (values.map write).mapM (read n) = within (Json.itemsDepth (values.map write)) n values := by
  induction values with
  | nil => rfl
  | cons value rest ih =>
      have hrest := ih fun other hother => h other (List.mem_cons_of_mem _ hother)
      rw [List.map_cons, List.mapM_cons, h value List.mem_cons_self, hrest, Json.itemsDepth]
      simp

/-- A list is read back as soon as its own items are. -/
theorem list_map {read : Reader α} {write : α → Json} {values : List α}
    (h : ∀ value ∈ values, ∀ n, read n (write value) = within (write value).depth n value)
    (n : Nat) :
    read.list n (.arr (values.map write)) =
      within (Json.arr (values.map write)).depth n values := by
  cases n with
  | zero => rfl
  | succ n =>
      rw [Json.depth, within_succ_succ]
      exact mapM_within h n

theorem Recovers.list {read : Reader α} {write : α → Json} (h : Recovers read write) :
    Recovers read.list fun values => .arr (values.map write) where
  plain values := by
    simp only [Json.Plain, Json.plainItems_iff, List.forall_mem_map]
    exact fun value _ => h.plain value
  read n values := list_map (fun value _ n => h.read n value) n

theorem nullable_of_ne_null {read : Reader α} {tree : Json} (h : tree ≠ .null) (n : Nat) :
    read.nullable n tree = (read n tree).map some := by
  cases tree <;> first | rfl | contradiction

/-- A value that is there is written as itself, one that is not as `null`. -/
theorem Recovers.nullable {read : Reader α} {write : α → Json} (h : Recovers read write)
    (hne : ∀ value, write value ≠ .null) :
    Recovers read.nullable fun value => (value.map write).getD .null where
  plain value := by
    cases value with
    | none => exact trivial
    | some value => exact h.plain value
  read n value := by
    cases value with
    | none => exact (within_zero n none).symm
    | some value =>
        rw [Option.map_some, Option.getD_some, nullable_of_ne_null (hne value), h.read, map_within]

end Reader

/-! ## Records -/

theorem Record.of?_obj {names : List String} {members : List (String × Json)}
    (distinct : (members.map Prod.fst).Nodup) (n : Nat) :
    of? names (n + 1) (.obj members) = some ⟨members, n, false⟩ := by
  have honce : ∀ name, (members.filter fun member => member.1 == name).length ≤ 1 := by
    intro name
    have hcount := List.nodup_iff_count_le_one.mp distinct name
    rwa [List.count, List.countP_map, List.countP_eq_length_filter] at hcount
  exact if_pos (List.all_eq_true.mpr fun name _ => decide_eq_true (honce name))

/-- In a form that opens under the lookup of a member that may be left out. -/
theorem Record.withDefault_eq (record : Record) (name : String) (read : Reader α) (value : α) :
    record.withDefault name read value
      = ((record.members.lookup name).map (read record.allowance)).getD (some value) := by
  rw [withDefault]
  cases record.members.lookup name <;> rfl

/-- The values of a record are read with one bracket less than the record itself. -/
theorem Reader.Recovers.record {names : List String} {fields : α → List (String × Json)}
    {ofRecord : Record → Option α} (plain : ∀ value, Json.PlainMembers (fields value))
    (distinct : ∀ value, ((fields value).map Prod.fst).Nodup)
    (h : ∀ n value, ofRecord ⟨fields value, n, false⟩
      = within (Json.membersDepth (fields value)) n value) :
    Recovers (fun n tree => (Record.of? names n tree).bind ofRecord)
      fun value => .obj (fields value) where
  plain := plain
  read n value := by
    cases n with
    | zero => rfl
    | succ n =>
        rw [Record.of?_obj (distinct value), Option.bind_some, h, Json.depth, within_succ_succ]

end SceneScript
