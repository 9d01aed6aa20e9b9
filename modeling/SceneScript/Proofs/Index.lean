import SceneScript.Proofs.Sequence

/-! # Indices

Where an item is found there is a next index, since a list has fewer items than there are indices.
-/

namespace SceneScript.Index

variable {α β : Type} {index following : Index} {items : List α} {item : α} {fault : Fault}

/-! ## Items -/

theorem of?_of_lt (h : index.toNat < capacity) : index.of? items = items[index.toNat]? := if_pos h

theorem of?_of_length_le (h : items.length ≤ capacity) : index.of? items = items[index.toNat]? := by
  unfold of?
  split
  · rfl
  · rw [List.getElem?_eq_none_iff.mpr (by omega)]

theorem of?_eq_some :
    index.of? items = some item ↔ index.toNat < capacity ∧ items[index.toNat]? = some item := by
  unfold of?
  split <;> simp [*]

theorem of?_eq_none :
    index.of? items = none ↔ capacity ≤ index.toNat ∨ items.length ≤ index.toNat := by
  unfold of?
  split
  · simp only [List.getElem?_eq_none_iff]
    omega
  · simp only [true_iff]
    omega

theorem getElem?_of_of? (h : index.of? items = some item) : items[index.toNat]? = some item :=
  (of?_eq_some.mp h).2

theorem lt_length_of_of? (h : index.of? items = some item) : index.toNat < items.length :=
  (List.getElem?_eq_some_iff.mp (getElem?_of_of? h)).1

theorem mem_of_of? (h : index.of? items = some item) : item ∈ items :=
  List.mem_of_getElem? (getElem?_of_of? h)

@[simp] theorem of?_map (f : α → β) : index.of? (items.map f) = (index.of? items).map f := by
  unfold of?
  split <;> simp

@[simp] theorem of?_zero : (0 : Index).of? items = items.head? := by
  rw [of?_of_lt (by decide), List.head?_eq_getElem?]
  rfl

/-! ## Next indices -/

/-- A number of 64 bits is left for the next index. -/
def HasNext (index : Index) : Prop := index.toNat + 1 < UInt64.size

instance (index : Index) : Decidable index.HasNext :=
  inferInstanceAs (Decidable (index.toNat + 1 < UInt64.size))

theorem HasNext.toNat_succ (h : index.HasNext) : (index + 1).toNat = index.toNat + 1 := by
  rw [UInt64.toNat_add]
  exact Nat.mod_eq_of_lt h

theorem hasNext_of_le (h : index.toNat ≤ capacity) : index.HasNext :=
  Nat.lt_of_le_of_lt (Nat.succ_le_succ h) (by decide)

theorem hasNext_of_of? (h : index.of? items = some item) : index.HasNext :=
  hasNext_of_le (Nat.le_of_lt (of?_eq_some.mp h).1)

/-- The place behind an item is the next one. -/
theorem toNat_succ (h : index.of? items = some item) : (index + 1).toNat = index.toNat + 1 :=
  (hasNext_of_of? h).toNat_succ

/-- The place behind an item is not the last one either. -/
theorem hasNext_succ (h : index.of? items = some item) : (index + 1).HasNext := by
  refine hasNext_of_le ?_
  rw [toNat_succ h]
  exact (of?_eq_some.mp h).1

theorem hasNext_zero : (0 : Index).HasNext := by decide

/-- The rest of a list from an item on begins with the item. -/
theorem drop_eq_cons (h : index.of? items = some item) :
    items.drop index.toNat = item :: items.drop (index + 1).toNat := by
  obtain ⟨hlt, rfl⟩ := List.getElem?_eq_some_iff.mp (getElem?_of_of? h)
  rw [toNat_succ h]
  exact List.drop_eq_getElem_cons hlt

theorem drop_eq_nil (hitems : items.length ≤ capacity) (h : index.of? items = none) :
    items.drop index.toNat = [] := by
  rw [List.drop_eq_nil_iff]
  rcases of?_eq_none.mp h with hbeyond | hend
  · exact Nat.le_trans hitems hbeyond
  · exact hend

theorem next_of_hasNext (h : index.HasNext) : index.next = .ok (index + 1) := if_pos h

theorem next_eq_ok : index.next = .ok following ↔ index.HasNext ∧ following = index + 1 := by
  unfold next HasNext
  split <;> simp [*, eq_comm]

theorem next_eq_error : index.next = .error fault ↔ ¬index.HasNext ∧ fault = .overflow := by
  unfold next HasNext
  split <;> simp [*, eq_comm]

end SceneScript.Index
