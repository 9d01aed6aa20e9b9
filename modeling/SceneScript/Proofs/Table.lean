import SceneScript.Table

/-! # Values in tables -/

namespace SceneScript.Table

variable {α : Type}

theorem lookup_cons (entry : String × α) (rest : List (String × α)) (name : String) :
    (entry :: rest).lookup name = if name = entry.1 then some entry.2 else rest.lookup name := by
  obtain ⟨key, value⟩ := entry
  rw [List.lookup_cons]
  by_cases h : name = key
  · simp [h]
  · simp [h, beq_false_of_ne h]

theorem lookup_place (name other : String) (value : α) (entries : List (String × α)) :
    (place name value entries).lookup other =
      if other = name then some value else entries.lookup other := by
  induction entries with
  | nil => rw [place, lookup_cons]
  | cons entry rest ih =>
      simp only [place]
      split
      · rw [lookup_cons]
      · split
        · next heq =>
            rw [lookup_cons, lookup_cons]
            by_cases h : other = name
            · simp [h]
            · simp [h, show ¬ other = entry.1 from fun hkey => h (hkey.trans heq.symm)]
        · next hne =>
            rw [lookup_cons, lookup_cons, ih]
            by_cases hkey : other = entry.1
            · simp [hkey, show ¬ entry.1 = name from fun h => hne h.symm]
            · simp [hkey]

/-- Putting in a value changes the value of one name. -/
theorem find?_insert (table : Table α) (name other : String) (value : α) :
    (table.insert name value).find? other =
      if other = name then some value else table.find? other :=
  lookup_place name other value table.entries

/-- A value for a name that has one adds no name. -/
theorem isSome_find?_insert {table : Table α} {name : String} (value : α)
    (hname : (table.find? name).isSome) (other : String) :
    ((table.insert name value).find? other).isSome = (table.find? other).isSome := by
  rw [find?_insert]
  by_cases h : other = name
  · rw [if_pos h, h, hname, Option.isSome_some]
  · rw [if_neg h]

theorem names_place {name : String} (value : α) {entries : List (String × α)}
    (hsorted : entries.Pairwise fun a b => a.1 < b.1) (hname : (entries.lookup name).isSome) :
    (place name value entries).map (·.1) = entries.map (·.1) := by
  induction entries with
  | nil => cases hname
  | cons entry rest ih =>
      obtain ⟨hfirst, hrest⟩ := List.pairwise_cons.mp hsorted
      rw [lookup_cons] at hname
      simp only [place]
      split
      · next hlt =>
          -- The name would stand before all entries of a list that has it.
          have hne : name ≠ entry.1 := by
            intro heq
            rw [heq] at hlt
            exact String.lt_irrefl entry.1 hlt
          rw [if_neg hne] at hname
          obtain ⟨found, hfound⟩ := Option.isSome_iff_exists.mp hname
          obtain ⟨before, behind, heq, -⟩ := List.lookup_eq_some_iff.mp hfound
          have hlater := hfirst (name, found) (by simp [heq])
          exact absurd (String.lt_trans hlt hlater) (String.lt_irrefl name)
      · split
        · next heq => rw [List.map_cons, List.map_cons, heq]
        · next hne =>
            rw [if_neg hne] at hname
            rw [List.map_cons, List.map_cons, ih hrest hname]

/-- A value for a name that has one leaves the names as they are. -/
theorem names_insert {table : Table α} {name : String} (value : α)
    (hname : (table.find? name).isSome) : (table.insert name value).names = table.names :=
  names_place value table.sorted hname

theorem find?_foldl_insert (entries : List (String × α)) (table : Table α) (name : String) :
    (entries.foldl (fun table entry => table.insert entry.1 entry.2) table).find? name =
      (entries.reverse.lookup name).or (table.find? name) := by
  induction entries generalizing table with
  | nil => rfl
  | cons entry rest ih =>
      rw [List.foldl_cons, ih, find?_insert, List.reverse_cons, List.lookup_append, Option.or_assoc]
      congr 1
      rw [lookup_cons]
      by_cases h : name = entry.1 <;> simp [h]

/-- Of several entries with one name the last one counts. -/
theorem find?_ofList (entries : List (String × α)) (name : String) :
    (ofList entries).find? name = entries.reverse.lookup name := by
  rw [ofList, find?_foldl_insert]
  exact Option.or_none

/-- A table made from a list knows the names of its entries. -/
theorem isSome_find?_ofList (entries : List (String × α)) (name : String) :
    ((ofList entries).find? name).isSome ↔ ∃ entry ∈ entries, entry.1 = name := by
  rw [find?_ofList, Option.isSome_iff_ne_none, Ne, List.lookup_eq_none_iff]
  simp only [List.mem_reverse, bne_iff_ne, ne_eq, Classical.not_forall, Decidable.not_not,
    exists_prop]
  exact exists_congr fun entry => and_congr_right fun _ => eq_comm

/-- Of several items with one key the last one counts. -/
theorem find?_ofList_map {ι : Type} (items : List ι) (key : ι → String) (value : ι → α)
    (name : String) :
    (ofList (items.map fun item => (key item, value item))).find? name =
      (items.filter (key · == name)).getLast?.map value := by
  rw [find?_ofList, ← List.map_reverse, List.getLast?_filter]
  induction items.reverse with
  | nil => rfl
  | cons item rest ih =>
      rw [List.map_cons, lookup_cons, ih, List.find?_cons]
      by_cases h : key item = name
      · simp [h]
      · simp [beq_false_of_ne h, Ne.symm h]

end SceneScript.Table
