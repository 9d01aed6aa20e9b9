import SceneScript.Json.Read
/-!
# Tables

A table gives values to names. It lists them by rising name, each name once, so that two tables with
the same values are equal and are written alike.
-/

namespace SceneScript

structure Table (α : Type) where
  entries : List (String × α)
  sorted : entries.Pairwise fun a b => a.1 < b.1
  deriving DecidableEq

namespace Table

variable {α : Type}

def empty : Table α := ⟨[], .nil⟩

instance : Inhabited (Table α) := ⟨empty⟩

def find? (table : Table α) (name : String) : Option α := table.entries.lookup name

def names (table : Table α) : List String := table.entries.map (·.1)

/-- Puts an entry at its place in a sorted list, over an entry of the same name. -/
def place (name : String) (value : α) : List (String × α) → List (String × α)
  | [] => [(name, value)]
  | entry :: rest =>
    if name < entry.1 then (name, value) :: entry :: rest
    else if name = entry.1 then (name, value) :: rest
    else entry :: place name value rest

theorem mem_place {name : String} {value : α} {entries : List (String × α)} {entry : String × α}
    (h : entry ∈ place name value entries) : entry = (name, value) ∨ entry ∈ entries := by
  induction entries with
  | nil => simpa [place] using h
  | cons first rest ih =>
      simp only [place] at h
      split at h
      · simpa using h
      · split at h
        · rcases List.mem_cons.mp h with h | h
          · exact .inl h
          · exact .inr (List.mem_cons_of_mem _ h)
        · rcases List.mem_cons.mp h with h | h
          · exact .inr (h ▸ List.mem_cons_self)
          · exact (ih h).imp_right (List.mem_cons_of_mem _)

theorem place_sorted (name : String) (value : α) {entries : List (String × α)}
    (h : entries.Pairwise fun a b => a.1 < b.1) :
    (place name value entries).Pairwise fun a b => a.1 < b.1 := by
  induction entries with
  | nil => simp [place]
  | cons first rest ih =>
      rw [List.pairwise_cons] at h
      simp only [place]
      split
      · next hlt =>
          refine List.pairwise_cons.mpr ⟨fun entry hmem => ?_, List.pairwise_cons.mpr h⟩
          rcases List.mem_cons.mp hmem with rfl | hmem
          · exact hlt
          · exact String.lt_trans hlt (h.1 entry hmem)
      · split
        · next heq => exact List.pairwise_cons.mpr ⟨fun entry hmem => heq ▸ h.1 entry hmem, h.2⟩
        · next hlt hne =>
            refine List.pairwise_cons.mpr ⟨fun entry hmem => ?_, ih h.2⟩
            rcases mem_place hmem with rfl | hmem
            · exact String.not_le.mp fun hle => hlt (String.not_le.mp fun hge =>
                hne (String.le_antisymm hle hge))
            · exact h.1 entry hmem

def insert (table : Table α) (name : String) (value : α) : Table α :=
  ⟨place name value table.entries, place_sorted name value table.sorted⟩

/-- Of entries with one name the last counts. -/
def ofList (entries : List (String × α)) : Table α :=
  entries.foldl (fun table entry => table.insert entry.1 entry.2) empty

def toJson (value : α → Json) (table : Table α) : Json :=
  .obj (table.entries.map fun entry => (entry.1, value entry.2))

def read (value : Reader α) : Reader (Table α)
  | n + 1, .obj members =>
    (members.mapM fun member => (value n member.2).map (member.1, ·)).map ofList
  | _, _ => none

end Table
end SceneScript
