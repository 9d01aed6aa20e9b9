import SceneScript.Proofs.Script.Codec
import SceneScript.Proofs.Table
import SceneScript.Save

/-! # Saved games survive their JSON

States have a bounded depth, so the limit for nesting never matters here.
-/

namespace SceneScript

open Reader

/-! ## Tables -/

namespace Table

variable {α : Type}

/-- A name behind all names of a table goes to its end. -/
theorem place_of_forall_lt {name : String} {value : α} {entries : List (String × α)}
    (h : ∀ entry ∈ entries, entry.1 < name) :
    place name value entries = entries ++ [(name, value)] := by
  induction entries with
  | nil => rfl
  | cons entry rest ih =>
      have hlt : entry.1 < name := h entry List.mem_cons_self
      have hrest := ih fun other hother => h other (List.mem_cons_of_mem _ hother)
      have hnlt : ¬ name < entry.1 := String.lt_asymm hlt
      have hne : name ≠ entry.1 := fun heq => String.lt_irrefl _ (heq ▸ hlt)
      rw [place, if_neg hnlt, if_neg hne, hrest, List.cons_append]

theorem entries_foldl_insert {entries : List (String × α)} {table : Table α}
    (h : (table.entries ++ entries).Pairwise fun a b => a.1 < b.1) :
    (entries.foldl (fun table entry => table.insert entry.1 entry.2) table).entries
      = table.entries ++ entries := by
  induction entries generalizing table with
  | nil => exact (List.append_nil _).symm
  | cons entry rest ih =>
      have hbefore : ∀ other ∈ table.entries, other.1 < entry.1 := fun other hother =>
        (List.pairwise_append.mp h).2.2 other hother entry List.mem_cons_self
      have hinsert : (table.insert entry.1 entry.2).entries = table.entries ++ [entry] :=
        place_of_forall_lt hbefore
      have hsplit : table.entries ++ [entry] ++ rest = table.entries ++ entry :: rest := by simp
      have hsorted : ((table.insert entry.1 entry.2).entries ++ rest).Pairwise
          fun a b => a.1 < b.1 := by
        rw [hinsert, hsplit]
        exact h
      rw [List.foldl_cons, ih hsorted, hinsert, hsplit]

/-- A table is what its own entries make. -/
theorem ofList_entries (table : Table α) : ofList table.entries = table := by
  have hentries : (ofList table.entries).entries = empty.entries ++ table.entries :=
    entries_foldl_insert (by simpa [empty] using table.sorted)
  cases htable : ofList table.entries
  cases table
  rw [htable] at hentries
  cases hentries
  rfl

theorem mapM_within {read : Reader α} {write : α → Json} (h : Recovers read write)
    (entries : List (String × α)) (n : Nat) :
    (entries.map fun entry => (entry.1, write entry.2)).mapM
        (fun member => (read n member.2).map (member.1, ·))
      = within (Json.membersDepth (entries.map fun entry => (entry.1, write entry.2))) n
        entries := by
  induction entries with
  | nil => rfl
  | cons entry rest ih =>
      rw [List.map_cons, List.mapM_cons, ih, h.read]
      simp

theorem recovers {read : Reader α} {write : α → Json} (h : Recovers read write) :
    Recovers (Table.read read) (Table.toJson write) where
  plain table := by
    rw [toJson, Json.Plain, Json.plainMembers_iff, List.forall_mem_map]
    exact fun entry _ => h.plain entry.2
  read n table := by
    cases n with
    | zero => rfl
    | succ n =>
        rw [toJson, Table.read, mapM_within h, map_within, ofList_entries, Json.depth,
          within_succ_succ]

end Table

/-! ## Alternatives -/

theorem Waiting.recovers : Recovers read toJson where
  plain waiting := by
    cases waiting <;> simp [toJson, Json.alternative, Json.ofIndex]
  read n waiting := by
    cases waiting with
    | nothing => rfl
    | click => rfl
    | choice count | transition target =>
        match n with
        | 0 | 1 => rfl
        | n + 2 =>
            simp [read, variant, toJson, Json.alternative, Json.ofIndex, Record.of?_obj,
              Record.required]

theorem Frame.recovers : Recovers read toJson where
  plain frame := by
    cases frame <;> simp [toJson, Json.alternative, Json.ofIndex]
  read n frame := by
    cases frame with
    | branch owner chosen | group owner id =>
        match n with
        | 0 | 1 => rfl
        | n + 2 =>
            simp [read, variant, toJson, Json.alternative, Json.ofIndex, Record.of?_obj,
              Record.required, List.lookup_cons]

/-! ## Records -/

theorem Position.recovers : Recovers read toJson := by
  refine .record (fun position => ?plain) (by simp) fun n position => ?read
  case plain => simpa [Json.ofIndex] using Frame.recovers.list.plain position.frames
  case read =>
    simp [Record.required, Record.withDefault_eq, List.lookup_cons, Json.ofIndex,
      Frame.recovers.list.read]

theorem Stage.recovers : Recovers read toJson := by
  have hanimation := FrameAnimation.recovers.nullable FrameAnimation.toJson_ne_null
  refine .record (fun stage => ?plain) (by simp) fun n stage => ?read
  case plain => simpa using hanimation.plain stage.animation
  case read =>
    simp [Record.required, Record.withDefault_eq, List.lookup_cons, hanimation.read]

theorem State.recovers : Recovers read toJson := by
  have hflags := Table.recovers recovers_bool
  have hvars := Table.recovers recovers_uint8
  refine .record (fun state => ?plain) (by simp) fun n state => ?read
  case plain =>
    simp [Position.recovers.plain, Stage.recovers.plain, Waiting.recovers.plain, hflags.plain,
      hvars.plain]
  case read =>
    simp [Record.required, Record.withDefault_eq, List.lookup_cons, Position.recovers.read,
      Stage.recovers.read, Waiting.recovers.read, hflags.read, hvars.read]

theorem SaveVersion.recovers : Recovers read toJson :=
  .record (by simp) (by simp) (by simp [Record.required, List.lookup_cons])

theorem SaveMetadata.recovers : Recovers read toJson :=
  .record (by simp [Json.ofIndex]) (by simp)
    (by simp [Record.required, List.lookup_cons, Json.ofIndex])

theorem Save.recovers : Recovers read toJson :=
  .record (by simp [SaveVersion.recovers.plain, SaveMetadata.recovers.plain, State.recovers.plain])
    (by simp) (by simp [Record.required, List.lookup_cons, SaveVersion.recovers.read,
      SaveMetadata.recovers.read, State.recovers.read])

/-! ## Depth -/

theorem Table.depth_toJson {α : Type} (write : α → Json) (h : ∀ value, (write value).depth = 0)
    (table : Table α) : (table.toJson write).depth = 1 := by
  have hmembers :
      Json.membersDepth (table.entries.map fun entry => (entry.1, write entry.2)) ≤ 0 := by
    rw [Json.membersDepth_le_iff, List.forall_mem_map]
    exact fun entry _ => (h entry.2).le
  rw [toJson, Json.depth, Nat.le_zero.mp hmembers]

theorem Frame.depth_toJson (frame : Frame) : frame.toJson.depth = 2 := by
  cases frame <;> simp [toJson, Json.alternative, Json.ofIndex]

theorem Position.depth_toJson_le (position : Position) : position.toJson.depth ≤ 4 := by
  have hframes : Json.itemsDepth (position.frames.map Frame.toJson) ≤ 2 := by
    rw [Json.itemsDepth_le_iff, List.forall_mem_map]
    exact fun frame _ => frame.depth_toJson.le
  simp [toJson, Json.ofIndex]
  omega

theorem Stage.depth_toJson_le (stage : Stage) : stage.toJson.depth ≤ 2 := by
  cases h : stage.animation <;> simp [toJson, h, FrameAnimation.depth_toJson]

theorem Waiting.depth_toJson_le (waiting : Waiting) : waiting.toJson.depth ≤ 2 := by
  cases waiting <;> simp [toJson, Json.alternative, Json.ofIndex]

theorem State.depth_toJson_le (state : State) : state.toJson.depth ≤ 5 := by
  have hflags := Table.depth_toJson .bool (fun _ => rfl) state.flags
  have hvars := Table.depth_toJson (fun value : UInt8 => .nat value.toNat) (fun _ => rfl) state.vars
  have hposition := state.position.depth_toJson_le
  have hstage := state.stage.depth_toJson_le
  have hwaiting := state.waiting.depth_toJson_le
  simp [toJson, hflags, hvars, Nat.max_le]
  omega

theorem Save.depth_toJson_le (save : Save) : save.toJson.depth ≤ 6 := by
  have hstate := save.state.depth_toJson_le
  simp [toJson, SaveVersion.toJson, SaveMetadata.toJson, Json.ofIndex, Nat.max_le]
  omega

end SceneScript
