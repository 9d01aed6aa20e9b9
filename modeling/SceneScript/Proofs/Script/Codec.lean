import SceneScript.Proofs.Json.Reading
import SceneScript.Proofs.Script.Nesting
import SceneScript.Script.Codec

/-! # Scripts survive their JSON

Every part of a script is read as it was written. Commands nest, so their reader is followed by the
induction over commands.
-/

namespace SceneScript

open Reader

/-! ## Names -/

/-- A bare name is looked up, inside a command as well as outside. -/
theorem Reader.namedIn_str {α : Type} (inCommand : Bool) (names : List (String × α)) (n : Nat)
    (name : String) : namedIn inCommand names n (.str name) = names.lookup name := by
  cases inCommand with
  | false => rfl
  | true => cases n <;> rfl

@[simp] theorem VariableOp.read_name (n : Nat) (op : VariableOp) :
    namedInCommand names n (.str op.name) = some op := by
  have hlookup : names.lookup op.name = some op := by cases op <;> rfl
  exact (namedIn_str true names n op.name).trans hlookup

@[simp] theorem BranchKind.read_name (inCommand : Bool) (n : Nat) (kind : BranchKind) :
    namedIn inCommand names n (.str kind.name) = some kind := by
  rw [namedIn_str]
  cases kind <;> rfl

@[simp] theorem SymbolKind.read_name (inCommand : Bool) (n : Nat) (kind : SymbolKind) :
    namedIn inCommand names n (.str kind.name) = some kind := by
  rw [namedIn_str]
  cases kind <;> rfl

@[simp] theorem Comparison.read_symbol (inCommand : Bool) (n : Nat) (op : Comparison) :
    namedIn inCommand names n (.str op.symbol) = some op := by
  rw [namedIn_str]
  cases op <;> rfl

@[simp] theorem Action.typeName_name {α : Type} (n : Nat) (action : Action α) :
    typeName n (.str action.name) = some action.name := by
  have hmem : action.name ∈ types := by
    cases action with
    | startTrack track | stopTrack track | fadeTrack track =>
        cases track <;> simp [name, types, Track.suffix]
    | _ => simp [name, types]
  exact if_pos hmem

/-! ## Records -/

theorem FrameAnimation.recovers : Recovers read toJson :=
  .record (by simp) (by simp) (by simp [Record.required, Record.withDefault_eq, List.lookup_cons])

theorem FrameAnimation.toJson_ne_null (animation : FrameAnimation) : animation.toJson ≠ .null := by
  simp [toJson]

theorem FrameAnimation.depth_toJson (animation : FrameAnimation) : animation.toJson.depth = 1 := by
  simp [toJson]

theorem Choice.recovers : Recovers read toJson :=
  .record (by simp) (by simp) (by simp [Record.required, Record.withDefault_eq, List.lookup_cons])

@[simp] theorem Literal.plain_toJson (literal : Literal) : literal.toJson.Plain := by
  cases literal with
  | bool value => exact trivial
  | int value => exact Json.plain_int64 value

@[simp] theorem Literal.depth_toJson (literal : Literal) : literal.toJson.depth = 0 := by
  cases literal <;> rfl

@[simp] theorem Literal.read_toJson (n : Nat) (literal : Literal) :
    read n literal.toJson = some literal := by
  cases literal with
  | bool value => rfl
  | int value => exact congrArg (Option.map Literal.int) (int64_int n value)

@[simp] theorem Condition.ofRecord_fields (condition : Condition) (inCommand : Bool)
    (rest : List (String × Json)) (n : Nat) :
    ofRecord inCommand ⟨condition.fields ++ rest, n, false⟩ = some condition := by
  simp [ofRecord, fields, Record.required, Record.withDefault_eq, List.lookup_cons]

/-! ## Fields behind the type of a command -/

theorem TrackStart.ofRecord_fields (sound : TrackStart) (id type : Json) (n : Nat) :
    ofRecord ⟨("id", id) :: ("type", type) :: sound.fields, n, false⟩ = some sound := by
  simp [ofRecord, fields, Record.required, Record.withDefault_eq, List.lookup_cons]

theorem TrackFade.ofRecord_fields (fade : TrackFade) (id type : Json) (n : Nat) :
    ofRecord ⟨("id", id) :: ("type", type) :: fade.fields, n, false⟩ = some fade := by
  simp [ofRecord, fields, Record.required, List.lookup_cons]

theorem SoundEffect.ofRecord_fields (sound : SoundEffect) (id type : Json) (n : Nat) :
    ofRecord ⟨("id", id) :: ("type", type) :: sound.fields, n, false⟩ = some sound := by
  simp [ofRecord, fields, Record.required, Record.withDefault_eq, List.lookup_cons]

theorem Command.listToJson_eq_map (commands : List Command) :
    listToJson commands = commands.map toJson := by
  induction commands with
  | nil => rfl
  | cons command rest ih => rw [listToJson, ih, List.map_cons]

theorem Branch.listToJson_eq_map (branches : List (Branch Command)) :
    listToJson branches = branches.map toJson := by
  induction branches with
  | nil => rfl
  | cons branch rest ih => rw [listToJson, ih, List.map_cons]

theorem Action.ofRecord_fields {action : Action Command}
    {branches : Json → Option (List (Branch Command))} {n : Nat}
    (hdepth : Json.membersDepth action.fields ≤ n)
    (hbranches : ∀ label inner, action = .branching label inner →
      branches (.arr (Branch.listToJson inner)) = some inner) (id type : Json) :
    ofRecord branches action.name ⟨("id", id) :: ("type", type) :: action.fields, n, false⟩
      = some action := by
  cases action with
  | dialogue speaker text choices =>
      have hchoices : (Json.arr (choices.map Choice.toJson)).depth ≤ n := by
        simpa [fields] using hdepth
      have hread := Choice.recovers.list.read n choices
      rw [within_of_le hchoices] at hread
      simp [ofRecord, name, fields, Record.withDefault_eq, List.lookup_cons, hread]
  | branching label inner =>
      have hread := hbranches label inner rfl
      simp [ofRecord, name, fields, Record.withDefault_eq, List.lookup_cons, hread]
  | showCharacter fadeMs animation =>
      cases animation with
      | none => simp [ofRecord, name, fields, Record.withDefault_eq, List.lookup_cons]
      | some animation =>
          have hanimation : animation.toJson.depth ≤ n := by
            simpa [fields] using hdepth
          have hread : FrameAnimation.read.nullable n animation.toJson = some (some animation) :=
            ((FrameAnimation.recovers.nullable FrameAnimation.toJson_ne_null).read n
              (some animation)).trans (within_of_le hanimation _)
          simp [ofRecord, name, fields, Record.withDefault_eq, List.lookup_cons, hread]
  | startTrack track sound =>
      have hsound := TrackStart.ofRecord_fields sound id type n
      cases track with
      | music => exact congrArg (Option.map (Action.startTrack .music)) hsound
      | ambience => exact congrArg (Option.map (Action.startTrack .ambience)) hsound
  | stopTrack track => cases track <;> rfl
  | fadeTrack track fade =>
      have hfade := TrackFade.ofRecord_fields fade id type n
      cases track with
      | music => exact congrArg (Option.map (Action.fadeTrack .music)) hfade
      | ambience => exact congrArg (Option.map (Action.fadeTrack .ambience)) hfade
  | playSound sound =>
      exact congrArg (Option.map Action.playSound) (SoundEffect.ofRecord_fields sound id type n)
  | _ => simp [ofRecord, name, fields, Record.required, Record.withDefault_eq, List.lookup_cons]

theorem Action.nodup_fields (action : Action Command) :
    ("id" :: "type" :: action.fields.map Prod.fst).Nodup := by
  cases action with
  | showCharacter fadeMs animation => cases animation <;> simp [fields]
  | _ => simp [fields, TrackStart.fields, TrackFade.fields, SoundEffect.fields]

theorem Action.plain_fields {action : Action Command}
    (hbranches : ∀ label branches, action = .branching label branches →
      ∀ branch ∈ branches, branch.toJson.Plain) : Json.PlainMembers action.fields := by
  cases action with
  | dialogue speaker text choices => simpa [fields] using Choice.recovers.list.plain choices
  | branching label branches =>
      simpa [fields, Json.plainItems_iff, Branch.listToJson_eq_map] using
        hbranches label branches rfl
  | showCharacter fadeMs animation =>
      cases animation with
      | none => simp [fields]
      | some animation => simpa [fields] using FrameAnimation.recovers.plain animation
  | _ => simp [fields, TrackStart.fields, TrackFade.fields, SoundEffect.fields]

/-! ## Branches -/

theorem Condition.nodup_fields (condition : Condition) (body : Json) :
    ((condition.fields ++ [("commands", body)]).map Prod.fst).Nodup := by
  simp [fields]

theorem Branch.ofRecord_fields (condition : Condition) (inCommand : Bool)
    (readBody : Json → Option (List Command)) (body : Json) (n : Nat) :
    ofRecord inCommand readBody ⟨condition.fields ++ [("commands", body)], n, false⟩
      = (readBody body).map (Branch.mk condition) := by
  have hlookup : (condition.fields ++ [("commands", body)]).lookup "commands" = some body := by
    simp [Condition.fields, List.lookup_cons]
  simp only [ofRecord, Condition.ofRecord_fields, Record.withDefault, hlookup]
  cases readBody body <;> rfl

theorem Branch.depth_toJson (branch : Branch Command) :
    branch.toJson.depth = (Json.arr (branch.body.map Command.toJson)).depth + 1 := by
  obtain ⟨condition, body⟩ := branch
  simp [toJson, Condition.fields, Command.listToJson_eq_map]

theorem Branch.plain_toJson {branch : Branch Command}
    (h : ∀ inner ∈ branch.body, inner.toJson.Plain) : branch.toJson.Plain := by
  obtain ⟨condition, body⟩ := branch
  simpa [toJson, Condition.fields, Command.listToJson_eq_map, Json.plainItems_iff] using h

theorem Command.readList_eq_list : readList = list read := by
  funext n tree
  cases n <;> cases tree <;> rfl

theorem Branch.readList_eq_list : readList = list readInCommand := by
  funext n tree
  cases n <;> cases tree <;> rfl

theorem Branch.readInCommand_toJson {branch : Branch Command}
    (h : ∀ inner ∈ branch.body, ∀ n,
      Command.read n inner.toJson = within inner.toJson.depth n inner) (n : Nat) :
    readInCommand n branch.toJson = within branch.toJson.depth n branch := by
  rw [depth_toJson]
  obtain ⟨condition, body⟩ := branch
  cases n with
  | zero => rfl
  | succ n =>
      rw [readInCommand, toJson, Record.of?_obj (condition.nodup_fields _), Option.bind_some,
        ofRecord_fields, Command.listToJson_eq_map, Command.readList_eq_list, list_map h,
        map_within, within_succ_succ]

/-! ## Commands -/

/-- The flat object of a command. -/
def Command.members (command : Command) : List (String × Json) :=
  ("id", .str command.id) :: ("type", .str command.action.name) :: command.action.fields

theorem Command.toJson_eq_obj (command : Command) : command.toJson = .obj command.members := by
  obtain ⟨id, action⟩ := command
  rw [toJson, members]

theorem Command.depth_toJson (command : Command) :
    command.toJson.depth = Json.membersDepth command.action.fields + 1 := by
  simp [toJson_eq_obj, members]

theorem Command.of?_members (names : List String) (n : Nat) (command : Command) :
    Record.of? names (n + 1) (.obj command.members) = some ⟨command.members, n, false⟩ := by
  have hdistinct : (command.members.map Prod.fst).Nodup := command.action.nodup_fields
  exact Record.of?_obj hdistinct n

/-- The depth of all members is checked before one of them is read, so the reader of the fields may
count on it. -/
theorem Command.ofMembers_members {command : Command}
    {branches : Json → Option (List (Branch Command))} {n : Nat}
    (hplain : Json.PlainMembers command.action.fields)
    (haction : Json.membersDepth command.action.fields ≤ n →
      Action.ofRecord branches command.action.name ⟨command.members, n, false⟩
        = some command.action) :
    ofMembers branches n command.members
      = within (Json.membersDepth command.action.fields) n command := by
  have hreadable : Json.membersReadable command.members = true :=
    Json.membersReadable_of_plain _ ⟨trivial, trivial, hplain⟩
  have hdepth : Json.membersDepth command.members = Json.membersDepth command.action.fields := by
    simp [members]
  have hid : (⟨command.members, n, false⟩ : Record).required "id" string = some command.id := by
    simp [Record.required, members]
  have htype : (⟨command.members, n, false⟩ : Record).required "type" Action.typeName
      = some command.action.name := by
    simp [Record.required, members, List.lookup_cons]
  by_cases h : Json.membersDepth command.action.fields ≤ n
  · have hread : ofMembers branches n command.members = some ⟨command.id, command.action⟩ := by
      simp [ofMembers, of?_members, hreadable, hdepth, Nat.not_lt.mpr h, hid, htype, haction h]
    rw [hread, within_of_le h]
    cases command
    rfl
  · simp [ofMembers, of?_members, hdepth, h, Nat.not_le.mp h, within]

theorem Command.plain_toJson (command : Command) : command.toJson.Plain := by
  induction command using Command.induction with
  | nest command ih =>
      rw [toJson_eq_obj]
      refine ⟨trivial, trivial, Action.plain_fields fun label branches haction branch hbranch => ?_⟩
      refine Branch.plain_toJson (ih branch ?_)
      rwa [Command.branches, haction]

theorem Command.read_toJson (command : Command) (n : Nat) :
    read n command.toJson = within command.toJson.depth n command := by
  induction command using Command.induction generalizing n with
  | nest command ih =>
      have hplain : Json.PlainMembers command.action.fields := by
        have h := plain_toJson command
        rw [toJson_eq_obj] at h
        exact h.2.2
      rw [depth_toJson, toJson_eq_obj]
      cases n with
      | zero => rfl
      | succ n =>
          rw [read, within_succ_succ]
          refine ofMembers_members hplain fun hdepth => ?_
          refine Action.ofRecord_fields hdepth (fun label branches haction => ?_) _ _
          have hlist : (Json.arr (branches.map Branch.toJson)).depth ≤ n := by
            simpa [haction, Action.fields, Branch.listToJson_eq_map] using hdepth
          rw [Branch.readList_eq_list, Branch.listToJson_eq_map, list_map, within_of_le hlist]
          intro branch hbranch
          refine Branch.readInCommand_toJson (ih branch ?_)
          rwa [Command.branches, haction]

theorem Command.recovers : Recovers read toJson :=
  ⟨plain_toJson, fun n command => read_toJson command n⟩

end SceneScript
