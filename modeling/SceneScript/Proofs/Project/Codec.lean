import SceneScript.Project.Codec
import SceneScript.Proofs.Script.Codec

/-! # Projects survive their JSON

The records of a project are read as they were written. Members without a value are left out and
read as absent.
-/

namespace SceneScript

open Reader

/-! ## Members that may be left out -/

namespace Json

theorem membersDepth_append (first second : List (String × Json)) :
    membersDepth (first ++ second) = max (membersDepth first) (membersDepth second) := by
  induction first with
  | nil => simp
  | cons member rest ih => simp [ih, Nat.max_assoc]

theorem plainMembers_append (first second : List (String × Json)) :
    PlainMembers (first ++ second) ↔ PlainMembers first ∧ PlainMembers second := by
  simp only [plainMembers_iff, List.mem_append, or_imp, forall_and]

theorem plainMembers_optionalMember (name : String) (value : Option String) :
    PlainMembers (optionalMember name value) := by
  cases value <;> simp [optionalMember]

theorem membersDepth_optionalMember (name : String) (value : Option String) :
    membersDepth (optionalMember name value) = 0 := by
  cases value <;> simp [optionalMember]

theorem keys_optionalMember (name : String) (value : Option String) :
    ((optionalMember name value).map Prod.fst).Sublist [name] := by
  cases value <;> simp [optionalMember]

theorem lookup_optionalMember (name other : String) (value : Option String) :
    (optionalMember name value).lookup other = if other = name then value.map str else none := by
  cases value with
  | none => simp [optionalMember]
  | some text =>
      by_cases h : other = name <;> simp [optionalMember, h, List.lookup_cons, beq_false_of_ne]

end Json

theorem Reader.nullable_optional (n : Nat) (value : Option String) :
    (value.map (string.nullable n ∘ Json.str)).getD (some none) = some value := by
  cases value <;> rfl

/-! ## Records -/

theorem Flag.recovers : Recovers read toJson :=
  .record (by simp) (by simp) (by simp [Record.required, Record.withDefault_eq, List.lookup_cons])

theorem Variable.recovers : Recovers read toJson :=
  .record (by simp) (by simp) (by simp [Record.required, Record.withDefault_eq, List.lookup_cons])

theorem AssetEntry.recovers : Recovers read toJson :=
  .record (by simp) (by simp) (by simp [Record.required, Record.withDefault_eq, List.lookup_cons])

theorem CommandGroup.recovers : Recovers read toJson := by
  refine .record (fun group => ?plain) (by simp) (fun n group => ?read)
  case plain =>
    simpa [Command.listToJson_eq_map] using Command.recovers.list.plain group.commands
  case read =>
    simp [Command.listToJson_eq_map, Record.required, Record.withDefault_eq, List.lookup_cons,
      Command.recovers.list.read]

theorem Scene.recovers : Recovers read toJson := by
  refine .record (fun scene => ?plain) (fun scene => ?distinct) (fun n scene => ?read)
  case plain =>
    simpa [Command.listToJson_eq_map, Json.plainMembers_append, Json.plainMembers_optionalMember]
      using Command.recovers.list.plain scene.commands
  case distinct =>
    have hnames : names.Nodup := by decide
    refine hnames.sublist ?_
    simp only [List.map_append]
    exact (((List.Sublist.refl _).append (Json.keys_optionalMember ..)).append
      (Json.keys_optionalMember ..)).append (.refl _)
  case read =>
    simp [Command.listToJson_eq_map, Record.required, Record.withDefault_eq, List.lookup_cons,
      List.lookup_append, Json.lookup_optionalMember, nullable_optional,
      Command.recovers.list.read, Json.membersDepth_append, Json.membersDepth_optionalMember]

theorem Settings.recovers : Recovers read toJson := by
  refine .record (fun settings => ?plain) (fun settings => ?distinct) (fun n settings => ?read)
  case plain =>
    simp [Json.plainMembers_append, Json.plainMembers_optionalMember]
  case distinct =>
    have hnames : names.Nodup := by decide
    refine hnames.sublist ?_
    simp only [List.map_append]
    exact ((((((List.Sublist.refl _).append (Json.keys_optionalMember ..)).append
      (Json.keys_optionalMember ..)).append (Json.keys_optionalMember ..)).append
      (Json.keys_optionalMember ..)).append (Json.keys_optionalMember ..)).append (.refl _)
  case read =>
    simp [Record.withDefault_eq, List.lookup_cons,
      List.lookup_append, Json.lookup_optionalMember, nullable_optional,
      Json.membersDepth_append, Json.membersDepth_optionalMember]

theorem Project.readResolution_pair (n : Nat) (width height : UInt32) :
    readResolution n (.arr [.nat width.toNat, .nat height.toNat]) = within 1 n (width, height) := by
  cases n with
  | zero => rfl
  | succ n => simp [readResolution, list]

theorem Project.recovers : Recovers read toJson := by
  refine .record (fun project => ?plain) (by simp) (fun n project => ?read)
  case plain =>
    simp [Json.plainItems_iff, Flag.recovers.plain, Variable.recovers.plain, Scene.recovers.plain,
      CommandGroup.recovers.plain, Settings.recovers.plain, AssetEntry.recovers.plain]
  case read =>
    simp [Record.withDefault_eq, List.lookup_cons, readResolution_pair, Flag.recovers.list.read,
      Variable.recovers.list.read, Scene.recovers.list.read, CommandGroup.recovers.list.read,
      Settings.recovers.read, AssetEntry.recovers.list.read]

end SceneScript
