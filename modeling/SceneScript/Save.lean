import SceneScript.Run.Codec
import SceneScript.Json.Print
/-!
# Saved games

A saved game holds the state of a run and the version of its format. Games of another major version
are refused.
-/

namespace SceneScript

open Reader

structure SaveVersion where
  major : UInt32
  minor : UInt32
  deriving DecidableEq, Repr, Inhabited

namespace SaveVersion

def current : SaveVersion := ⟨1, 0⟩

def isCompatible (version : SaveVersion) : Bool := version.major = current.major

def text (version : SaveVersion) : String := s!"{version.major}.{version.minor}"

def toJson (version : SaveVersion) : Json :=
  .obj [("major", .nat version.major.toNat), ("minor", .nat version.minor.toNat)]

def read : Reader SaveVersion := fun n tree => do
  let record ← Record.of? ["major", "minor"] n tree
  return ⟨← record.required "major" uint32, ← record.required "minor" uint32⟩

end SaveVersion

/-- The time is in seconds and comes from outside; the scene is for display. -/
structure SaveMetadata where
  slot : UInt32
  timestamp : UInt64
  scene : Index
  deriving DecidableEq, Repr, Inhabited

namespace SaveMetadata

def toJson (metadata : SaveMetadata) : Json :=
  .obj [("slot", .nat metadata.slot.toNat), ("timestamp", .nat metadata.timestamp.toNat),
    ("scene_index", .ofIndex metadata.scene)]

def read : Reader SaveMetadata := fun n tree => do
  let record ← Record.of? ["slot", "timestamp", "scene_index"] n tree
  return ⟨← record.required "slot" uint32, ← record.required "timestamp" uint64,
    ← record.required "scene_index" uint64⟩

end SaveMetadata

structure Save where
  version : SaveVersion
  metadata : SaveMetadata
  state : State
  deriving DecidableEq, Inhabited

/-- Why a text is no saved game. -/
inductive SaveError where
  | unreadable
  | incompatible (version : SaveVersion)
  deriving DecidableEq, Repr, Inhabited

def SaveError.message : SaveError → String
  | unreadable => "反序列化失败"
  | incompatible version =>
    s!"存档版本不兼容: 存档版本 {version.text} vs 当前版本 {SaveVersion.current.text}"

namespace Save

def ofState (slot : UInt32) (timestamp : UInt64) (state : State) : Save :=
  ⟨.current, ⟨slot, timestamp, state.position.scene⟩, state⟩

def capture (slot : UInt32) (timestamp : UInt64) (interpreter : Interpreter) : Save :=
  ofState slot timestamp interpreter.state

def restore (save : Save) : Interpreter := .restore save.state

def toJson (save : Save) : Json :=
  .obj [("version", save.version.toJson), ("metadata", save.metadata.toJson),
    ("runtime_state", save.state.toJson)]

def read : Reader Save := fun n tree => do
  let record ← Record.of? ["version", "metadata", "runtime_state"] n tree
  return ⟨← record.required "version" SaveVersion.read,
    ← record.required "metadata" SaveMetadata.read, ← record.required "runtime_state" State.read⟩

def toText (save : Save) : String := save.toJson.pretty

def ofTree (tree : Json) : Except SaveError Save :=
  match read nesting tree with
  | none => .error .unreadable
  | some save => if save.version.isCompatible then .ok save else .error (.incompatible save.version)

def ofText (text : String) : Except SaveError Save :=
  match Json.parse? text with
  | some tree => ofTree tree
  | none => .error .unreadable

end Save
end SceneScript
