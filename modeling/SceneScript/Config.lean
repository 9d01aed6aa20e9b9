import SceneScript.Json.Parse
import SceneScript.Json.Read
import SceneScript.Text.Natural
/-!
# Configuration

What the command line says goes before the configuration file, and that goes before the defaults.
-/

namespace SceneScript

open Reader

/-- What is written to the log: everything down to a level. -/
inductive LogLevel where
  | trace | debug | info | warn | error
  deriving DecidableEq, Repr, Inhabited

namespace LogLevel

def name : LogLevel → String
  | trace => "TRACE" | debug => "DEBUG" | info => "INFO" | warn => "WARN" | error => "ERROR"

/-- The levels in the order of their numbers, which start at one. -/
def numbered : List LogLevel := [error, warn, info, debug, trace]

/-- A level by its number, or by its name in any case. -/
def ofText? (text : String) : Option LogLevel :=
  match Natural.ofText? text with
  | some number => if number = 0 then none else numbered[number - 1]?
  | none => numbered.find? fun level => level.name = text.toUpper

end LogLevel

structure Config where
  assetsDir : String := "assets"
  framesDir : String := "frames"
  logLevel : String := "info"
  frameIntervalMs : UInt64 := 100
  showSceneIndex : Bool := false
  deriving DecidableEq, Repr, Inhabited

/-- What the command line says. -/
structure Overrides where
  assetsDir : Option String := none
  framesDir : Option String := none
  logLevel : Option String := none
  frameIntervalMs : Option UInt64 := none
  showSceneIndex : Bool := false
  deriving DecidableEq, Repr, Inhabited

namespace Config

def names : List String :=
  ["assets_dir", "frames_dir", "log_level", "frame_interval_ms", "show_scene_index"]

def read : Reader Config := fun n tree => do
  let record ← Record.of? names n tree
  return {
    assetsDir := ← record.withDefault "assets_dir" string "assets"
    framesDir := ← record.withDefault "frames_dir" string "frames"
    logLevel := ← record.withDefault "log_level" string "info"
    frameIntervalMs := ← record.withDefault "frame_interval_ms" uint64 100
    showSceneIndex := ← record.withDefault "show_scene_index" bool false }

def toJson (config : Config) : Json :=
  .obj [("assets_dir", .str config.assetsDir), ("frames_dir", .str config.framesDir),
    ("log_level", .str config.logLevel), ("frame_interval_ms", .nat config.frameIntervalMs.toNat),
    ("show_scene_index", .bool config.showSceneIndex)]

def ofText? (text : String) : Option Config := (Json.parse? text).bind (read nesting)

/-- The command line can show the scene number, but not hide it. -/
def apply (config : Config) (overrides : Overrides) : Config where
  assetsDir := overrides.assetsDir.getD config.assetsDir
  framesDir := overrides.framesDir.getD config.framesDir
  logLevel := overrides.logLevel.getD config.logLevel
  frameIntervalMs := overrides.frameIntervalMs.getD config.frameIntervalMs
  showSceneIndex := config.showSceneIndex || overrides.showSceneIndex

def level? (config : Config) : Option LogLevel := LogLevel.ofText? config.logLevel

def invalidLevel (config : Config) : String := s!"无效的日志级别: {config.logLevel}"

end Config
end SceneScript
