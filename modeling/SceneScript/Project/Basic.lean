import SceneScript.Script.Basic
/-!
# Projects

A project is everything that one story is made of. Flags and variables are referred to by name,
groups and pictures by identifier, scenes by index; of several with one name or identifier the first
is meant.
-/

namespace SceneScript

/-- The canvas that every picture is composed for. -/
def canvasWidth : UInt32 := 256
def canvasHeight : UInt32 := 192

structure Flag where
  id : String
  name : String
  value : Bool := false
  deriving DecidableEq, Repr, Inhabited

structure Variable where
  id : String
  name : String
  value : UInt8 := 0
  deriving DecidableEq, Repr, Inhabited

/-- A background picture goes before the background colour. -/
structure Scene where
  id : String
  name : String := ""
  backgroundColor : String := "#000000"
  backgroundId : Option String := none
  characterId : Option String := none
  characterVisible : Bool := true
  commands : List Command := []
  deriving Inhabited

/-- Commands that run in place of each call of the group. -/
structure CommandGroup where
  id : String
  name : String := ""
  commands : List Command := []
  deriving Inhabited

/-- A picture that scenes refer to; `image` is its handle or its data. -/
structure AssetEntry where
  id : String
  name : String := ""
  image : String := ""
  deriving DecidableEq, Repr, Inhabited

structure Settings where
  scale : UInt32 := 2
  font : String := "default"
  customFont : Option String := none
  messageBoxImage : Option String := none
  nameBoxImage : Option String := none
  choiceBoxImage : Option String := none
  transitionImage : Option String := none
  transitionDurationMs : UInt64 := 800
  deriving DecidableEq, Repr, Inhabited

structure Project where
  title : String := ""
  resolution : UInt32 × UInt32 := (canvasWidth, canvasHeight)
  flags : List Flag := []
  vars : List Variable := []
  scenes : List Scene := []
  sharedCommands : List CommandGroup := []
  settings : Settings := {}
  characters : List AssetEntry := []
  backgrounds : List AssetEntry := []
  deriving Inhabited

namespace Project

variable (project : Project)

def scene? (index : Index) : Option Scene := Index.of? index project.scenes

def findGroup? (id : String) : Option CommandGroup := project.sharedCommands.find? (·.id == id)

def findFlag? (name : String) : Option Flag := project.flags.find? (·.name == name)

def findVariable? (name : String) : Option Variable := project.vars.find? (·.name == name)

def findCharacter? (id : String) : Option AssetEntry := project.characters.find? (·.id == id)

def findBackground? (id : String) : Option AssetEntry := project.backgrounds.find? (·.id == id)

end Project
end SceneScript
