/-!
# Commands of a script

A script is a list of commands. Branching commands hold lists of their own, so `Action` is
parametrised by the commands of its branches and `Command` closes the knot.
-/

namespace SceneScript

/-- The place of an item in a list, counted from zero in a 64-bit word. -/
abbrev Index := UInt64

namespace Index

/-- The most items that a list can hold: a list takes up fewer than 2⁶³ bytes of memory. -/
def capacity : Nat := 9223372036854775807

/-- The item at an index. Beyond the capacity of a list there is none. -/
def of? {α : Type} (index : Index) (items : List α) : Option α :=
  if index.toNat < capacity then items[index.toNat]? else none

end Index

/-! ## Variables -/

/-- Variables hold `0` to `255`. -/
inductive VariableOp where
  | set | add | subtract
  deriving DecidableEq, Repr, Inhabited

/-- The number of 64 bits that is nearest to a whole number. -/
def saturate (value : Int) : Int64 :=
  .ofInt (max Int64.minValue.toInt (min Int64.maxValue.toInt value))

/-- A variable stops at its bounds and never wraps. -/
def clampVariable (value : Int) : UInt8 := UInt8.ofNat (min value.toNat 255)

namespace VariableOp

/-- The result in 64 bits, before it is clamped. -/
def wide (op : VariableOp) (current : UInt8) (operand : Int64) : Int64 :=
  match op with
  | .set => operand
  | .add => saturate (current.toNat + operand.toInt)
  | .subtract => saturate (current.toNat - operand.toInt)

def apply (op : VariableOp) (current : UInt8) (operand : Int64) : UInt8 :=
  clampVariable (op.wide current operand).toInt

end VariableOp

/-! ## Sound -/

/-- The two looping tracks: background music and background sound. -/
inductive Track where
  | music | ambience
  deriving DecidableEq, Repr, Inhabited

/-- Volume and pitch are percentages. -/
structure TrackStart where
  source : String
  volume : UInt8 := 100
  pitch : UInt16 := 100
  deriving DecidableEq, Repr, Inhabited

structure TrackFade where
  targetVolume : UInt8
  durationMs : UInt32
  deriving DecidableEq, Repr, Inhabited

/-- A sound that plays once; `pan` runs from left to right. -/
structure SoundEffect where
  source : String
  volume : UInt8 := 100
  pitch : UInt16 := 100
  pan : Int16 := 0
  deriving DecidableEq, Repr, Inhabited

/-! ## Sprites -/

/-- A character picture is a strip of frames side by side. -/
structure FrameAnimation where
  frameCount : UInt32
  frameWidth : UInt32
  frameDurationMs : UInt32
  looping : Bool := true
  deriving DecidableEq, Repr, Inhabited

/-- The frame on show. Without frames or without a duration it is the first one for ever; without
looping the last one stays. -/
def FrameAnimation.frameAt (animation : FrameAnimation) (elapsedMs : UInt64) : UInt32 :=
  if animation.frameCount = 0 ∨ animation.frameDurationMs = 0 then 0
  else
    let step := elapsedMs.toNat / animation.frameDurationMs.toNat
    if animation.looping then .ofNat (step % animation.frameCount.toNat)
    else .ofNat (min step (animation.frameCount.toNat - 1))

/-! ## Choices -/

/-- An answer to a dialogue. An empty `setFlag` sets no flag. -/
structure Choice where
  text : String
  enableGoto : Bool := false
  goto : Index := 0
  setFlag : String := ""
  setFlagValue : Bool := false
  deriving DecidableEq, Repr, Inhabited

namespace Choice

def withGoto (choice : Choice) (scene : Index) : Choice :=
  { choice with enableGoto := true, goto := scene }

def withFlag (choice : Choice) (name : String) (value : Bool) : Choice :=
  { choice with setFlag := name, setFlagValue := value }

/-- The flag that the choice sets. -/
def flagEffect (choice : Choice) : Option (String × Bool) :=
  if choice.setFlag = "" then none else some (choice.setFlag, choice.setFlagValue)

end Choice

/-! ## Conditions -/

inductive BranchKind where
  | «if» | elseIf | «else»
  deriving DecidableEq, Repr, Inhabited

/-- What a name stands for. -/
inductive SymbolKind where
  | flag | variable
  deriving DecidableEq, Repr, Inhabited

inductive Comparison where
  | eq | ne | gt | lt | ge | le
  deriving DecidableEq, Repr, Inhabited

namespace Comparison

def symbol : Comparison → String
  | eq => "==" | ne => "!=" | gt => ">" | lt => "<" | ge => ">=" | le => "<="

/-- Flags have no order. -/
def appliesToFlags (op : Comparison) : Bool := op = eq ∨ op = ne

def holds (op : Comparison) (left right : Int) : Bool :=
  match op with
  | eq => left = right
  | ne => left ≠ right
  | gt => left > right
  | lt => left < right
  | ge => left ≥ right
  | le => left ≤ right

end Comparison

inductive Literal where
  | bool (value : Bool)
  | int (value : Int64)
  deriving DecidableEq, Repr, Inhabited

/-- The head of a branch. -/
structure Condition where
  kind : BranchKind
  subject : SymbolKind := .flag
  flagName : String := ""
  variableName : String := ""
  operator : Comparison := .eq
  value : Literal := .bool true
  deriving DecidableEq, Repr, Inhabited

/-- The name that the condition asks for. -/
def Condition.operand (condition : Condition) : String :=
  match condition.subject with
  | .flag => condition.flagName
  | .variable => condition.variableName

/-! ## Commands -/

structure Branch (α : Type) where
  condition : Condition
  body : List α
  deriving Repr

/-- What a command does. -/
inductive Action (α : Type) where
  | dialogue (speaker text : String) (choices : List Choice)
  | branching (label : String) (branches : List (Branch α))
  | setFlag (name : String) (value : Bool)
  | setVariable (name : String) (operation : VariableOp) (operand : Int64)
  | call (group : String)
  | goto (scene : Index) (withTransition : Bool)
  | startTrack (track : Track) (sound : TrackStart)
  | stopTrack (track : Track)
  | fadeTrack (track : Track) (fade : TrackFade)
  | playSound (sound : SoundEffect)
  | showCharacter (fadeMs : UInt32) (animation : Option FrameAnimation)
  | hideCharacter (fadeMs : UInt32)
  | showBackground (fadeMs : UInt32)
  | hideBackground (fadeMs : UInt32)
  deriving Repr

/-- The identifier serves the author; running a script does not ask for it. -/
structure Command where
  id : String
  action : Action Command

instance {α : Type} : Inhabited (Action α) := ⟨.setFlag "" false⟩

instance : Inhabited Command := ⟨⟨"", default⟩⟩

namespace Branch

/-- A branch on a flag. -/
def onFlag {α : Type} (kind : BranchKind) (name : String) (operator : Comparison) (value : Bool)
    (body : List α) : Branch α :=
  ⟨{ kind, flagName := name, operator, value := .bool value }, body⟩

/-- A branch on a variable. -/
def onVariable {α : Type} (kind : BranchKind) (name : String) (operator : Comparison)
    (value : Int64) (body : List α) : Branch α :=
  ⟨{ kind, subject := .variable, variableName := name, operator, value := .int value }, body⟩

def otherwise {α : Type} (body : List α) : Branch α := ⟨{ kind := .else }, body⟩

end Branch

namespace Command

def dialogue (id speaker text : String) (choices : List Choice) : Command :=
  ⟨id, .dialogue speaker text choices⟩

/-- Dialogues are the commands that a click or a choice answers. -/
def causesWait (command : Command) : Bool :=
  match command.action with
  | .dialogue .. => true
  | _ => false

/-- The answers of a dialogue. -/
def choices? (command : Command) : Option (List Choice) :=
  match command.action with
  | .dialogue _ _ choices => some choices
  | _ => none

end Command
end SceneScript
