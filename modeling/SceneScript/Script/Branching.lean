import SceneScript.Fault
/-!
# Choosing a branch

Conditions are tried from the first on until one holds; those behind it are never asked. The lookup
may be any effect, so that what is asked can be observed.
-/

namespace SceneScript

/-- Where conditions find the values of names. -/
structure Lookup (m : Type → Type) where
  flagValue : String → m (Option Bool)
  variableValue : String → m (Option UInt8)

/-- A lookup without effects. -/
abbrev Symbols := Lookup Id

/-- A question to a lookup. -/
structure Query where
  kind : SymbolKind
  name : String
  deriving DecidableEq, Repr, Inhabited

/-- The same values; each question is noted behind those before it. -/
def Lookup.noting (symbols : Symbols) : Lookup (StateM (List Query)) where
  flagValue name := do modify (· ++ [⟨.flag, name⟩]); return symbols.flagValue name
  variableValue name := do modify (· ++ [⟨.variable, name⟩]); return symbols.variableValue name

namespace Condition

variable {m : Type → Type} [Monad m]

/-- A condition on a flag compares it with a truth value for being equal or unequal. -/
def evaluateFlag (condition : Condition) (lookup : Lookup m) : m (Except Fault Bool) :=
  match condition.value with
  | .int value => pure (.error (.invalidCondition (.flagAgainstNumber condition.flagName value)))
  | .bool expected => do
    match ← lookup.flagValue condition.flagName with
    | none => return .error (.undefined .flag condition.flagName)
    | some value =>
      match condition.operator with
      | .eq => return .ok (value == expected)
      | .ne => return .ok (value != expected)
      | operator =>
        return .error (.invalidCondition (.flagOrdered condition.flagName operator))

/-- A condition on a variable compares it with a number. -/
def evaluateVariable (condition : Condition) (lookup : Lookup m) : m (Except Fault Bool) :=
  match condition.value with
  | .bool value =>
    pure (.error (.invalidCondition (.variableAgainstBool condition.variableName value)))
  | .int expected => do
    match ← lookup.variableValue condition.variableName with
    | none => return .error (.undefined .variable condition.variableName)
    | some value => return .ok (condition.operator.holds value.toNat expected.toInt)

/-- The last branch may be an `else`, which asks nothing and holds. -/
def evaluate (condition : Condition) (lookup : Lookup m) : m (Except Fault Bool) :=
  match condition.kind, condition.subject with
  | .else, _ => pure (.ok true)
  | _, .flag => condition.evaluateFlag lookup
  | _, .variable => condition.evaluateVariable lookup

/-- The place of the first condition that holds, counted from `place`. -/
def firstHolding (lookup : Lookup m) : List Condition → Index → m (Except Fault (Option Index))
  | [], _ => pure (.ok none)
  | condition :: rest, place => do
    match ← condition.evaluate lookup with
    | .ok true => return .ok (some place)
    | .ok false => firstHolding lookup rest (place + 1)
    | .error fault => return .error fault

/-- The kinds behind the first branch, which stands at `place`. -/
def checkLaterKinds : List BranchKind → Nat → Except BranchFault Unit
  | [], _ => .ok ()
  | .if :: _, place => .error (.repeatedIf (place + 1))
  | .else :: _ :: _, place => .error (.elseBeforeEnd (place + 1))
  | _ :: rest, place => checkLaterKinds rest (place + 1)

/-- One `if` comes first, and an `else` last. -/
def checkKinds : List BranchKind → Except BranchFault Unit
  | [] => .error .noBranch
  | .if :: rest => checkLaterKinds rest 1
  | _ :: _ => .error .firstIsNotIf

def checkStructure (conditions : List Condition) : Except Fault Unit :=
  (checkKinds (conditions.map (·.kind))).mapError .malformedBranch

/-- The place of the branch to run, if one holds. -/
def select (conditions : List Condition) (lookup : Lookup m) :
    m (Except Fault (Option Index)) :=
  match checkStructure conditions with
  | .ok () => firstHolding lookup conditions 0
  | .error fault => pure (.error fault)

end Condition
end SceneScript
