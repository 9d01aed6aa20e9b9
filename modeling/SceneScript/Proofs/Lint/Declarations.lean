import SceneScript.Proofs.Lint.Soundness

/-! # Names with several declarations

A review takes a name for its first declaration, and a run starts with its last one. The two judge
all conditions alike exactly if these declarations give the same value to each name.
-/

namespace SceneScript

/-! ## First and last declarations -/

namespace Project

variable (project : Project) (name : String)

/-- The declarations of a flag, in the order of the project. -/
def flagsNamed : List Flag := project.flags.filter (·.name == name)

def variablesNamed : List Variable := project.vars.filter (·.name == name)

theorem declared_flagValue :
    project.declared.flagValue name = ((project.flagsNamed name).head?.map (·.value)) := by
  rw [flagsNamed, List.head?_filter]
  rfl

theorem declared_variableValue :
    project.declared.variableValue name = ((project.variablesNamed name).head?.map (·.value)) := by
  rw [variablesNamed, List.head?_filter]
  rfl

end Project

namespace State

variable (project : Project) (name : String)

theorem initial_flagValue :
    (initial project).symbols.flagValue name =
      (project.flagsNamed name).getLast?.map (·.value) :=
  Table.find?_ofList_map project.flags (·.name) (·.value) name

theorem initial_variableValue :
    (initial project).symbols.variableValue name =
      (project.variablesNamed name).getLast?.map (·.value) :=
  Table.find?_ofList_map project.vars (·.name) (·.value) name

end State

/-! ## Conditions that ask for one value -/

namespace Condition

variable {symbols other : Symbols} {name : String}

/-- Asks whether a flag is set. -/
def isSet (name : String) : Condition := { kind := .if, flagName := name }

/-- Asks whether a variable has a value. -/
def hasValue (name : String) (value : UInt8) : Condition where
  kind := .if
  subject := .variable
  variableName := name
  value := .int (.ofNat value.toNat)

theorem toOption_evaluate_isSet (symbols : Symbols) (name : String) :
    Except.toOption ((isSet name).evaluate (m := Id) symbols) = symbols.flagValue name := by
  simp only [isSet, evaluate, evaluateFlag, bind, pure]
  cases (symbols.flagValue name : Option Bool) with
  | none => rfl
  | some value => cases value <;> rfl

theorem toOption_evaluate_hasValue (symbols : Symbols) (name : String) (value : UInt8) :
    Except.toOption ((hasValue name value).evaluate (m := Id) symbols) =
      (symbols.variableValue name : Option UInt8).map (· == value) := by
  have hword : (Int64.ofNat value.toNat).toInt = value.toNat := by
    have hlt := value.toNat_lt
    exact Int64.toInt_ofNat_of_lt (by omega)
  simp only [hasValue, evaluate, evaluateVariable, bind, pure]
  cases (symbols.variableValue name : Option UInt8) with
  | none => rfl
  | some found =>
      simp only [Comparison.holds, hword, Int.natCast_inj, UInt8.toNat_inj]
      rfl

theorem flagValue_eq (h : ∀ condition : Condition,
    condition.evaluate (m := Id) symbols = condition.evaluate (m := Id) other) :
    symbols.flagValue name = other.flagValue name := by
  rw [← toOption_evaluate_isSet, h, toOption_evaluate_isSet]

/-- Asking for the value that one lookup gives shows that the other gives it too. -/
theorem variableValue_eq (h : ∀ condition : Condition,
    condition.evaluate (m := Id) symbols = condition.evaluate (m := Id) other) :
    symbols.variableValue name = other.variableValue name := by
  have hasked (value : UInt8) : (symbols.variableValue name : Option UInt8).map (· == value) =
      (other.variableValue name : Option UInt8).map (· == value) := by
    rw [← toOption_evaluate_hasValue, h, toOption_evaluate_hasValue]
  cases hleft : (symbols.variableValue name : Option UInt8) with
  | none =>
      have hnone := hasked 0
      rw [hleft] at hnone
      exact (Option.map_eq_none_iff.mp hnone.symm).symm
  | some value =>
      have hsome := hasked value
      rw [hleft, Option.map_some, beq_self_eq_true] at hsome
      obtain ⟨found, hfound, heq⟩ := Option.map_eq_some_iff.mp hsome.symm
      exact (hfound.trans (congrArg some (eq_of_beq heq))).symm

theorem eq_of_values (hflags : ∀ name, symbols.flagValue name = other.flagValue name)
    (hvars : ∀ name, symbols.variableValue name = other.variableValue name) : symbols = other := by
  obtain ⟨flagValue, variableValue⟩ := symbols
  obtain ⟨flagValue', variableValue'⟩ := other
  obtain rfl : flagValue = flagValue' := funext hflags
  obtain rfl : variableValue = variableValue' := funext hvars
  rfl

/-- Conditions tell apart any two lookups. -/
theorem forall_evaluate_eq_iff :
    (∀ condition : Condition,
      condition.evaluate (m := Id) symbols = condition.evaluate (m := Id) other) ↔
      symbols = other := by
  constructor
  · intro h
    exact eq_of_values (fun _ => flagValue_eq h) (fun _ => variableValue_eq h)
  · rintro rfl condition
    rfl

end Condition

/-! ## Projects that give each name one value -/

/-- The first and the last declaration of each name give it the same value. -/
structure Project.OneValued (project : Project) : Prop where
  flags : ∀ name, (project.flagsNamed name).head?.map (·.value) =
    (project.flagsNamed name).getLast?.map (·.value)
  vars : ∀ name, (project.variablesNamed name).head?.map (·.value) =
    (project.variablesNamed name).getLast?.map (·.value)

theorem head?_filter_of_nodup {ι : Type} {items : List ι} {key : ι → String}
    (h : (items.map key).Nodup) (name : String) :
    (items.filter (key · == name)).head? = (items.filter (key · == name)).getLast? := by
  have hnodup : ((items.filter (key · == name)).map key).Nodup :=
    h.sublist (List.filter_sublist.map key)
  have hkeys : ∀ item ∈ items.filter (key · == name), key item = name := by
    intro item hitem
    exact eq_of_beq (List.mem_filter.mp hitem).2
  cases hitems : items.filter (key · == name) with
  | nil => rfl
  | cons first rest =>
      cases rest with
      | nil => rfl
      | cons second rest =>
          rw [hitems] at hnodup hkeys
          have hsame : key first = key second := by
            rw [hkeys first (by simp), hkeys second (by simp)]
          simp [hsame] at hnodup

theorem Project.oneValued_of_nodup {project : Project}
    (hflags : (project.flags.map (·.name)).Nodup) (hvars : (project.vars.map (·.name)).Nodup) :
    project.OneValued := by
  constructor
  · intro name
    exact congrArg (Option.map _) (head?_filter_of_nodup hflags name)
  · intro name
    exact congrArg (Option.map _) (head?_filter_of_nodup hvars name)

theorem State.symbols_initial_eq_iff (project : Project) :
    (initial project).symbols = project.declared ↔ project.OneValued := by
  constructor
  · intro h
    constructor
    · intro name
      rw [← Project.declared_flagValue, ← initial_flagValue, h]
    · intro name
      rw [← Project.declared_variableValue, ← initial_variableValue, h]
  · intro h
    refine Condition.eq_of_values ?_ ?_
    · intro name
      rw [initial_flagValue, Project.declared_flagValue, h.flags]
    · intro name
      rw [initial_variableValue, Project.declared_variableValue, h.vars]

/-- A review and a new run know the same names, those that are declared. The review gives each the
value of its first declaration, and the run that of its last one. So they agree, on every name and on
every condition, exactly if the two declarations give the same value. -/
theorem State.initial_agrees_iff (project : Project) :
    Lookup.SameNames (initial project).symbols project.declared ∧
      (∀ name, project.declared.flagValue name = (project.flagsNamed name).head?.map (·.value) ∧
        (initial project).symbols.flagValue name =
          (project.flagsNamed name).getLast?.map (·.value)) ∧
      (∀ name,
        project.declared.variableValue name = (project.variablesNamed name).head?.map (·.value) ∧
        (initial project).symbols.variableValue name =
          (project.variablesNamed name).getLast?.map (·.value)) ∧
      ((initial project).symbols = project.declared ↔ project.OneValued) ∧
      ((∀ condition : Condition, condition.evaluate (m := Id) (initial project).symbols =
        condition.evaluate (m := Id) project.declared) ↔ project.OneValued) := by
  have hsymbols := symbols_initial_eq_iff project
  refine ⟨sameNames_initial project, ?_, ?_, hsymbols, ?_⟩
  · intro name
    exact ⟨project.declared_flagValue name, initial_flagValue project name⟩
  · intro name
    exact ⟨project.declared_variableValue name, initial_variableValue project name⟩
  · exact Condition.forall_evaluate_eq_iff.trans hsymbols

/-! ## Two doors -/

/-- The door is declared open, then closed. -/
def twoDoors : Project := { flags := [⟨"1", "door", true⟩, ⟨"2", "door", false⟩] }

theorem not_agrees_twoDoors :
    twoDoors.declared.flagValue "door" = some true ∧
      (State.initial twoDoors).symbols.flagValue "door" = some false ∧
      (Condition.isSet "door").evaluate (m := Id) twoDoors.declared = .ok true ∧
      (Condition.isSet "door").evaluate (m := Id) (State.initial twoDoors).symbols =
        .ok false :=
  ⟨rfl, rfl, rfl, rfl⟩

end SceneScript
