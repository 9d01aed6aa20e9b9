import SceneScript.Script.Branching

/-! # Conditions and known names

Whether a condition can be judged depends on the names that are known, and not on their values.
-/

namespace SceneScript

/-! ## Known names -/

/-- Two lookups know the same names. -/
structure Lookup.SameNames (symbols other : Symbols) : Prop where
  flags : ∀ name, Option.isSome (symbols.flagValue name) = Option.isSome (other.flagValue name)
  vars : ∀ name,
    Option.isSome (symbols.variableValue name) = Option.isSome (other.variableValue name)

namespace Lookup.SameNames

variable {symbols other third : Symbols}

theorem refl (symbols : Symbols) : SameNames symbols symbols := ⟨fun _ => rfl, fun _ => rfl⟩

theorem symm (h : SameNames symbols other) : SameNames other symbols :=
  ⟨fun name => (h.flags name).symm, fun name => (h.vars name).symm⟩

theorem trans (h : SameNames symbols other) (h' : SameNames other third) :
    SameNames symbols third :=
  ⟨fun name => (h.flags name).trans (h'.flags name),
    fun name => (h.vars name).trans (h'.vars name)⟩

end Lookup.SameNames

namespace Condition

variable {condition : Condition} {symbols other : Symbols} {fault : Fault}

theorem evaluateFlag_error (hsame : Lookup.SameNames symbols other)
    (h : condition.evaluateFlag (m := Id) symbols = .error fault) :
    condition.evaluateFlag (m := Id) other = .error fault := by
  unfold evaluateFlag at h ⊢
  cases hvalue : condition.value with
  | int value => simpa [hvalue] using h
  | bool expected =>
      have hnames := hsame.flags condition.flagName
      simp only [hvalue, bind, pure] at h ⊢
      cases hsymbols : symbols.flagValue condition.flagName with
      | none =>
          have hother : other.flagValue condition.flagName = (none : Option Bool) := by
            simpa [hsymbols] using hnames.symm
          simpa [hsymbols, hother] using h
      | some value =>
          obtain ⟨value', hother⟩ : ∃ value', other.flagValue condition.flagName = some value' :=
            Option.isSome_iff_exists.mp (by simpa [hsymbols] using hnames.symm)
          simp only [hsymbols] at h
          simp only [hother]
          cases hop : condition.operator <;> simp_all

theorem evaluateVariable_error (hsame : Lookup.SameNames symbols other)
    (h : condition.evaluateVariable (m := Id) symbols = .error fault) :
    condition.evaluateVariable (m := Id) other = .error fault := by
  unfold evaluateVariable at h ⊢
  cases hvalue : condition.value with
  | bool value => simpa [hvalue] using h
  | int expected =>
      have hnames := hsame.vars condition.variableName
      simp only [hvalue, bind, pure] at h ⊢
      cases hsymbols : symbols.variableValue condition.variableName with
      | none =>
          have hother : other.variableValue condition.variableName = (none : Option UInt8) := by
            simpa [hsymbols] using hnames.symm
          simpa [hsymbols, hother] using h
      | some value => simp [hsymbols] at h

/-- A condition fails alike wherever the same names are known. -/
theorem evaluate_error (hsame : Lookup.SameNames symbols other)
    (h : condition.evaluate (m := Id) symbols = .error fault) :
    condition.evaluate (m := Id) other = .error fault := by
  unfold evaluate at h ⊢
  split at h
  · exact absurd h nofun
  · exact evaluateFlag_error hsame h
  · exact evaluateVariable_error hsame h

/-! ## The chosen branch -/

theorem firstHolding_error {conditions : List Condition} {place : Index}
    (h : firstHolding (m := Id) symbols conditions place = .error fault) :
    ∃ condition ∈ conditions, condition.evaluate (m := Id) symbols = .error fault := by
  induction conditions generalizing place with
  | nil => exact absurd h nofun
  | cons condition rest ih =>
      simp only [firstHolding, bind] at h
      split at h
      · exact absurd h nofun
      · obtain ⟨later, hmem, hlater⟩ := ih h
        exact ⟨later, List.mem_cons_of_mem _ hmem, hlater⟩
      · next cause hfirst =>
          cases h
          exact ⟨condition, List.mem_cons_self, hfirst⟩

/-- The place that is found is one of the list; places that wrap only become smaller. -/
theorem firstHolding_lt {conditions : List Condition} {place chosen : Index}
    (h : firstHolding (m := Id) symbols conditions place = .ok (some chosen)) :
    chosen.toNat < place.toNat + conditions.length := by
  induction conditions generalizing place with
  | nil => exact absurd h nofun
  | cons condition rest ih =>
      simp only [firstHolding, bind] at h
      split at h
      · cases h
        simp
      · have hnext := ih h
        have hwrap : (place + 1).toNat ≤ place.toNat + 1 := by
          rw [UInt64.toNat_add]
          exact Nat.mod_le _ _
        rw [List.length_cons]
        omega
      · exact absurd h nofun

/-- A choice of a branch fails by the order of the branches or by a condition. -/
theorem select_error {conditions : List Condition}
    (h : select (m := Id) conditions symbols = .error fault) :
    checkStructure conditions = .error fault ∨
      ∃ condition ∈ conditions, condition.evaluate (m := Id) symbols = .error fault := by
  unfold select at h
  split at h
  · exact .inr (firstHolding_error h)
  · next cause hstructure =>
      cases h
      exact .inl hstructure

theorem select_lt {conditions : List Condition} {chosen : Index}
    (h : select (m := Id) conditions symbols = .ok (some chosen)) :
    chosen.toNat < conditions.length := by
  unfold select at h
  split at h
  · simpa using firstHolding_lt h
  · exact absurd h nofun

end Condition
end SceneScript
