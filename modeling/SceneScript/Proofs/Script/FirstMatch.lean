import SceneScript.Proofs.Script.Conditions

/-! # The first condition that holds

A choice of a branch first looks at the kinds of the branches alone. Then the conditions are tried
in order, up to the first one that is not false: it decides, and its operand is the last one that is
asked for. So nothing behind it matters, and no name that was not asked for.
-/

namespace SceneScript

/-! ## The order of the branches -/

namespace BranchKind

/-- One `if`, any number of `elseif`s, and perhaps an `else` at the end. -/
def InOrder (kinds : List BranchKind) : Prop :=
  ∃ count, kinds = .if :: .replicate count .elseIf ∨
    kinds = .if :: (.replicate count .elseIf ++ [.else])

variable {rest : List BranchKind}

theorem inOrder_if : InOrder [.if] := ⟨0, .inl rfl⟩

theorem inOrder_elseIf : InOrder (.if :: .elseIf :: rest) ↔ InOrder (.if :: rest) := by
  constructor
  · rintro ⟨_ | count, h | h⟩
    · simp at h
    · simp at h
    · exact ⟨count, .inl (by simpa [List.replicate_succ] using h)⟩
    · exact ⟨count, .inr (by simpa [List.replicate_succ] using h)⟩
  · rintro ⟨count, h | h⟩
    · exact ⟨count + 1, .inl (by simpa [List.replicate_succ] using h)⟩
    · exact ⟨count + 1, .inr (by simpa [List.replicate_succ] using h)⟩

theorem inOrder_else : InOrder (.if :: .else :: rest) ↔ rest = [] := by
  constructor
  · rintro ⟨_ | count, h | h⟩ <;> simp_all [List.replicate_succ]
  · rintro rfl
    exact ⟨0, .inr rfl⟩

theorem not_inOrder_if : ¬InOrder (.if :: .if :: rest) := by
  rintro ⟨_ | count, h | h⟩ <;> simp [List.replicate_succ] at h

theorem head_of_inOrder {kind : BranchKind} (h : InOrder (kind :: rest)) : kind = .if := by
  obtain ⟨count, h | h⟩ := h <;> exact (List.cons.inj h).1

end BranchKind

/-! ## Questions -/

namespace Lookup

/-- Both lookups give the same answer to the question. -/
def AnswersAlike (symbols other : Symbols) (query : Query) : Prop :=
  match query.kind with
  | .flag => other.flagValue query.name = symbols.flagValue query.name
  | .variable => other.variableValue query.name = symbols.variableValue query.name

variable {α : Type} (symbols : Symbols) (name : String) (log : List Query)

theorem run_noting_flag (next : Option Bool → StateM (List Query) α) :
    (symbols.noting.flagValue name >>= next).run log =
      (next (symbols.flagValue name)).run (log ++ [⟨.flag, name⟩]) := rfl

theorem run_noting_variable (next : Option UInt8 → StateM (List Query) α) :
    (symbols.noting.variableValue name >>= next).run log =
      (next (symbols.variableValue name)).run (log ++ [⟨.variable, name⟩]) := rfl

end Lookup

namespace Condition

open BranchKind

theorem checkLaterKinds_eq_ok {kinds : List BranchKind} {place : Nat} :
    checkLaterKinds kinds place = .ok () ↔ InOrder (.if :: kinds) := by
  induction kinds generalizing place with
  | nil => exact ⟨fun _ => inOrder_if, fun _ => rfl⟩
  | cons kind rest ih =>
      cases kind with
      | «if» => exact ⟨nofun, fun h => absurd h not_inOrder_if⟩
      | elseIf => exact ih.trans inOrder_elseIf.symm
      | «else» =>
          rw [inOrder_else]
          cases rest with
          | nil => exact ⟨fun _ => rfl, fun _ => rfl⟩
          | cons next rest => exact ⟨nofun, nofun⟩

theorem checkKinds_eq_ok {kinds : List BranchKind} : checkKinds kinds = .ok () ↔ InOrder kinds := by
  cases kinds with
  | nil =>
      refine ⟨nofun, ?_⟩
      rintro ⟨count, h | h⟩ <;> cases h
  | cons kind rest =>
      cases kind with
      | «if» => exact checkLaterKinds_eq_ok
      | elseIf | «else» => exact ⟨nofun, fun h => nomatch head_of_inOrder h⟩

theorem checkStructure_eq_ok {conditions : List Condition} :
    checkStructure conditions = .ok () ↔ InOrder (conditions.map (·.kind)) := by
  rw [← checkKinds_eq_ok, checkStructure]
  cases checkKinds (conditions.map (·.kind)) with
  | ok _ => exact ⟨fun _ => rfl, fun _ => rfl⟩
  | error cause => exact ⟨nofun, nofun⟩

/-! ## One condition -/

/-- The operand of a condition, as a question. -/
def subjectQuery (condition : Condition) : Query := ⟨condition.subject, condition.operand⟩

/-- What a condition asks when it is tried. An `else` asks nothing, and neither does a condition
whose value is of the wrong kind. -/
def query? (condition : Condition) : Option Query :=
  match condition.kind, condition.subject, condition.value with
  | .else, _, _ => none
  | _, .flag, .bool _ => some condition.subjectQuery
  | _, .variable, .int _ => some condition.subjectQuery
  | _, _, _ => none

theorem query?_eq_none_or (condition : Condition) :
    condition.query? = none ∨ condition.query? = some condition.subjectQuery := by
  unfold query?
  split <;> simp

section Noting

variable (condition : Condition) (symbols : Symbols) (log : List Query)

theorem run_evaluateFlag_noting :
    (condition.evaluateFlag symbols.noting).run log =
      (condition.evaluateFlag (m := Id) symbols,
        log ++ match condition.value with
          | .bool _ => [⟨.flag, condition.flagName⟩]
          | .int _ => []) := by
  unfold evaluateFlag
  cases condition.value with
  | int value => rw [List.append_nil]; rfl
  | bool expected =>
      dsimp only
      rw [Lookup.run_noting_flag]
      change _ = (match symbols.flagValue condition.flagName with | _ => _, _)
      cases symbols.flagValue condition.flagName with
      | none => rfl
      | some value => cases condition.operator <;> rfl

theorem run_evaluateVariable_noting :
    (condition.evaluateVariable symbols.noting).run log =
      (condition.evaluateVariable (m := Id) symbols,
        log ++ match condition.value with
          | .int _ => [⟨.variable, condition.variableName⟩]
          | .bool _ => []) := by
  unfold evaluateVariable
  cases condition.value with
  | bool value => rw [List.append_nil]; rfl
  | int expected =>
      dsimp only
      rw [Lookup.run_noting_variable]
      change _ = (match symbols.variableValue condition.variableName with | _ => _, _)
      cases symbols.variableValue condition.variableName <;> rfl

theorem run_evaluate_noting :
    (condition.evaluate symbols.noting).run log =
      (condition.evaluate (m := Id) symbols, log ++ condition.query?.toList) := by
  obtain ⟨kind, subject, flagName, variableName, operator, value⟩ := condition
  cases kind with
  | «else» => rw [show query? _ = none from rfl, Option.toList_none, List.append_nil]; rfl
  | «if» | elseIf =>
      cases subject with
      | flag =>
          apply (run_evaluateFlag_noting _ symbols log).trans
          cases value <;> rfl
      | «variable» =>
          apply (run_evaluateVariable_noting _ symbols log).trans
          cases value <;> rfl

end Noting

variable {condition : Condition} {symbols other : Symbols}

theorem evaluate_congr (h : ∀ query ∈ condition.query?, Lookup.AnswersAlike symbols other query) :
    condition.evaluate (m := Id) other = condition.evaluate (m := Id) symbols := by
  obtain ⟨kind, subject, flagName, variableName, operator, value⟩ := condition
  cases kind with
  | «else» => rfl
  | «if» | elseIf =>
      cases subject with
      | flag =>
          cases value with
          | int value => rfl
          | bool expected =>
              have hanswer : other.flagValue flagName = symbols.flagValue flagName := h _ rfl
              simp only [evaluate, evaluateFlag, hanswer]
      | «variable» =>
          cases value with
          | bool value => rfl
          | int expected =>
              have hanswer : other.variableValue variableName = symbols.variableValue variableName :=
                h _ rfl
              simp only [evaluate, evaluateVariable, hanswer]

theorem evaluate_ne_malformed {cause : BranchFault} :
    condition.evaluate (m := Id) symbols ≠ .error (.malformedBranch cause) := by
  obtain ⟨kind, subject, flagName, variableName, operator, value⟩ := condition
  cases kind with
  | «else» => nofun
  | «if» | elseIf =>
      cases subject with
      | flag =>
          cases value with
          | int value => nofun
          | bool expected =>
              simp only [evaluate, evaluateFlag, bind, pure]
              cases symbols.flagValue flagName with
              | none => nofun
              | some value => cases operator <;> nofun
      | «variable» =>
          cases value with
          | bool value => nofun
          | int expected =>
              simp only [evaluate, evaluateVariable, bind, pure]
              cases symbols.variableValue variableName <;> nofun

/-! ## The decisive condition -/

/-- The condition is false, so that the next one is tried. -/
def isFalse (symbols : Symbols) (condition : Condition) : Bool :=
  condition.evaluate (m := Id) symbols matches .ok false

theorem isFalse_iff :
    isFalse symbols condition ↔ condition.evaluate (m := Id) symbols = .ok false := by
  unfold isFalse
  split <;> simp_all

/-- The place of the first condition that is not false, or the end of the list. -/
def decisive (symbols : Symbols) (conditions : List Condition) : Nat :=
  conditions.findIdx fun condition => !condition.isFalse symbols

/-- The conditions up to the decisive one. -/
def tried (symbols : Symbols) (conditions : List Condition) : List Condition :=
  conditions.take (decisive symbols conditions + 1)

variable {rest : List Condition}

theorem decisive_cons_of_isFalse (h : isFalse symbols condition) :
    decisive symbols (condition :: rest) = decisive symbols rest + 1 := by
  simp [decisive, List.findIdx_cons, h]

theorem decisive_cons_of_not_isFalse (h : ¬isFalse symbols condition) :
    decisive symbols (condition :: rest) = 0 := by
  simp [decisive, List.findIdx_cons, h]

theorem tried_cons_of_isFalse (h : isFalse symbols condition) :
    tried symbols (condition :: rest) = condition :: tried symbols rest := by
  rw [tried, decisive_cons_of_isFalse h]
  rfl

theorem tried_cons_of_not_isFalse (h : ¬isFalse symbols condition) :
    tried symbols (condition :: rest) = [condition] := by
  rw [tried, decisive_cons_of_not_isFalse h]
  rfl

/-- What the conditions ask, one after the other. -/
def asked (conditions : List Condition) : List Query :=
  conditions.flatMap fun condition => condition.query?.toList

theorem asked_cons (condition : Condition) (rest : List Condition) :
    asked (condition :: rest) = condition.query?.toList ++ asked rest :=
  List.flatMap_cons

/-- The first condition is always tried. -/
theorem mem_asked_tried_cons {query : Query} (h : query ∈ condition.query?) :
    query ∈ asked (tried symbols (condition :: rest)) := by
  rw [tried, List.take_succ_cons, asked_cons]
  exact List.mem_append_left _ (Option.mem_toList.mpr h)

theorem asked_sublist (conditions : List Condition) :
    (asked conditions).Sublist (conditions.map subjectQuery) := by
  induction conditions with
  | nil => exact .slnil
  | cons condition rest ih =>
      rw [asked_cons, List.map_cons]
      rcases condition.query?_eq_none_or with h | h
      · rw [h]
        exact ih.cons condition.subjectQuery
      · rw [h]
        exact ih.cons_cons condition.subjectQuery

/-! ## Trying the conditions -/

theorem firstHolding_cons_of_isFalse (h : isFalse symbols condition) (place : Index) :
    firstHolding (m := Id) symbols (condition :: rest) place =
      firstHolding (m := Id) symbols rest (place + 1) := by
  simp only [firstHolding, isFalse_iff.mp h, bind]

theorem firstHolding_cons_of_not_isFalse (h : ¬isFalse symbols condition) (place : Index) :
    firstHolding (m := Id) symbols (condition :: rest) place =
      (condition.evaluate (m := Id) symbols).map fun _ => some place := by
  rw [isFalse_iff] at h
  simp only [firstHolding, bind]
  split
  · next heq => rw [heq]; rfl
  · next heq => exact absurd heq h
  · next heq => rw [heq]; rfl

/-- All that is asked are the questions of the conditions that are tried. -/
theorem run_firstHolding_noting (conditions : List Condition) (symbols : Symbols) (place : Index)
    (log : List Query) :
    (firstHolding symbols.noting conditions place).run log =
      (firstHolding (m := Id) symbols conditions place,
        log ++ asked (tried symbols conditions)) := by
  induction conditions generalizing place log with
  | nil => exact congrArg (Prod.mk _) (List.append_nil log).symm
  | cons condition rest ih =>
      rw [firstHolding, StateT.run_bind, run_evaluate_noting]
      by_cases h : isFalse symbols condition
      · rw [firstHolding_cons_of_isFalse h, tried_cons_of_isFalse h, isFalse_iff.mp h,
          asked_cons, ← List.append_assoc]
        exact ih (place + 1) (log ++ condition.query?.toList)
      · rw [firstHolding_cons_of_not_isFalse h, tried_cons_of_not_isFalse h, asked_cons,
          asked, List.flatMap_nil, List.append_nil]
        rw [isFalse_iff] at h
        cases hverdict : condition.evaluate (m := Id) symbols with
        | error fault => rfl
        | ok holds =>
            cases holds with
            | true => rfl
            | false => exact absurd hverdict h

/-- The decisive condition is taken if it holds, and else it has failed. -/
theorem firstHolding_eq (conditions : List Condition) (symbols : Symbols) (place : Index) :
    firstHolding (m := Id) symbols conditions place =
      match conditions[decisive symbols conditions]? with
      | some condition => (condition.evaluate (m := Id) symbols).map fun _ =>
          some (place + .ofNat (decisive symbols conditions))
      | none => .ok none := by
  induction conditions generalizing place with
  | nil => rfl
  | cons condition rest ih =>
      by_cases h : isFalse symbols condition
      · have hplace : place + 1 + .ofNat (decisive symbols rest) =
            place + .ofNat (decisive symbols rest + 1) := by
          rw [UInt64.ofNat_add, UInt64.add_assoc, UInt64.add_comm 1]
          rfl
        rw [firstHolding_cons_of_isFalse h, ih, hplace, decisive_cons_of_isFalse h,
          List.getElem?_cons_succ]
      · rw [firstHolding_cons_of_not_isFalse h, decisive_cons_of_not_isFalse h,
          List.getElem?_cons_zero]
        exact congrArg (fun first => Except.map (fun _ => some first) _) (UInt64.add_zero place).symm

/-- Neither the conditions behind the decisive one nor other names have a say. -/
theorem firstHolding_congr {conditions others : List Condition} (place : Index)
    (hlength : others.length = conditions.length)
    (htried : (tried symbols conditions).IsPrefix others)
    (hasked : ∀ query ∈ asked (tried symbols conditions),
      Lookup.AnswersAlike symbols other query) :
    firstHolding (m := Id) other others place =
      firstHolding (m := Id) symbols conditions place := by
  induction conditions generalizing others place with
  | nil =>
      rw [List.length_nil, List.length_eq_zero_iff] at hlength
      rw [hlength]
      rfl
  | cons condition rest ih =>
      have hfirst : ∀ query ∈ condition.query?, Lookup.AnswersAlike symbols other query :=
        fun query hquery => hasked query (mem_asked_tried_cons hquery)
      have hsame := evaluate_congr hfirst
      by_cases h : isFalse symbols condition
      · rw [tried_cons_of_isFalse h] at htried hasked
        obtain ⟨later, rfl⟩ := htried
        have h' : isFalse other condition := by
          rw [isFalse_iff, hsame]
          exact isFalse_iff.mp h
        rw [List.cons_append, firstHolding_cons_of_isFalse h', firstHolding_cons_of_isFalse h]
        apply ih
        · exact Nat.succ.inj hlength
        · exact List.prefix_append ..
        · intro query hquery
          apply hasked
          rw [asked_cons]
          exact List.mem_append_right _ hquery
      · rw [tried_cons_of_not_isFalse h] at htried
        obtain ⟨later, rfl⟩ := htried
        have h' : ¬isFalse other condition := by
          rw [isFalse_iff, hsame, ← isFalse_iff]
          exact h
        rw [List.singleton_append, firstHolding_cons_of_not_isFalse h',
          firstHolding_cons_of_not_isFalse h, hsame]

/-! ## Choosing a branch -/

theorem select_of_inOrder {m : Type → Type} [Monad m] {conditions : List Condition}
    (h : InOrder (conditions.map (·.kind))) (lookup : Lookup m) :
    select conditions lookup = firstHolding lookup conditions 0 := by
  rw [select, checkStructure_eq_ok.mpr h]

/-- The kinds alone decide whether and how the branches are malformed. -/
theorem exists_select_of_not_inOrder {kinds : List BranchKind} (h : ¬InOrder kinds) :
    ∃ cause, ∀ conditions : List Condition, conditions.map (·.kind) = kinds →
      ∀ {m : Type → Type} [Monad m] (lookup : Lookup m),
        select conditions lookup = pure (.error (.malformedBranch cause)) := by
  cases hkinds : checkKinds kinds with
  | ok _ => exact absurd (checkKinds_eq_ok.mp hkinds) h
  | error cause =>
      refine ⟨cause, ?_⟩
      rintro conditions rfl m _ lookup
      rw [select, checkStructure, hkinds]
      rfl

/-- Branches in order are never called malformed. -/
theorem select_ne_malformed {conditions : List Condition} (h : InOrder (conditions.map (·.kind)))
    (symbols : Symbols) (cause : BranchFault) :
    select (m := Id) conditions symbols ≠ .error (.malformedBranch cause) := by
  intro hselect
  rw [select_of_inOrder h] at hselect
  obtain ⟨condition, -, hfails⟩ := firstHolding_error hselect
  exact evaluate_ne_malformed hfails

/-- What a choice of a branch comes to, and which questions it asks. -/
structure SelectsFirst (symbols : Symbols) (conditions : List Condition)
    (result : Except Fault (Option Index)) (questions : List Query) : Prop where
  malformed_iff : (∃ cause, result = .error (.malformedBranch cause)) ↔
    ¬InOrder (conditions.map (·.kind))
  holds : InOrder (conditions.map (·.kind)) →
    ∀ condition ∈ conditions[decisive symbols conditions]?,
      condition.evaluate (m := Id) symbols = .ok true →
        result = .ok (some (.ofNat (decisive symbols conditions)))
  fails : InOrder (conditions.map (·.kind)) →
    ∀ condition ∈ conditions[decisive symbols conditions]?, ∀ fault,
      condition.evaluate (m := Id) symbols = .error fault → result = .error fault
  exhausted : InOrder (conditions.map (·.kind)) →
    conditions[decisive symbols conditions]? = none → result = .ok none
  silent : ¬InOrder (conditions.map (·.kind)) → questions = []
  questions_sublist : questions.Sublist ((tried symbols conditions).map subjectQuery)
  /-- Later conditions may be others of the same kinds, and all other names may have any values. -/
  congr : ∀ (others : List Condition) (other : Symbols),
    others.map (·.kind) = conditions.map (·.kind) → (tried symbols conditions).IsPrefix others →
      (∀ query ∈ questions, Lookup.AnswersAlike symbols other query) →
        select (m := Id) others other = result

theorem selectsFirst_of_inOrder {conditions : List Condition}
    (h : InOrder (conditions.map (·.kind))) (symbols : Symbols) :
    SelectsFirst symbols conditions (select (m := Id) conditions symbols)
      (asked (tried symbols conditions)) := by
  have hselect := select_of_inOrder h symbols
  have heq := firstHolding_eq conditions symbols 0
  constructor
  case malformed_iff =>
    refine ⟨?_, fun hnot => absurd h hnot⟩
    rintro ⟨cause, hmalformed⟩
    exact absurd hmalformed (select_ne_malformed h symbols cause)
  case holds =>
    intro _ condition hcondition hholds
    rw [hselect, heq, hcondition]
    simp only [hholds, UInt64.zero_add]
    rfl
  case fails =>
    intro _ condition hcondition fault hfails
    rw [hselect, heq, hcondition]
    simp only [hfails]
    rfl
  case exhausted =>
    intro _ hnone
    rw [hselect, heq, hnone]
  case silent => exact fun hnot => absurd h hnot
  case questions_sublist => exact asked_sublist (tried symbols conditions)
  case congr =>
    intro others other hkinds htried hasked
    have hlength : others.length = conditions.length := by
      simpa using congrArg List.length hkinds
    rw [hselect, select_of_inOrder (hkinds ▸ h)]
    exact firstHolding_congr 0 hlength htried hasked

theorem selectsFirst_of_not_inOrder {conditions : List Condition}
    (h : ¬InOrder (conditions.map (·.kind))) (symbols : Symbols) :
    SelectsFirst symbols conditions (select (m := Id) conditions symbols) [] := by
  obtain ⟨cause, hmalformed⟩ := exists_select_of_not_inOrder h
  have hselect := hmalformed conditions rfl symbols
  constructor
  case malformed_iff => exact ⟨fun _ => h, fun _ => ⟨cause, hselect⟩⟩
  case holds | fails | exhausted => exact fun horder => absurd horder h
  case silent => exact fun _ => rfl
  case questions_sublist => exact List.nil_sublist _
  case congr =>
    intro others other hkinds _ _
    rw [hselect, hmalformed others hkinds]

/-- A branch is chosen by the first condition that is not false. -/
theorem select_first (conditions : List Condition) (symbols : Symbols) :
    ∃ questions, (select conditions symbols.noting).run [] =
        (select (m := Id) conditions symbols, questions) ∧
      SelectsFirst symbols conditions (select (m := Id) conditions symbols) questions := by
  by_cases horder : InOrder (conditions.map (·.kind))
  · refine ⟨asked (tried symbols conditions), ?_, selectsFirst_of_inOrder horder symbols⟩
    rw [select_of_inOrder horder, select_of_inOrder horder, run_firstHolding_noting,
      List.nil_append]
  · obtain ⟨cause, hmalformed⟩ := exists_select_of_not_inOrder horder
    refine ⟨[], ?_, selectsFirst_of_not_inOrder horder symbols⟩
    rw [hmalformed conditions rfl, hmalformed conditions rfl]
    rfl

/-- The third condition could only fail, but the second one holds. -/
example :
    (select [{ kind := .if, flagName := "met" },
        { kind := .elseIf, subject := .variable, variableName := "hp", value := .int 7 },
        { kind := .elseIf, flagName := "brave", operator := .lt }]
      (Lookup.noting ⟨fun _ => some false, fun _ => some 7⟩)).run [] =
      (.ok (some 1), [⟨.flag, "met"⟩, ⟨.variable, "hp"⟩]) := by
  rfl

end Condition
end SceneScript
