import SceneScript.Proofs.Run.Agreement
import SceneScript.Proofs.Run.Behind
import SceneScript.Proofs.Run.Drive

/-! # Runs that count beyond the last index

An index at which something is found has a next one. So a run counts beyond the last index only from
a place where it has never looked: one that it was restored at.
-/

namespace SceneScript

/-! ## Looking for a place -/

section

variable {project : Project}

theorem Frame.innerList_ne_overflow {frame : Frame} {commands : List Command} :
    frame.innerList project commands ≠ .error .overflow := by
  intro h
  unfold innerList at h
  split at h
  · cases h
  · split at h
    · split at h <;> cases h
    · split at h
      · cases (Project.groupAt_eq_error.mp (map_eq_error.mp h)).2
      · cases h
    · cases h

theorem Project.listAt_ne_overflow {scene : Index} {frames : List Frame} :
    project.listAt scene frames ≠ .error .overflow := by
  intro h
  induction frames using List.reverseRecOn with
  | nil =>
      rw [listAt_nil, map_eq_error] at h
      cases (sceneAt_eq_error.mp h).2
  | append_singleton frames frame ih =>
      rw [listAt_append, bind_eq_error] at h
      rcases h with hlist | ⟨commands, -, hinner⟩
      · exact ih hlist
      · exact Frame.innerList_ne_overflow hinner

theorem Project.commandAt_ne_overflow {position : Position} :
    project.commandAt position ≠ .error .overflow := by
  intro h
  unfold commandAt at h
  rcases bind_eq_error.mp h with hlist | ⟨commands, -, h⟩
  · exact listAt_ne_overflow hlist
  · split at h <;> cases h

end

/-! ## Where overflow comes from -/

theorem Fault.OfContent.ne_overflow {fault : Fault} (h : fault.OfContent) : fault ≠ .overflow := by
  rintro rfl
  exact h

namespace State

variable {project : Project} {state next : State} {effects : List Effect} {fault : Fault}
  {input : Input}

theorem activeCommand_ne_overflow : state.activeCommand project ≠ .error .overflow := by
  intro h
  unfold activeCommand at h
  split at h
  · exact Project.commandAt_ne_overflow (map_eq_error.mp h)
  · cases h

/-- A step has found the place that it counts on from. -/
theorem step_ne_overflow : state.step project ≠ .error .overflow := by
  intro h
  rcases step_eq_error.mp h with hlist | ⟨command, -, hexecute⟩
  · exact Project.listAt_ne_overflow hlist
  · exact (Action.execute_ofContent hexecute).ne_overflow rfl

theorem run_ne_overflow {limit steps : Nat} (hpaused : state.isPaused = false) :
    (state.run project limit steps).2 ≠ .error .overflow := by
  have hkeeps : Keeps (fun _ => True) (· ≠ .overflow) (state.run project limit steps) := by
    apply run_keeps
    · intro _ _ _ _ _ _
      trivial
    · rintro state fault - - hstep rfl
      exact step_ne_overflow hstep
    · exact Fault.noConfusion
    · trivial
    · exact hpaused
  intro h
  exact hkeeps.fault _ h rfl

/-- A choice has found its command. -/
theorem choose_ne_overflow {count index : Index} :
    state.choose project count index ≠ .error .overflow := by
  intro h
  by_cases hindex : count ≤ index
  · rw [choose_of_le hindex] at h
    cases h
  · have hbelow : index < count := UInt64.not_le.mp hindex
    cases hcommand : project.commandAt state.position with
    | error fault =>
        unfold choose at h
        rw [if_neg hindex, hcommand] at h
        cases h
        exact Project.commandAt_ne_overflow hcommand
    | ok command =>
        rw [choose_of_lt hbelow hcommand] at h
        split at h
        · cases h
        · have hplace := Position.hasNext_of_commandAt hcommand
          exact (pick_ofContent hplace h).ne_overflow rfl

/-- Only a click has not found its command. -/
theorem answer_eq_overflow :
    (state.answer project input).2 = .error .overflow ↔
      state.waiting = .click ∧ input = .click ∧ ¬state.position.command.HasNext := by
  constructor
  · intro h
    have hanswers := answers project state input
    generalize state.answer project input = outcome at hanswers h
    cases hanswers with
    | ignored | clicked _ _ | chosen _ _ | arrived _ _ => cases h
    | stuck hwaiting hlast => exact ⟨hwaiting, rfl, hlast⟩
    | refused _ hchoose =>
        cases h
        exact absurd hchoose choose_ne_overflow
    | lost _ _ => cases h
  · rintro ⟨hwaiting, rfl, hlast⟩
    have hstops : state.position.advance = .error .overflow :=
      Position.advance_eq_error.mpr ⟨hlast, rfl⟩
    simp [answer, hwaiting, hstops]

end State

namespace Interpreter

variable {project : Project} {interpreter : Interpreter} {input : Option Input}
  {inputs : List (Option Input)}

/-- A tick of a run that is under way only overflows on a click behind the last index. -/
theorem tick_eq_overflow (hstarted : interpreter.started = true) :
    (interpreter.tick project input).2 = .error .overflow ↔
      interpreter.state.finished = false ∧ interpreter.state.waiting = .click ∧
        input = some .click ∧ ¬interpreter.state.position.command.HasNext := by
  have hstays : interpreter.begin project = (interpreter.state, .ok []) := if_pos hstarted
  constructor
  · intro h
    have hticked := ticked project input interpreter
    generalize interpreter.tick project input = outcome at hticked h
    cases hticked with
    | ended _ | waits _ _ _ _ | runs _ _ _ _ _ => cases h
    | unready _ hbegin => cases hstays.symm.trans hbegin
    | refused hfinished hbegin htake =>
        cases hstays.symm.trans hbegin
        cases h
        cases input with
        | none => cases htake
        | some given =>
            obtain ⟨hwaiting, rfl, hlast⟩ := State.answer_eq_overflow.mp (congrArg Prod.snd htake)
            exact ⟨hfinished, hwaiting, rfl, hlast⟩
    | fails _ _ _ hpaused hrun =>
        cases h
        exact absurd (congrArg Prod.snd hrun) (State.run_ne_overflow hpaused)
  · rintro ⟨hfinished, hwaiting, rfl, hlast⟩
    have hanswer : (interpreter.state.answer project .click).2 = .error .overflow :=
      State.answer_eq_overflow.mpr ⟨hwaiting, rfl, hlast⟩
    have htake : take project (some .click) interpreter.state =
        ((interpreter.state.answer project .click).1, .error .overflow) :=
      Prod.ext rfl hanswer
    rw [tick_of_refused hfinished hstays htake]

/-- With these inputs the run overflows, in a tick or in a question that is asked between ticks. -/
inductive Overflows (project : Project) : Interpreter → List (Option Input) → Prop where
  | active {interpreter : Interpreter} {inputs : List (Option Input)}
      (h : interpreter.state.activeCommand project = .error .overflow) :
      Overflows project interpreter inputs
  | following {interpreter : Interpreter} {inputs : List (Option Input)}
      (h : interpreter.state.hasFollowingContent project = .error .overflow) :
      Overflows project interpreter inputs
  | tick {interpreter : Interpreter} {input : Option Input} {inputs : List (Option Input)}
      (h : (interpreter.tick project input).2 = .error .overflow) :
      Overflows project interpreter (input :: inputs)
  | later {interpreter : Interpreter} {input : Option Input} {inputs : List (Option Input)}
      (h : Overflows project (interpreter.tick project input).1 inputs) :
      Overflows project interpreter (input :: inputs)

end Interpreter

/-! ## Where runs come to stand -/

namespace State

/-- The run counts on from the last index: where its list is found, when it is asked whether the
story goes on, and where it waits for a click, when it gets one. -/
def Overruns (project : Project) (inputs : List (Option Input)) (state : State) : Prop :=
  state.finished = false ∧ ¬state.position.command.HasNext ∧
    ((∃ commands, project.resolve state.position = .ok commands) ∨
      state.waiting = .click ∧ some .click ∈ inputs)

/-- No input makes the run count on from the last index. -/
def Sheltered (project : Project) (state : State) : Prop :=
  state.finished = true ∨ state.position.command.HasNext ∨
    (state.waiting ≠ .click ∧ ∀ commands, project.resolve state.position ≠ .ok commands)

variable {project : Project} {state next : State} {effects : List Effect} {fault : Fault}
  {input : Option Input} {inputs : List (Option Input)}

theorem Sheltered.not_overruns (h : state.Sheltered project) : ¬state.Overruns project inputs := by
  rintro ⟨hfinished, hlast, hmoves⟩
  rcases h with hends | hnext | ⟨hwaiting, hlost⟩
  · rw [hfinished] at hends
    cases hends
  · exact hlast hnext
  · rcases hmoves with ⟨commands, hlist⟩ | ⟨hclick, -⟩
    · exact hlost commands hlist
    · exact hwaiting hclick

theorem Overruns.cons (h : state.Overruns project inputs) :
    state.Overruns project (input :: inputs) :=
  ⟨h.1, h.2.1, h.2.2.imp_right fun hclick => ⟨hclick.1, List.mem_cons_of_mem _ hclick.2⟩⟩

/-- A step ends at a place with a next index, or at the end of the story. -/
theorem sheltered_step (hstep : state.step project = .ok (next, effects)) :
    next.Sheltered project := by
  cases step_iff.mp hstep with
  | leave hend hleave =>
      obtain ⟨commands, hlist, -⟩ := hend
      exact .inr (.inl (Position.hasNext_leave hlist hleave))
  | fall _ _ _ | jump _ _ _ | enter _ _ => exact .inr (.inl Index.hasNext_zero)
  | halt _ _ _ => exact .inl rfl
  | @advance execution hdone _ =>
      obtain ⟨command, hcommand, hexecute⟩ := hdone
      refine .inr (.inl ?_)
      rw [(Action.execute_done hexecute).position_eq]
      exact Position.hasNext_forward hcommand
  | @wait execution reason hdone _ =>
      obtain ⟨command, hcommand, hexecute⟩ := hdone
      refine .inr (.inl ?_)
      change execution.state.position.command.HasNext
      rw [(Action.execute_done hexecute).position_eq]
      exact Position.hasNext_of_commandAt hcommand

theorem sheltered_of_step_error (hpaused : state.isPaused = false)
    (hstep : state.step project = .error fault) : state.Sheltered project := by
  rcases step_eq_error.mp hstep with hlost | ⟨command, hcommand, -⟩
  · refine .inr (.inr ⟨?_, fun commands hlist => ?_⟩)
    · rw [(isPaused_eq_false.mp hpaused).1]
      exact Waiting.noConfusion
    · rw [hlist] at hlost
      cases hlost
  · exact .inr (.inl (Position.hasNext_of_commandAt hcommand))

/-- The first step finds its place or fails, wherever the run begins. -/
theorem sheltered_run (hpaused : state.isPaused = false) {limit steps : Nat} {final : State}
    {result : Except Fault (List Effect)} (hsteps : steps ≠ 0)
    (hrun : state.run project limit steps = (final, result)) : final.Sheltered project := by
  obtain ⟨steps, rfl⟩ := Nat.exists_eq_succ_of_ne_zero hsteps
  rcases run_succ_eq.mp hrun with ⟨fault, hstep, rfl, -⟩ | ⟨next, first, hstep, hrest⟩
  · exact sheltered_of_step_error hpaused hstep
  · have hnext := sheltered_step hstep
    rcases hrest with ⟨-, rfl, -⟩ | ⟨hgoes, later, hlater, -⟩
    · exact hnext
    · have hkeeps : Keeps (Sheltered project) (fun _ => True) (next.run project limit steps) :=
        run_keeps (fun _ _ _ _ _ hstep => sheltered_step hstep) (fun _ _ _ _ _ => trivial)
          trivial hnext hgoes
      rw [hlater] at hkeeps
      exact hkeeps.state

/-- An answer that leaves the run waiting, or fails, has not moved it. -/
theorem not_overruns_answer {given : Input}
    (hsafe : ¬state.Overruns project (some given :: inputs))
    (hstays : (state.answer project given).1.waiting = .nothing →
      ∃ fault, (state.answer project given).2 = .error fault) :
    ¬(state.answer project given).1.Overruns project inputs := by
  have hanswers := answers project state given
  generalize state.answer project given = outcome at hanswers hstays ⊢
  cases hanswers with
  | ignored => exact fun hoverruns => hsafe hoverruns.cons
  | clicked _ _ => exact absurd (hstays rfl) (by simp)
  | stuck hwaiting hlast =>
      intro hoverruns
      exact hsafe ⟨hoverruns.1, hlast, .inr ⟨hwaiting, List.mem_cons_self⟩⟩
  | refused _ _ => exact fun hoverruns => hsafe hoverruns.cons
  | chosen _ hchoose =>
      obtain ⟨command, choice, hcommand, -, hpick⟩ := exists_pick_of_choose hchoose
      obtain ⟨_, ⟨flags, rfl⟩, -, ⟨-, -, rfl⟩ | rfl⟩ := pick_kept hpick
      · exact Sheltered.not_overruns (.inr (.inl (Position.hasNext_of_commandAt hcommand)))
      · exact absurd (hstays rfl) (by simp)
  | arrived _ _ => exact absurd (hstays rfl) (by simp)
  | lost _ _ =>
      rintro ⟨hfinished, hlast, ⟨commands, hlist⟩ | ⟨hwaiting, -⟩⟩
      · exact hsafe ⟨hfinished, hlast, .inl ⟨commands, hlist⟩⟩
      · cases hwaiting

end State

namespace Interpreter

variable {project : Project} {interpreter : Interpreter} {input : Option Input}
  {inputs : List (Option Input)}

theorem started_tick (hstarted : interpreter.started = true) :
    (interpreter.tick project input).1.started = true := by
  unfold tick
  split
  · exact hstarted
  · rfl

theorem not_overruns_tick (hstarted : interpreter.started = true)
    (hsafe : ¬interpreter.state.Overruns project (input :: inputs)) :
    ¬(interpreter.tick project input).1.state.Overruns project inputs := by
  have hstays : interpreter.begin project = (interpreter.state, .ok []) := if_pos hstarted
  have hticked := ticked project input interpreter
  generalize interpreter.tick project input = outcome at hticked ⊢
  cases hticked with
  | ended _ => exact fun hoverruns => hsafe hoverruns.cons
  | unready _ hbegin => cases hstays.symm.trans hbegin
  | @refused begun taken entered fault _ hbegin htake =>
      cases hstays.symm.trans hbegin
      cases input with
      | none => cases htake
      | some given =>
          have hanswer : interpreter.state.answer project given = (taken, .error fault) := htake
          have hsafe' := State.not_overruns_answer hsafe fun _ => ⟨fault, by rw [hanswer]⟩
          rwa [hanswer] at hsafe'
  | @waits begun taken entered answered _ hbegin htake hwaiting =>
      cases hstays.symm.trans hbegin
      cases input with
      | none =>
          cases htake
          exact fun hoverruns => hsafe hoverruns.cons
      | some given =>
          have hanswer : interpreter.state.answer project given = (taken, .ok answered) := htake
          have hsafe' := State.not_overruns_answer hsafe fun hnothing => by
            rw [hanswer] at hnothing
            exact absurd hnothing hwaiting
          rwa [hanswer] at hsafe'
  | runs _ _ _ hpaused hrun | fails _ _ _ hpaused hrun =>
      exact (State.sheltered_run hpaused (by decide) hrun).not_overruns

/-- What does not answer the wait leaves the run as it is. -/
theorem tick_of_unanswered (hstarted : interpreter.started = true)
    (hfinished : interpreter.state.finished = false) (hwaiting : interpreter.state.waiting = .click)
    (hinput : input ≠ some .click) : (interpreter.tick project input).1 = interpreter := by
  have hbegin : interpreter.begin project = (interpreter.state, .ok []) := if_pos hstarted
  have htake : take project input interpreter.state = (interpreter.state, .ok []) := by
    cases input with
    | none => rfl
    | some given => cases given <;> simp_all [take, State.answer]
  have hwaits : interpreter.state.waiting ≠ .nothing := by
    intro hready
    cases hwaiting.symm.trans hready
  rw [tick_of_waiting hfinished hbegin htake hwaits, ← hstarted]

/-! ## Sequences of inputs -/

/-- A run that is under way overflows exactly if it counts on from the last index. -/
theorem overflows_iff (hstarted : interpreter.started = true) :
    interpreter.Overflows project inputs ↔ interpreter.state.Overruns project inputs := by
  constructor
  · intro h
    induction h with
    | active h => exact absurd h State.activeCommand_ne_overflow
    | following h =>
        obtain ⟨⟨hfinished, hlist, hlast⟩, -⟩ := State.hasFollowingContent_eq_error.mp h
        exact ⟨hfinished, hlast, .inl hlist⟩
    | tick h =>
        obtain ⟨hfinished, hwaiting, rfl, hlast⟩ := (tick_eq_overflow hstarted).mp h
        exact ⟨hfinished, hlast, .inr ⟨hwaiting, List.mem_cons_self⟩⟩
    | later _ ih =>
        by_contra hsafe
        exact not_overruns_tick hstarted hsafe (ih (started_tick hstarted))
  · rintro ⟨hfinished, hlast, hlist | ⟨hwaiting, hclick⟩⟩
    · exact .following (State.hasFollowingContent_eq_error.mpr ⟨⟨hfinished, hlist, hlast⟩, rfl⟩)
    · -- Until the click comes, the run stands where it was.
      induction inputs with
      | nil => cases hclick
      | cons input inputs ih =>
          by_cases hinput : input = some .click
          · exact .tick ((tick_eq_overflow hstarted).mpr ⟨hfinished, hwaiting, hinput, hlast⟩)
          · refine .later ?_
            rw [tick_of_unanswered hstarted hfinished hwaiting hinput]
            exact ih ((List.mem_cons.mp hclick).resolve_left (Ne.symm hinput))

end Interpreter
end SceneScript
