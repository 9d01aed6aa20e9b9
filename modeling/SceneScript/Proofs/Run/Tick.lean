import SceneScript.Proofs.Run.Step

/-! # Ticks

A tick is made of parts, each of which may end it. What every part keeps is kept by the tick, in
whatever state it ends, and by every run of ticks.
-/

namespace SceneScript

/-! ## Answers -/

namespace State

variable {project : Project} {state next : State} {effects : List Effect} {fault : Fault}
  {choice : Choice} {count index : Index}

/-- The flag of an answer changes nothing but flags. -/
theorem setChoiceFlag_kept (h : state.setChoiceFlag choice = .ok (next, effects)) :
    ∃ flags, next = { state with flags } ∧ Lookup.SameNames next.symbols state.symbols := by
  unfold setChoiceFlag at h
  cases heffect : choice.flagEffect with
  | none =>
      rw [heffect] at h
      cases h
      exact ⟨state.flags, rfl, .refl _⟩
  | some effect =>
      obtain ⟨name, value⟩ := effect
      rw [heffect] at h
      obtain ⟨flagged, hset, hnext⟩ := bind_eq_ok.mp h
      obtain ⟨hname, rfl⟩ := setFlag_eq_ok.mp hset
      cases hnext
      exact ⟨_, rfl, sameNames_insert_flag value hname⟩

theorem setChoiceFlag_error (h : state.setChoiceFlag choice = .error fault) :
    ∃ name value, choice.flagEffect = some (name, value) ∧ state.flags.find? name = none := by
  unfold setChoiceFlag at h
  cases heffect : choice.flagEffect with
  | none => rw [heffect] at h; cases h
  | some effect =>
      obtain ⟨name, value⟩ := effect
      rw [heffect] at h
      rcases bind_eq_error.mp h with hset | ⟨flagged, -, hpure⟩
      · exact ⟨name, value, rfl, (setFlag_eq_error.mp hset).1⟩
      · cases hpure

/-- An answer sets flags, and leads to a scene that exists or behind the dialogue. -/
theorem pick_kept (h : state.pick project choice = .ok (next, effects)) :
    ∃ flagged : State, (∃ flags, flagged = { state with flags }) ∧
      Lookup.SameNames flagged.symbols state.symbols ∧
      ((choice.enableGoto = true ∧ (∃ scene, project.scene? choice.goto = some scene) ∧
          next = { flagged with waiting := .transition choice.goto }) ∨
        next = { flagged with waiting := .nothing, position := flagged.position.forward }) := by
  unfold pick at h
  split at h
  · next hgoto =>
      obtain ⟨scene, hscene, h⟩ := bind_eq_ok.mp h
      obtain ⟨⟨flagged, noted⟩, hflag, h⟩ := bind_eq_ok.mp h
      obtain ⟨flags, hflagged, hnames⟩ := setChoiceFlag_kept hflag
      cases h
      exact ⟨flagged, ⟨flags, hflagged⟩, hnames,
        .inl ⟨hgoto, ⟨scene, Project.sceneAt_eq_ok.mp hscene⟩, rfl⟩⟩
  · obtain ⟨⟨flagged, noted⟩, hflag, h⟩ := bind_eq_ok.mp h
    obtain ⟨flags, hflagged, hnames⟩ := setChoiceFlag_kept hflag
    obtain ⟨position, hposition, h⟩ := bind_eq_ok.mp h
    obtain ⟨-, rfl⟩ := Position.advance_eq_ok.mp hposition
    cases h
    exact ⟨flagged, ⟨flags, hflagged⟩, hnames, .inr rfl⟩

theorem pick_error (hplace : state.position.command.HasNext)
    (h : state.pick project choice = .error fault) :
    (choice.enableGoto = true ∧ project.scene? choice.goto = none) ∨
      state.setChoiceFlag choice = .error fault := by
  unfold pick at h
  split at h
  · next hgoto =>
      rcases bind_eq_error.mp h with hscene | ⟨scene, -, h⟩
      · exact .inl ⟨hgoto, (Project.sceneAt_eq_error.mp hscene).1⟩
      · rcases bind_eq_error.mp h with hflag | ⟨flagged, -, hpure⟩
        · exact .inr hflag
        · cases hpure
  · rcases bind_eq_error.mp h with hflag | ⟨⟨flagged, noted⟩, hflag, h⟩
    · exact .inr hflag
    · obtain ⟨flags, rfl, -⟩ := setChoiceFlag_kept hflag
      rcases bind_eq_error.mp h with hlast | ⟨position, -, hpure⟩
      · exact absurd hplace (Position.advance_eq_error.mp hlast).1
      · cases hpure

theorem choose_of_le (h : count ≤ index) :
    state.choose project count index = .error (.invalidChoice index count) := by
  unfold choose
  rw [if_pos h]
  rfl

/-- Below the count, an answer of the command at the position is taken. -/
theorem choose_of_lt {command : Command} (h : index < count)
    (hcommand : project.commandAt state.position = .ok command) :
    state.choose project count index =
      match (command.choices?.getD [])[index.toNat]? with
      | none => .error (.invalidPosition .noChoice)
      | some choice => state.pick project choice := by
  unfold choose
  rw [if_neg (UInt64.not_le.mpr h), hcommand]
  rfl

theorem exists_pick_of_choose (h : state.choose project count index = .ok (next, effects)) :
    ∃ command choice, project.commandAt state.position = .ok command ∧
      (command.choices?.getD [])[index.toNat]? = some choice ∧
      state.pick project choice = .ok (next, effects) := by
  by_cases hindex : count ≤ index
  · rw [choose_of_le hindex] at h
    cases h
  · cases hcommand : project.commandAt state.position with
    | error fault => simp [choose, hindex, hcommand] at h
    | ok command =>
        rw [choose_of_lt (UInt64.not_le.mp hindex) hcommand] at h
        cases hchoice : (command.choices?.getD [])[index.toNat]? with
        | none => rw [hchoice] at h; cases h
        | some choice =>
            rw [hchoice] at h
            exact ⟨command, choice, rfl, hchoice, h⟩

/-- What an input can bring about. -/
inductive Answers (project : Project) (state : State) :
    Input → State × Except Fault (List Effect) → Prop where
  | ignored {input : Input} : Answers project state input (state, .ok [])
  | clicked (hwaiting : state.waiting = .click) (hplace : state.position.command.HasNext) :
      Answers project state .click
        ({ state with waiting := .nothing, position := state.position.forward }, .ok [])
  | stuck (hwaiting : state.waiting = .click) (hlast : ¬state.position.command.HasNext) :
      Answers project state .click ({ state with waiting := .nothing }, .error .overflow)
  | chosen {count index : Index} {next : State} {effects : List Effect}
      (hwaiting : state.waiting = .choice count)
      (hchoose : state.choose project count index = .ok (next, effects)) :
      Answers project state (.choose index) (next, .ok effects)
  | refused {count index : Index} {fault : Fault} (hwaiting : state.waiting = .choice count)
      (hchoose : state.choose project count index = .error fault) :
      Answers project state (.choose index) (state, .error fault)
  | arrived {target : Index} {scene : Scene} (hwaiting : state.waiting = .transition target)
      (hscene : project.scene? target = some scene) :
      Answers project state .transitionFinished
        ({ state with waiting := .nothing }.inScene target scene, .ok [.sceneEntered target])
  | lost {target : Index} (hwaiting : state.waiting = .transition target)
      (hscene : project.scene? target = none) :
      Answers project state .transitionFinished ({ state with waiting := .nothing },
        .error (.missingScene target project.scenes.length))

theorem answers (project : Project) (state : State) (input : Input) :
    Answers project state input (state.answer project input) := by
  unfold answer
  split
  · next hwaiting =>
      dsimp only
      split
      · next position hposition =>
          obtain ⟨hplace, rfl⟩ := Position.advance_eq_ok.mp hposition
          exact .clicked hwaiting hplace
      · next fault hposition =>
          obtain ⟨hlast, rfl⟩ := Position.advance_eq_error.mp hposition
          exact .stuck hwaiting hlast
  · next count index hwaiting =>
      split
      · next next effects hchoose => exact .chosen hwaiting hchoose
      · next fault hchoose => exact .refused hwaiting hchoose
  · next target hwaiting =>
      dsimp only
      split
      · next next effects henter =>
          obtain ⟨scene, hscene, rfl, rfl⟩ := enterScene_eq_ok.mp henter
          exact .arrived hwaiting hscene
      · next fault henter =>
          obtain ⟨hscene, rfl⟩ := enterScene_eq_error.mp henter
          exact .lost hwaiting hscene
  · exact .ignored

/-- A refused choice leaves everything as it is; the end of a transition is refused only where its
scene is missing, and then the wait is over. Clicks are never refused, only stuck. -/
theorem answer_refused (h : (state.answer project input).2 = .error fault)
    (hgoes : fault ≠ .overflow) :
    ((∃ count index, state.waiting = .choice count ∧ input = .choose index) ∧
        (state.answer project input).1 = state) ∨
      ∃ target, state.waiting = .transition target ∧ input = .transitionFinished ∧
        project.scene? target = none ∧ fault = .missingScene target project.scenes.length ∧
        (state.answer project input).1 = { state with waiting := .nothing } := by
  have hanswers := answers project state input
  generalize state.answer project input = result at hanswers h ⊢
  cases hanswers with
  | ignored | clicked _ _ | chosen _ _ | arrived _ _ => cases h
  | stuck _ _ =>
      cases h
      exact absurd rfl hgoes
  | @refused count index _ hwaiting _ => exact .inl ⟨⟨count, index, hwaiting, rfl⟩, rfl⟩
  | @lost target hwaiting hscene =>
      cases h
      exact .inr ⟨target, hwaiting, rfl, hscene, rfl, rfl⟩

theorem waits_of_answer_refused (h : (state.answer project input).2 = .error fault) :
    state.waiting ≠ .nothing := by
  have hanswers := answers project state input
  generalize state.answer project input = result at hanswers h
  cases hanswers with
  | ignored | clicked _ _ | chosen _ _ | arrived _ _ => cases h
  | stuck hwaiting _ | refused hwaiting _ | lost hwaiting _ => simp [hwaiting]

theorem isPaused_eq_false :
    state.isPaused = false ↔ state.waiting = .nothing ∧ state.finished = false := by
  simp [isPaused, isWaiting]

/-- No input ends a run. -/
theorem answer_finished (input : Input) :
    (state.answer project input).1.finished = state.finished := by
  have h := answers project state input
  generalize state.answer project input = result at h ⊢
  cases h with
  | ignored | clicked _ _ | stuck _ _ | refused _ _ | arrived _ _ | lost _ _ => rfl
  | chosen _ hchoose =>
      obtain ⟨_, _, -, -, hpick⟩ := exists_pick_of_choose hchoose
      obtain ⟨_, ⟨_, rfl⟩, -, ⟨-, -, rfl⟩ | rfl⟩ := pick_kept hpick <;> rfl

end State

/-! ## Parts of a tick -/

/-- A part of a tick ends in a state that holds, and fails only for an allowed cause. -/
structure Keeps (holds : State → Prop) (allowed : Fault → Prop)
    (result : State × Except Fault (List Effect)) : Prop where
  state : holds result.1
  fault : ∀ fault, result.2 = .error fault → allowed fault

section Parts

variable {project : Project} {holds : State → Prop} {allowed : Fault → Prop} {state : State}

theorem Keeps.ok {effects : List Effect} (h : holds state) :
    Keeps holds allowed (state, .ok effects) :=
  ⟨h, nofun⟩

theorem Keeps.error {fault : Fault} (h : holds state) (hfault : allowed fault) :
    Keeps holds allowed (state, .error fault) :=
  ⟨h, fun _ heq => by cases heq; exact hfault⟩

theorem Keeps.andThen {before : State → Prop} {result : State × Except Fault (List Effect)}
    {continue_ : State → State × Except Fault (List Effect)} (h : Keeps before allowed result)
    (hends : ∀ state, before state → holds state)
    (hnext : ∀ state, before state → Keeps holds allowed (continue_ state)) :
    Keeps holds allowed (Interpreter.andThen result continue_) := by
  obtain ⟨state, result⟩ := result
  cases result with
  | error fault => exact .error (hends state h.state) (h.fault fault rfl)
  | ok effects =>
      have hlater := hnext state h.state
      refine ⟨hlater.state, fun fault hfault => hlater.fault fault ?_⟩
      exact map_eq_error.mp hfault

/-- What every step keeps, a run keeps as well. -/
theorem State.run_keeps {limit steps : Nat}
    (hstep : ∀ state next effects, holds state → state.isPaused = false →
      state.step project = .ok (next, effects) → holds next)
    (hfault : ∀ state fault, holds state → state.isPaused = false →
      state.step project = .error fault → allowed fault)
    (hlimit : allowed (.endless limit)) (h : holds state) (hpaused : state.isPaused = false) :
    Keeps holds allowed (state.run project limit steps) := by
  induction steps generalizing state with
  | zero => exact .error h hlimit
  | succ steps ih =>
      unfold run
      split
      · next fault heq => exact .error h (hfault state fault h hpaused heq)
      · next next effects heq =>
          have hnext := hstep state next effects h hpaused heq
          split
          · exact .ok hnext
          · next hgoes =>
              have hlater := ih hnext (by simpa using hgoes)
              refine ⟨hlater.state, fun fault herror => hlater.fault fault ?_⟩
              exact map_eq_error.mp herror

/-- Projects in which every step from where a run can be is the same have the same runs. -/
theorem State.run_congr {other : Project} {limit steps : Nat}
    (hsame : ∀ state, holds state → state.step other = state.step project)
    (hstep : ∀ state next effects, holds state → state.isPaused = false →
      state.step project = .ok (next, effects) → holds next)
    (h : holds state) (hpaused : state.isPaused = false) :
    state.run other limit steps = state.run project limit steps := by
  induction steps generalizing state with
  | zero => rfl
  | succ steps ih =>
      rw [run, run, hsame state h]
      cases hnext : state.step project with
      | error fault => rfl
      | ok outcome =>
          obtain ⟨next, effects⟩ := outcome
          cases hgoes : next.isPaused with
          | true => simp [hgoes]
          | false => simp [hgoes, ih (hstep state next effects h hpaused hnext) hgoes]

/-- A run fails while it does not wait. -/
theorem State.run_fault_waiting {limit steps : Nat} {final : State} {fault : Fault}
    (hpaused : state.isPaused = false)
    (hrun : state.run project limit steps = (final, .error fault)) : final.waiting = .nothing := by
  induction steps generalizing state with
  | zero =>
      cases hrun
      exact (State.isPaused_eq_false.mp hpaused).1
  | succ steps ih =>
      unfold run at hrun
      split at hrun
      · cases hrun
        exact (State.isPaused_eq_false.mp hpaused).1
      · next next effects hstep =>
          split at hrun
          · cases hrun
          · next hgoes =>
              obtain ⟨hfinal, hfault⟩ := Prod.mk.inj hrun
              exact ih (by simpa using hgoes) (Prod.ext hfinal (map_eq_error.mp hfault))

/-- A run fails at its first step, or pauses behind it, or goes on from there. -/
theorem State.run_succ_eq {limit steps : Nat} {final : State}
    {result : Except Fault (List Effect)} :
    state.run project limit (steps + 1) = (final, result) ↔
      (∃ fault, state.step project = .error fault ∧ final = state ∧ result = .error fault) ∨
      ∃ next first, state.step project = .ok (next, first) ∧
        (next.isPaused = true ∧ final = next ∧ result = .ok first ∨
          next.isPaused = false ∧ ∃ later,
            next.run project limit steps = (final, later) ∧ result = later.map (first ++ ·)) := by
  rw [run]
  constructor
  · intro hrun
    split at hrun
    · next fault hstep =>
        cases hrun
        exact .inl ⟨fault, hstep, rfl, rfl⟩
    · next next first hstep =>
        split at hrun
        · next hpaused =>
            cases hrun
            exact .inr ⟨final, first, hstep, .inl ⟨hpaused, rfl, rfl⟩⟩
        · next hpaused =>
            cases hrun
            exact .inr ⟨next, first, hstep, .inr ⟨by simpa using hpaused, _, rfl, rfl⟩⟩
  · rintro (⟨fault, hstep, rfl, rfl⟩ | ⟨next, first, hstep, ⟨hpaused, rfl, rfl⟩ |
      ⟨hpaused, later, hrun, rfl⟩⟩)
    · simp [hstep]
    · simp [hstep, hpaused]
    · simp [hstep, hpaused, hrun]

/-- A run that ends without a fault has taken a first step, and may have gone on from there. -/
theorem State.run_succ_eq_ok {limit steps : Nat} {final : State} {effects : List Effect} :
    state.run project limit (steps + 1) = (final, .ok effects) ↔
      ∃ next first, state.step project = .ok (next, first) ∧
        (next.isPaused = true ∧ final = next ∧ effects = first ∨
          next.isPaused = false ∧ ∃ later,
            next.run project limit steps = (final, .ok later) ∧ effects = first ++ later) := by
  rw [run_succ_eq]
  constructor
  · rintro (⟨fault, -, -, hresult⟩ | ⟨next, first, hstep, ⟨hpaused, rfl, hresult⟩ |
      ⟨hpaused, later, hrun, hresult⟩⟩)
    · cases hresult
    · cases hresult
      exact ⟨final, effects, hstep, .inl ⟨hpaused, rfl, rfl⟩⟩
    · obtain ⟨rest, rfl, rfl⟩ := map_eq_ok.mp hresult.symm
      exact ⟨next, first, hstep, .inr ⟨hpaused, rest, hrun, rfl⟩⟩
  · rintro ⟨next, first, hstep, ⟨hpaused, rfl, rfl⟩ | ⟨hpaused, later, hrun, rfl⟩⟩
    · exact .inr ⟨final, effects, hstep, .inl ⟨hpaused, rfl, rfl⟩⟩
    · exact .inr ⟨next, first, hstep, .inr ⟨hpaused, .ok later, hrun, rfl⟩⟩

/-- A run that is not cut off does the same with more steps at hand. -/
theorem State.run_of_le {limit steps more : Nat} {final : State}
    {result : Except Fault (List Effect)} (hmore : steps ≤ more)
    (hrun : state.run project limit steps = (final, result))
    (hends : result ≠ .error (.endless limit)) :
    state.run project limit more = (final, result) := by
  induction steps generalizing state more result with
  | zero =>
      cases hrun
      exact absurd rfl hends
  | succ steps ih =>
      obtain ⟨more, rfl⟩ := Nat.exists_eq_add_of_lt hmore
      rcases run_succ_eq.mp hrun with hfails | ⟨next, first, hstep, hpauses |
        ⟨hpaused, later, hlater, rfl⟩⟩
      · exact run_succ_eq.mpr (.inl hfails)
      · exact run_succ_eq.mpr (.inr ⟨next, first, hstep, .inl hpauses⟩)
      · have hcomplete : later ≠ .error (.endless limit) := by
          rintro rfl
          exact hends rfl
        exact run_succ_eq.mpr (.inr ⟨next, first, hstep, .inr ⟨hpaused, later,
          ih (Nat.le_add_right steps more) hlater hcomplete, rfl⟩⟩)

theorem State.answer_fault_waiting {input : Input} {fault : Fault}
    (hfault : (state.answer project input).2 = .error fault) :
    (state.answer project input).1.waiting = state.waiting ∨
      (state.answer project input).1.waiting = .nothing := by
  have hanswers := State.answers project state input
  generalize state.answer project input = result at hanswers hfault ⊢
  cases hanswers with
  | ignored | clicked _ _ | chosen _ _ | arrived _ _ => cases hfault
  | refused _ _ => exact .inl rfl
  | stuck _ _ | lost _ _ => exact .inr rfl

end Parts

/-! ## Whole ticks -/

namespace Interpreter

variable {project : Project} {interpreter : Interpreter} {input : Option Input}
  {holds : State → Prop} {allowed : Fault → Prop}

/-- The beginning keeps the state or enters a scene. -/
theorem begin_cases (project : Project) (interpreter : Interpreter) :
    interpreter.begin project = (interpreter.state, .ok []) ∨
      (interpreter.started = false ∧
        ((∃ scene, project.scene? interpreter.state.position.scene = some scene ∧
          interpreter.begin project =
            (interpreter.state.inScene interpreter.state.position.scene scene,
              .ok [.sceneEntered interpreter.state.position.scene])) ∨
        (project.scene? interpreter.state.position.scene = none ∧ interpreter.begin project =
          (interpreter.state, .error (.missingScene interpreter.state.position.scene
            project.scenes.length))))) := by
  unfold begin
  cases hstarted : interpreter.started with
  | true => exact .inl rfl
  | false =>
      refine .inr ⟨rfl, ?_⟩
      cases hscene : project.scene? interpreter.state.position.scene with
      | some scene => exact .inl ⟨scene, rfl, by simp [State.enterScene_of_scene? hscene]⟩
      | none =>
          have henter : interpreter.state.enterScene project interpreter.state.position.scene =
              .error (.missingScene interpreter.state.position.scene project.scenes.length) :=
            State.enterScene_eq_error.mpr ⟨hscene, rfl⟩
          exact .inr ⟨rfl, by simp [henter]⟩

/-- The beginning touches neither the wait nor the end of a run. -/
theorem begin_kept (project : Project) (interpreter : Interpreter) :
    (interpreter.begin project).1.waiting = interpreter.state.waiting ∧
      (interpreter.begin project).1.finished = interpreter.state.finished := by
  rcases begin_cases project interpreter with heq | ⟨-, ⟨scene, -, heq⟩ | ⟨-, heq⟩⟩ <;>
    rw [heq] <;> exact ⟨rfl, rfl⟩

theorem take_finished (project : Project) (input : Option Input) (state : State) :
    (take project input state).1.finished = state.finished := by
  cases input with
  | none => rfl
  | some given => exact State.answer_finished given

/-- Beginning and taking an input leave a run open. -/
theorem finished_of_take {begun taken : State} {first second : Except Fault (List Effect)}
    (hfinished : interpreter.state.finished = false)
    (hbegin : interpreter.begin project = (begun, first))
    (htake : take project input begun = (taken, second)) : taken.finished = false := by
  have hbegun := (begin_kept project interpreter).2
  have htaken := take_finished project input begun
  rw [hbegin] at hbegun
  rw [htake] at htaken
  exact htaken.trans (hbegun.trans hfinished)

/-! The ways in which a tick can end. -/

section Outcomes

variable {begun taken : State} {entered answered : List Effect}

theorem tick_of_unready {fault : Fault} (hfinished : interpreter.state.finished = false)
    (hbegin : interpreter.begin project = (begun, .error fault)) :
    interpreter.tick project input = (⟨begun, true⟩, .error fault) := by
  simp [tick, hfinished, hbegin, andThen, Except.map]

theorem tick_of_refused {fault : Fault} (hfinished : interpreter.state.finished = false)
    (hbegin : interpreter.begin project = (begun, .ok entered))
    (htake : take project input begun = (taken, .error fault)) :
    interpreter.tick project input = (⟨taken, true⟩, .error fault) := by
  simp [tick, hfinished, hbegin, htake, andThen, Except.map]

theorem tick_of_waiting (hfinished : interpreter.state.finished = false)
    (hbegin : interpreter.begin project = (begun, .ok entered))
    (htake : take project input begun = (taken, .ok answered))
    (hwaiting : taken.waiting ≠ .nothing) :
    interpreter.tick project input =
      (⟨taken, true⟩, .ok ⟨entered ++ answered, taken.waiting⟩) := by
  have hwaits : taken.isWaiting = true := by simpa [State.isWaiting] using hwaiting
  simp [tick, hfinished, hbegin, htake, andThen, Except.map, proceed, hwaits]

theorem tick_of_run {final : State} {result : Except Fault (List Effect)}
    (hfinished : interpreter.state.finished = false)
    (hbegin : interpreter.begin project = (begun, .ok entered))
    (htake : take project input begun = (taken, .ok answered))
    (hwaiting : taken.waiting = .nothing)
    (hrun : taken.run project State.maxSteps State.maxSteps = (final, result)) :
    interpreter.tick project input =
      (⟨final, true⟩, result.map fun later => ⟨entered ++ answered ++ later, final.waiting⟩) := by
  have hwaits : taken.isWaiting = false := by simp [State.isWaiting, hwaiting]
  cases result <;> simp [tick, hfinished, hbegin, htake, andThen, Except.map, proceed, hwaits, hrun]

/-- How a tick can end: the run is over, it fails to begin or refuses its input, or it begins and
takes its input, and then waits or runs, maybe into a fault. -/
inductive Ticked (project : Project) (input : Option Input) (interpreter : Interpreter) :
    Interpreter × Except Fault Response → Prop where
  | ended (hfinished : interpreter.state.finished = true) :
      Ticked project input interpreter (interpreter, .ok ⟨[], .nothing⟩)
  | unready {begun : State} {fault : Fault} (hfinished : interpreter.state.finished = false)
      (hbegin : interpreter.begin project = (begun, .error fault)) :
      Ticked project input interpreter (⟨begun, true⟩, .error fault)
  | refused {begun taken : State} {entered : List Effect} {fault : Fault}
      (hfinished : interpreter.state.finished = false)
      (hbegin : interpreter.begin project = (begun, .ok entered))
      (htake : take project input begun = (taken, .error fault)) :
      Ticked project input interpreter (⟨taken, true⟩, .error fault)
  | waits {begun taken : State} {entered answered : List Effect}
      (hfinished : interpreter.state.finished = false)
      (hbegin : interpreter.begin project = (begun, .ok entered))
      (htake : take project input begun = (taken, .ok answered))
      (hwaiting : taken.waiting ≠ .nothing) :
      Ticked project input interpreter
        (⟨taken, true⟩, .ok ⟨entered ++ answered, taken.waiting⟩)
  | runs {begun taken final : State} {entered answered later : List Effect}
      (hfinished : interpreter.state.finished = false)
      (hbegin : interpreter.begin project = (begun, .ok entered))
      (htake : take project input begun = (taken, .ok answered))
      (hpaused : taken.isPaused = false)
      (hrun : taken.run project State.maxSteps State.maxSteps = (final, .ok later)) :
      Ticked project input interpreter
        (⟨final, true⟩, .ok ⟨entered ++ answered ++ later, final.waiting⟩)
  | fails {begun taken final : State} {entered answered : List Effect} {fault : Fault}
      (hfinished : interpreter.state.finished = false)
      (hbegin : interpreter.begin project = (begun, .ok entered))
      (htake : take project input begun = (taken, .ok answered))
      (hpaused : taken.isPaused = false)
      (hrun : taken.run project State.maxSteps State.maxSteps = (final, .error fault)) :
      Ticked project input interpreter (⟨final, true⟩, .error fault)

theorem ticked (project : Project) (input : Option Input) (interpreter : Interpreter) :
    interpreter.Ticked project input (interpreter.tick project input) := by
  cases hfinished : interpreter.state.finished with
  | true =>
      have hover : interpreter.tick project input = (interpreter, .ok ⟨[], .nothing⟩) :=
        if_pos hfinished
      rw [hover]
      exact .ended hfinished
  | false =>
      cases hbegin : interpreter.begin project with
      | mk begun first =>
          cases first with
          | error fault =>
              rw [tick_of_unready hfinished hbegin]
              exact .unready hfinished hbegin
          | ok entered =>
              cases htake : take project input begun with
              | mk taken second =>
                  have hgoes := finished_of_take hfinished hbegin htake
                  cases second with
                  | error fault =>
                      rw [tick_of_refused hfinished hbegin htake]
                      exact .refused hfinished hbegin htake
                  | ok answered =>
                      by_cases hwaiting : taken.waiting = .nothing
                      · have hpaused := State.isPaused_eq_false.mpr ⟨hwaiting, hgoes⟩
                        cases hrun : taken.run project State.maxSteps State.maxSteps with
                        | mk final third =>
                            rw [tick_of_run hfinished hbegin htake hwaiting hrun]
                            cases third with
                            | error fault => exact .fails hfinished hbegin htake hpaused hrun
                            | ok later => exact .runs hfinished hbegin htake hpaused hrun
                      · rw [tick_of_waiting hfinished hbegin htake hwaiting]
                        exact .waits hfinished hbegin htake hwaiting

/-- A tick that fails leaves no new wait. -/
theorem tick_fault_waiting {fault : Fault}
    (hfault : (interpreter.tick project input).2 = .error fault) :
    (interpreter.tick project input).1.state.waiting = interpreter.state.waiting ∨
      (interpreter.tick project input).1.state.waiting = .nothing := by
  have hticked := ticked project input interpreter
  have hsame := (begin_kept project interpreter).1
  generalize interpreter.tick project input = outcome at hticked hfault ⊢
  cases hticked with
  | ended _ | waits _ _ _ _ | runs _ _ _ _ _ => cases hfault
  | unready _ hbegin =>
      rw [hbegin] at hsame
      exact .inl hsame
  | refused _ hbegin htake =>
      rw [hbegin] at hsame
      cases input with
      | none => cases htake
      | some given =>
          have hanswer : State.answer project _ given = (_, .error _) := htake
          have hleft := State.answer_fault_waiting (congrArg Prod.snd hanswer)
          rw [hanswer, hsame] at hleft
          exact hleft
  | fails _ _ _ hpaused hrun => exact .inr (State.run_fault_waiting hpaused hrun)

end Outcomes

/-- What entering a scene, answers and steps keep, a tick keeps as well. -/
theorem tick_keeps (h : holds interpreter.state)
    (hbegin : Keeps holds allowed (interpreter.begin project))
    (hanswer : ∀ state given, holds state → state.waiting = interpreter.state.waiting →
      input = some given → Keeps holds allowed (state.answer project given))
    (hstep : ∀ state next effects, holds state → state.isPaused = false →
      state.step project = .ok (next, effects) → holds next)
    (hfault : ∀ state fault, holds state → state.isPaused = false →
      state.step project = .error fault → allowed fault)
    (hlimit : allowed (.endless State.maxSteps)) :
    holds (interpreter.tick project input).1.state ∧
      ∀ fault, (interpreter.tick project input).2 = .error fault → allowed fault := by
  by_cases hfinished : interpreter.state.finished = true
  · simp [tick, hfinished, h]
  · rw [Bool.not_eq_true] at hfinished
    have hbegun : Keeps (fun state => holds state ∧ state.finished = false ∧
        state.waiting = interpreter.state.waiting) allowed (interpreter.begin project) := by
      obtain ⟨hwaiting, hends⟩ := begin_kept project interpreter
      exact ⟨⟨hbegin.state, hends.trans hfinished, hwaiting⟩, hbegin.fault⟩
    have htaken : Keeps (fun state => holds state ∧ state.finished = false) allowed
        (andThen (interpreter.begin project) (take project input)) := by
      refine hbegun.andThen (fun state hstate => ⟨hstate.1, hstate.2.1⟩) fun state hstate => ?_
      obtain ⟨hholds, hruns, hwaiting⟩ := hstate
      have hends := (take_finished project input state).trans hruns
      cases input with
      | none => exact .ok ⟨hholds, hruns⟩
      | some given =>
          have hkeeps := hanswer state given hholds hwaiting rfl
          exact ⟨⟨hkeeps.state, hends⟩, hkeeps.fault⟩
    have hwhole : Keeps holds allowed (andThen (andThen (interpreter.begin project)
        (take project input)) (proceed project)) := by
      refine htaken.andThen (fun state hstate => hstate.1) fun state ⟨hholds, hruns⟩ => ?_
      unfold proceed
      split
      · exact .ok hholds
      · next hgoes =>
          have hwaiting : state.waiting = .nothing := by simpa [State.isWaiting] using hgoes
          have hpaused : state.isPaused = false := State.isPaused_eq_false.mpr ⟨hwaiting, hruns⟩
          exact State.run_keeps hstep hfault hlimit hholds hpaused
    simp only [tick, hfinished, Bool.false_eq_true, if_false]
    refine ⟨hwhole.state, fun fault herror => hwhole.fault fault ?_⟩
    exact map_eq_error.mp herror

/-- Projects that begin alike, and take the same answers and steps where a run can be, have the same
ticks. -/
theorem tick_congr {other : Project}
    (hsame : interpreter.begin other = interpreter.begin project)
    (hbegin : holds (interpreter.begin project).1)
    (hanswer : ∀ state given, holds state → state.answer other given = state.answer project given ∧
      holds (state.answer project given).1)
    (hstep : ∀ state, holds state → state.step other = state.step project)
    (hkept : ∀ state next effects, holds state → state.isPaused = false →
      state.step project = .ok (next, effects) → holds next) :
    interpreter.tick other input = interpreter.tick project input := by
  have hticked := ticked project input interpreter
  have htake : ∀ {begun result}, interpreter.begin project = (begun, result) →
      take other input begun = take project input begun ∧ holds (take project input begun).1 := by
    intro begun result hbegun
    rw [hbegun] at hbegin
    cases input with
    | none => exact ⟨rfl, hbegin⟩
    | some given => exact hanswer begun given hbegin
  generalize interpreter.tick project input = outcome at hticked ⊢
  cases hticked with
  | ended hfinished => exact if_pos hfinished
  | unready hfinished hbegun => exact tick_of_unready hfinished (hsame.trans hbegun)
  | refused hfinished hbegun htaken =>
      exact tick_of_refused hfinished (hsame.trans hbegun) ((htake hbegun).1.trans htaken)
  | waits hfinished hbegun htaken hwaiting =>
      exact tick_of_waiting hfinished (hsame.trans hbegun) ((htake hbegun).1.trans htaken) hwaiting
  | runs hfinished hbegun htaken hpaused hrun =>
      obtain ⟨htook, hholds⟩ := htake hbegun
      rw [htaken] at htook hholds
      rw [← State.run_congr hstep hkept hholds hpaused] at hrun
      exact tick_of_run hfinished (hsame.trans hbegun) htook
        (State.isPaused_eq_false.mp hpaused).1 hrun
  | fails hfinished hbegun htaken hpaused hrun =>
      obtain ⟨htook, hholds⟩ := htake hbegun
      rw [htaken] at htook hholds
      rw [← State.run_congr hstep hkept hholds hpaused] at hrun
      exact tick_of_run hfinished (hsame.trans hbegun) htook
        (State.isPaused_eq_false.mp hpaused).1 hrun

end Interpreter
end SceneScript
