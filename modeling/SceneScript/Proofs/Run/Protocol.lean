import SceneScript.Proofs.Run.Drive
import SceneScript.Proofs.Run.Tick

/-! # Waits and the end of a run

A tick goes on until the run waits or the story ends, so a run that does not wait after a tick is
over. A wait is ended by one kind of input, and until it comes nothing changes. The end is announced
once, and nothing comes behind it.
-/

namespace SceneScript

/-! ## Waits -/

/-- The kind of input that ends the wait. -/
def Waiting.isAnsweredBy : Waiting → Input → Bool
  | .click, .click | .choice _, .choose _ | .transition _, .transitionFinished => true
  | _, _ => false

namespace State

variable {project : Project} {state next final : State} {effects : List Effect} {input : Input}

theorem answer_of_not_isAnsweredBy (h : state.waiting.isAnsweredBy input = false) :
    state.answer project input = (state, .ok []) := by
  unfold answer
  split
  · next hwaiting => simp [hwaiting, Waiting.isAnsweredBy] at h
  · next hwaiting => simp [hwaiting, Waiting.isAnsweredBy] at h
  · next hwaiting => simp [hwaiting, Waiting.isAnsweredBy] at h
  · rfl

/-! ## The end of the story

Neither commands nor answers announce the end. -/

theorem halted_not_mem_execute {action : Action Command} {index : Index} {execution : Execution}
    (h : action.execute project state index = .ok execution) :
    .halted ∉ execution.effects := by
  cases Action.executes h <;> simp [Effect.say]

theorem halted_not_mem_setChoiceFlag {choice : Choice}
    (h : state.setChoiceFlag choice = .ok (next, effects)) : .halted ∉ effects := by
  unfold setChoiceFlag at h
  split at h
  · obtain ⟨flagged, -, h⟩ := bind_eq_ok.mp h
    cases h
    simp
  · cases h
    simp

theorem halted_not_mem_pick {choice : Choice}
    (h : state.pick project choice = .ok (next, effects)) : .halted ∉ effects := by
  unfold pick at h
  split at h
  · obtain ⟨scene, -, h⟩ := bind_eq_ok.mp h
    obtain ⟨⟨flagged, noted⟩, hflag, h⟩ := bind_eq_ok.mp h
    cases h
    simpa using halted_not_mem_setChoiceFlag hflag
  · obtain ⟨⟨flagged, noted⟩, hflag, h⟩ := bind_eq_ok.mp h
    obtain ⟨position, -, h⟩ := bind_eq_ok.mp h
    cases h
    exact halted_not_mem_setChoiceFlag hflag

theorem halted_not_mem_answer (h : state.answer project input = (next, .ok effects)) :
    .halted ∉ effects := by
  have hanswers := answers project state input
  rw [h] at hanswers
  cases hanswers with
  | ignored | clicked _ _ => simp
  | chosen _ hchoose =>
      obtain ⟨_, _, -, -, hpick⟩ := exists_pick_of_choose hchoose
      exact halted_not_mem_pick hpick
  | arrived _ _ => simp

/-- The effects announce the end as their last, if the story ends here, and else do not. -/
inductive Announced (state : State) : List Effect → Prop where
  | ended {earlier : List Effect} (hfinished : state.finished = true)
      (hwaiting : state.waiting = .nothing) (hearlier : .halted ∉ earlier) :
      Announced state (earlier ++ [.halted])
  | goesOn {effects : List Effect} (hfinished : state.finished = false)
      (heffects : .halted ∉ effects) : Announced state effects

theorem Announced.append {first later : List Effect} (hfirst : .halted ∉ first)
    (h : state.Announced later) : state.Announced (first ++ later) := by
  cases h with
  | ended hfinished hwaiting hearlier =>
      rw [← List.append_assoc]
      exact .ended hfinished hwaiting (by simp [hfirst, hearlier])
  | goesOn hfinished heffects => exact .goesOn hfinished (by simp [hfirst, heffects])

theorem Announced.halted_not_mem (h : state.Announced effects)
    (hfinished : state.finished = false) : .halted ∉ effects := by
  cases h with
  | ended hover _ _ => rw [hfinished] at hover; cases hover
  | goesOn _ heffects => exact heffects

/-- Only the end of the last scene's list ends a run, and it is announced there. -/
theorem announced_step (hpaused : state.isPaused = false)
    (h : state.step project = .ok (next, effects)) : next.Announced effects := by
  obtain ⟨hwaiting, hfinished⟩ := isPaused_eq_false.mp hpaused
  cases step_iff.mp h with
  | leave _ _ => exact .goesOn hfinished (by simp)
  | fall _ _ _ => exact .goesOn hfinished (by simp)
  | halt _ _ _ =>
      have hover : Announced { state with finished := true } ([] ++ [.halted]) :=
        .ended rfl hwaiting (by simp)
      exact hover
  | advance hdone _ | enter hdone _ | wait hdone _ =>
      obtain ⟨command, -, hexecute⟩ := hdone
      exact .goesOn ((Action.execute_done hexecute).finished_eq.trans hfinished)
        (halted_not_mem_execute hexecute)
  | jump hdone _ _ =>
      obtain ⟨command, -, hexecute⟩ := hdone
      refine .goesOn ((Action.execute_done hexecute).finished_eq.trans hfinished) ?_
      simpa using halted_not_mem_execute hexecute

/-- A run that does not fail pauses, and announces the end if that is why. -/
theorem announced_run {limit steps : Nat} (hpaused : state.isPaused = false)
    (h : state.run project limit steps = (final, .ok effects)) :
    final.isPaused = true ∧ final.Announced effects := by
  induction steps generalizing state effects with
  | zero => cases h
  | succ steps ih =>
      obtain ⟨next, first, hstep, ⟨hstops, rfl, rfl⟩ | ⟨hgoes, later, hlater, rfl⟩⟩ :=
        run_succ_eq_ok.mp h
      · exact ⟨hstops, announced_step hpaused hstep⟩
      · obtain ⟨hstops, hannounced⟩ := ih hgoes hlater
        have hfirst := (announced_step hpaused hstep).halted_not_mem (isPaused_eq_false.mp hgoes).2
        exact ⟨hstops, hannounced.append hfirst⟩

theorem Announced.waiting_eq_nothing (h : state.Announced effects)
    (hpaused : state.isPaused = true) : state.waiting = .nothing ↔ state.finished = true := by
  cases h with
  | ended hfinished hwaiting _ => simp [hfinished, hwaiting]
  | goesOn hfinished _ => simpa [isPaused, isWaiting, hfinished] using hpaused

end State

/-! ## Ticks -/

namespace Interpreter

variable {project : Project} {interpreter next : Interpreter} {input : Option Input}
  {response : Response}

theorem halted_not_mem_begin {begun : State} {effects : List Effect}
    (h : interpreter.begin project = (begun, .ok effects)) : .halted ∉ effects := by
  rcases begin_cases project interpreter with heq | ⟨-, ⟨scene, -, heq⟩ | ⟨-, heq⟩⟩ <;>
    rw [heq] at h <;> cases h <;> simp

theorem halted_not_mem_take {state taken : State} {effects : List Effect}
    (h : take project input state = (taken, .ok effects)) : .halted ∉ effects := by
  cases input with
  | none => cases h; simp
  | some given => exact State.halted_not_mem_answer h

/-- A tick of a run that is not over pauses it, and announces the end if that is why. -/
theorem announced_tick (hfinished : interpreter.state.finished = false)
    (h : interpreter.tick project input = (next, .ok response)) :
    next.state.isPaused = true ∧ next.state.Announced response.effects ∧
      response.waiting = next.state.waiting := by
  have hticked := ticked project input interpreter
  rw [h] at hticked
  cases hticked with
  | ended hover => rw [hfinished] at hover; cases hover
  | waits _ hbegin htake hwaiting =>
      have hgoes := finished_of_take hfinished hbegin htake
      refine ⟨by simpa [State.isPaused, State.isWaiting, hgoes] using hwaiting, ?_, rfl⟩
      exact .goesOn hgoes (by simp [halted_not_mem_begin hbegin, halted_not_mem_take htake])
  | runs _ hbegin htake hpaused hrun =>
      obtain ⟨hstops, hannounced⟩ := State.announced_run hpaused hrun
      refine ⟨hstops, hannounced.append ?_, rfl⟩
      simp [halted_not_mem_begin hbegin, halted_not_mem_take htake]

/-- A run that is over waits for nothing. -/
def Settled (interpreter : Interpreter) : Prop :=
  interpreter.state.finished = true → interpreter.state.waiting = .nothing

/-- A failing tick settles a run as well. -/
theorem Settled.tick (h : interpreter.Settled) (project : Project) (input : Option Input) :
    (interpreter.tick project input).1.Settled := by
  have hticked := ticked project input interpreter
  generalize interpreter.tick project input = outcome at hticked ⊢
  intro hover
  cases hticked with
  | ended _ => exact h hover
  | unready hfinished hbegin =>
      have hbegun := (begin_kept project interpreter).2.trans hfinished
      rw [hbegin] at hbegun
      cases hbegun.symm.trans hover
  | refused hfinished hbegin htake | waits hfinished hbegin htake _ =>
      cases (finished_of_take hfinished hbegin htake).symm.trans hover
  | runs _ _ _ hpaused hrun =>
      obtain ⟨hstops, hannounced⟩ := State.announced_run hpaused hrun
      exact (hannounced.waiting_eq_nothing hstops).mpr hover
  | fails _ _ _ hpaused hrun => exact State.run_fault_waiting hpaused hrun

theorem settled_afterTurns (project : Project) (turns : List Turn) :
    ((new project).afterTurns turns).Settled :=
  afterTurns_induction (fun _ => rfl) (fun _ project input h => h.tick project input) turns

/-- How a run treats an input and reports on itself. -/
structure Orderly (project : Project) (input : Option Input) (interpreter : Interpreter) :
    Prop where
  /-- A run that waits for nothing after a tick is over. -/
  reports : ∀ next response, interpreter.tick project input = (next, .ok response) →
    (response.waiting = .nothing ↔ next.state.finished = true)
  /-- While the run waits, only an input of the right kind counts. -/
  ignores : interpreter.state.waiting ≠ .nothing →
    (∀ given, input = some given → interpreter.state.waiting.isAnsweredBy given = false) →
    interpreter.tick project input = (interpreter, .ok ⟨[], interpreter.state.waiting⟩)
  /-- While it does not wait, no input counts. -/
  idles : interpreter.state.waiting = .nothing →
    interpreter.tick project input = interpreter.tick project none
  /-- The end is the last that is announced. -/
  halts : ∀ next response, interpreter.tick project input = (next, .ok response) →
    .halted ∈ response.effects →
    next.state.finished = true ∧ ∃ earlier, response.effects = earlier ++ [.halted] ∧
      .halted ∉ earlier

theorem take_of_not_isAnsweredBy {state : State}
    (h : ∀ given, input = some given → state.waiting.isAnsweredBy given = false) :
    take project input state = (state, .ok []) := by
  cases input with
  | none => rfl
  | some given => exact State.answer_of_not_isAnsweredBy (h given rfl)

/-- Beginning makes no difference to which inputs count. -/
theorem tick_of_waiting_nothing (h : interpreter.state.waiting = .nothing) :
    interpreter.tick project input = interpreter.tick project none := by
  have hignored : ∀ state : State, state.waiting = .nothing →
      take project input state = take project none state := fun state hwaiting => by
    refine take_of_not_isAnsweredBy fun given _ => ?_
    rw [hwaiting]
    rfl
  have hbegun := (begin_kept project interpreter).1.trans h
  unfold tick
  cases hbegin : interpreter.begin project with
  | mk begun first =>
      rw [hbegin] at hbegun
      cases first <;> simp [andThen, hignored begun hbegun]

theorem Settled.orderly (h : interpreter.Settled) (harises : interpreter.Arises)
    (project : Project) (input : Option Input) : interpreter.Orderly project input where
  reports next response htick := by
    cases hfinished : interpreter.state.finished with
    | true =>
        rw [tick_of_finished hfinished] at htick
        cases htick
        simp [hfinished]
    | false =>
        obtain ⟨hpaused, hannounced, hreports⟩ := announced_tick hfinished htick
        rw [hreports]
        exact hannounced.waiting_eq_nothing hpaused
  ignores hwaiting hinput := by
    have hfinished : interpreter.state.finished = false :=
      Bool.eq_false_iff.mpr fun hover => hwaiting (h hover)
    have hstarted := harises.entered hwaiting
    have hbegin : interpreter.begin project = (interpreter.state, .ok []) := if_pos hstarted
    rw [tick_of_waiting hfinished hbegin (take_of_not_isAnsweredBy hinput) hwaiting, ← hstarted]
    rfl
  idles := tick_of_waiting_nothing
  halts next response htick hmem := by
    cases hfinished : interpreter.state.finished with
    | true =>
        rw [tick_of_finished hfinished] at htick
        cases htick
        cases hmem
    | false =>
        obtain ⟨-, hannounced, -⟩ := announced_tick hfinished htick
        generalize response.effects = effects at hannounced hmem ⊢
        cases hannounced with
        | ended hover _ hearlier => exact ⟨hover, _, rfl, hearlier⟩
        | goesOn _ heffects => exact absurd hmem heffects

/-! ## Whole runs -/

/-- A tick that fails has no effects. -/
def effectsOf : Except Fault Response → List Effect
  | .ok response => response.effects
  | .error _ => []

/-- Everything that the ticks bring about. -/
def emitted (interpreter : Interpreter) (turns : List Turn) : List Effect :=
  (interpreter.replies turns).flatMap fun reply => effectsOf reply.1

theorem emitted_cons (interpreter : Interpreter) (turn : Turn) (turns : List Turn) :
    interpreter.emitted (turn :: turns) =
      effectsOf (interpreter.tick turn.project turn.input).2 ++
        (interpreter.tick turn.project turn.input).1.emitted turns :=
  List.flatMap_cons

theorem emitted_of_finished (h : interpreter.state.finished = true) (turns : List Turn) :
    interpreter.emitted turns = [] := by
  simp [emitted, replies_of_finished h, effectsOf]

theorem afterTurns_of_finished (h : interpreter.state.finished = true) (turns : List Turn) :
    interpreter.afterTurns turns = interpreter := by
  induction turns with
  | nil => rfl
  | cons turn turns ih => rwa [afterTurns, List.foldl_cons, tick_of_finished h]

/-- The tick that announces the end is the last that brings anything about. -/
theorem count_halted_emitted_le (interpreter : Interpreter) (turns : List Turn) :
    (interpreter.emitted turns).count .halted ≤ 1 := by
  induction turns generalizing interpreter with
  | nil => simp [emitted, replies]
  | cons turn turns ih =>
      rw [emitted_cons, List.count_append]
      cases hfinished : interpreter.state.finished with
      | true =>
          rw [tick_of_finished hfinished, emitted_of_finished hfinished]
          simp [effectsOf]
      | false =>
          cases htick : interpreter.tick turn.project turn.input with
          | mk next outcome =>
              cases outcome with
              | error fault => simpa [effectsOf] using ih next
              | ok response =>
                  obtain ⟨-, hannounced, -⟩ := announced_tick hfinished htick
                  have hlater := ih next
                  dsimp only [effectsOf]
                  generalize response.effects = effects at hannounced ⊢
                  cases hannounced with
                  | ended hover _ hearlier =>
                      simp [emitted_of_finished hover, List.count_eq_zero.mpr hearlier]
                  | goesOn _ heffects => simpa [List.count_eq_zero.mpr heffects] using hlater

/-- However the project is edited and whichever ticks fail, every tick of a run is orderly; the end
is announced at most once, and every tick behind it returns nothing and changes nothing. -/
theorem tick_protocol (first : Project) (earlier : List Turn) (turn : Turn) (later : List Turn) :
    let interpreter := (new first).afterTurns earlier
    let outcome := interpreter.tick turn.project turn.input
    interpreter.Orderly turn.project turn.input ∧
      (.halted ∈ effectsOf outcome.2 →
        outcome.1.afterTurns later = outcome.1 ∧
        outcome.1.replies later = later.map fun _ => (.ok ⟨[], .nothing⟩, outcome.1.state)) ∧
      ((new first).emitted (earlier ++ turn :: later)).count .halted ≤ 1 := by
  intro interpreter outcome
  have horderly : interpreter.Orderly turn.project turn.input :=
    (settled_afterTurns first earlier).orderly (arises_afterTurns first earlier) _ _
  refine ⟨horderly, fun hmem => ?_, count_halted_emitted_le _ _⟩
  have hfinished : outcome.1.state.finished = true := by
    cases hresult : outcome.2 with
    | error fault =>
        rw [hresult] at hmem
        cases hmem
    | ok response =>
        rw [hresult] at hmem
        exact (horderly.halts outcome.1 response (Prod.ext rfl hresult) hmem).1
  exact ⟨afterTurns_of_finished hfinished later, replies_of_finished hfinished later⟩

/-- A single line. -/
def soliloquy : Project where
  scenes := [{ id := "a", commands := [.dialogue "1" "" "Alone" []] }]

/-- The line waits for a click; behind the click, the end has come for whatever project follows. -/
theorem soliloquy_ends :
    let interpreter := (new soliloquy).afterTurns [⟨soliloquy, none⟩]
    let outcome := interpreter.tick soliloquy (some .click)
    interpreter.tick soliloquy (some (.choose 0)) = (interpreter, .ok ⟨[], .click⟩) ∧
      effectsOf outcome.2 = [.halted] ∧
      outcome.1.replies [⟨{ soliloquy with scenes := [] }, none⟩] =
        [(.ok ⟨[], .nothing⟩, outcome.1.state)] := by
  intro interpreter outcome
  have hannounced : effectsOf outcome.2 = [.halted] := rfl
  have hhalted : .halted ∈ effectsOf outcome.2 := by simp [hannounced]
  have hprotocol := tick_protocol soliloquy [⟨soliloquy, none⟩]
  refine ⟨?_, hannounced, ((hprotocol ⟨soliloquy, some .click⟩ _).2.1 hhalted).2⟩
  have hwaiting : interpreter.state.waiting = .click := rfl
  rw [← hwaiting]
  refine (hprotocol ⟨soliloquy, some (.choose 0)⟩ []).1.ignores (by rw [hwaiting]; nofun) ?_
  rintro _ ⟨⟩
  rw [hwaiting]
  rfl

end Interpreter
end SceneScript
