import SceneScript.Proofs.Run.Direct
import SceneScript.Proofs.Run.Drive
import SceneScript.Proofs.Run.Standing

/-! # Transitions of gotos

A goto with a transition makes the run wait before it jumps. Where someone reports the end of each
such transition at once, the run shows what it shows in the project whose gotos jump at once, and
whenever it does not wait for a goto both runs are in the same state.
-/

namespace SceneScript

/-! ## Waiting for a goto -/

def Command.isGoto (command : Command) : Bool :=
  match command.action with
  | .goto .. => true
  | _ => false

def Effect.beginsTransition : Effect → Bool
  | .beginTransition .. => true
  | _ => false

/-- The effects that begin no transition. -/
def Effect.lasting (effects : List Effect) : List Effect :=
  effects.filter fun effect => !effect.beginsTransition

theorem Effect.lasting_append (effects later : List Effect) :
    lasting (effects ++ later) = lasting effects ++ lasting later :=
  List.filter_append ..

namespace State

variable {project : Project} {state next final : State} {effects first : List Effect}
  {target : Index}

/-- The run waits for the transition of a goto, rather than of an answer. -/
def leaving (project : Project) (state : State) : Bool :=
  match state.waiting, project.commandAt state.position with
  | .transition _, .ok command => command.isGoto
  | _, _ => false

/-- The effects of a tick that ends in this state, without the transition that a goto has begun: it
is the only one there (`effects_of_run_leaving`). -/
def shown (project : Project) (state : State) (effects : List Effect) : List Effect :=
  if state.leaving project then Effect.lasting effects else effects

theorem shown_append (hfirst : Effect.lasting first = first) :
    state.shown project (first ++ effects) = first ++ state.shown project effects := by
  unfold shown
  split
  · rw [Effect.lasting_append, hfirst]
  · rfl

theorem leaving_eq_false (h : ∀ target, state.waiting ≠ .transition target) :
    state.leaving project = false := by
  unfold leaving
  split
  · next hwaiting _ => exact absurd hwaiting (h _)
  · rfl

/-- The command at the position is a goto with a transition. -/
def AtGoto (project : Project) (state : State) (target : Index) : Prop :=
  ∃ command, project.commandAt state.position = .ok command ∧ command.action = .goto target true

theorem leaving_of_atGoto (h : state.AtGoto project target) :
    { state with waiting := .transition target }.leaving project = true := by
  obtain ⟨command, hcommand, haction⟩ := h
  simp [leaving, hcommand, Command.isGoto, haction]

end State

/-! ## Steps -/

section Steps

variable {project : Project} {state next final : State} {effects : List Effect} {target : Index}
  {scene : Scene}

/-- Without a transition to begin, an action is the one it was. -/
theorem Action.execute_direct {action : Action Command} {index : Index}
    (hgoto : ∀ target, action = .goto target true → project.scene? target = none) :
    action.direct.execute project.direct state index = action.execute project state index := by
  cases action with
  | dialogue speaker text choices => cases choices <;> rfl
  | branching label branches =>
      simp only [direct, execute_branching, List.map_map]
      rfl
  | setFlag name value => simp only [direct, withoutTransition, execute_setFlag]
  | setVariable name operation operand =>
      simp only [direct, withoutTransition, execute_setVariable]
  | call id => simp only [direct, withoutTransition, execute_call, Project.checkGroup_direct]
  | goto target withTransition =>
      simp only [direct, withoutTransition, execute_goto,
        project.rewritesScenes_direct.sceneAt_eq]
      cases withTransition with
      | true =>
          have hmissing : project.sceneAt target =
              .error (.missingScene target project.scenes.length) :=
            Project.sceneAt_eq_error.mpr ⟨hgoto target rfl, rfl⟩
          rw [hmissing]
          rfl
      | false => cases project.sceneAt target <;> rfl
  | _ => rfl

/-- An action that is no goto with a transition neither begins one nor waits for one. -/
theorem Action.lasting_execute {action : Action Command} {index : Index} {execution : Execution}
    (h : action.execute project state index = .ok execution)
    (hgoto : ∀ target, action = .goto target true → project.scene? target = none) :
    Effect.lasting execution.effects = execution.effects ∧
      ∀ target, execution.flow ≠ .wait (.transition target) := by
  cases executes h with
  | departs hscene => cases (hgoto _ rfl).symm.trans hscene
  | _ => exact ⟨rfl, by simp⟩

namespace State

/-- Everywhere but at a goto that has a transition and finds its scene, a step is the one it was. -/
theorem step_direct (h : ∀ target, state.AtGoto project target → project.scene? target = none) :
    state.step project.direct = state.step project := by
  unfold step Project.resolve
  rw [Project.listAt_direct]
  cases hlist : project.listAt state.position.scene state.position.frames with
  | error fault => rfl
  | ok commands =>
      simp only [Except.map, bind, Except.bind, Index.of?_map]
      cases hplace : state.position.command.of? commands with
      | none => exact project.rewritesScenes_direct.endList_eq state
      | some command =>
          have hexecute : command.direct.action.execute project.direct state state.position.command =
              command.action.execute project state state.position.command :=
            Action.execute_direct fun target haction =>
              h target ⟨command, Position.commandAt_eq_ok.mpr ⟨commands, hlist, hplace⟩, haction⟩
          simp only [Option.map_some, hexecute, project.rewritesScenes_direct.follow_eq]

theorem step_of_atGoto (h : state.AtGoto project target)
    (hscene : project.scene? target = some scene) :
    state.step project = .ok ({ state with waiting := .transition target },
      [.beginTransition state.position.scene target]) := by
  obtain ⟨command, hcommand, haction⟩ := h
  have hexecute : command.action.execute project state state.position.command =
      .ok { state, effects := [.beginTransition state.position.scene target],
            flow := .wait (.transition target) } := by
    rw [haction, Action.execute_goto, Project.sceneAt_eq_ok.mpr hscene]
    rfl
  exact step_iff.mpr (.wait ⟨command, hcommand, hexecute⟩ rfl)

/-- The direct project jumps. What a jump enters does not depend on the commands of the scene. -/
theorem step_direct_of_atGoto (h : state.AtGoto project target)
    (hscene : project.scene? target = some scene) :
    state.step project.direct = .ok (state.inScene target scene, [.sceneEntered target]) := by
  obtain ⟨command, hcommand, haction⟩ := h
  have hfound : project.direct.scene? target =
      some (scene.rewrite Command.withoutTransition) := by
    rw [project.rewritesScenes_direct.scene?_eq, hscene]
    rfl
  have hdirect : project.direct.commandAt state.position = .ok command.direct := by
    rw [Project.commandAt_direct, hcommand]
    rfl
  have hexecute : command.direct.action.execute project.direct state state.position.command =
      .ok { state, flow := .jump target } := by
    simp only [Command.direct, haction, Action.direct, Action.withoutTransition,
      Action.execute_goto, Project.sceneAt_eq_ok.mpr hfound]
    rfl
  have hstep : state.step project.direct =
      .ok (state.inScene target (scene.rewrite Command.withoutTransition), [.sceneEntered target]) :=
    step_iff.mpr (.jump ⟨command.direct, hdirect, hexecute⟩ rfl hfound)
  exact hstep

/-- Away from gotos with a transition, a step neither begins one nor waits for one. -/
theorem lasting_step (hstep : state.step project = .ok (next, effects))
    (hwaiting : state.waiting = .nothing)
    (hgoto : ∀ target, state.AtGoto project target → project.scene? target = none) :
    Effect.lasting effects = effects ∧ ∀ target, next.waiting ≠ .transition target := by
  have hsteady : ∀ target, state.waiting ≠ .transition target := by
    rw [hwaiting]
    exact nofun
  have hdone : ∀ execution, state.Performs project execution →
      Effect.lasting execution.effects = execution.effects ∧
        execution.state.waiting = state.waiting ∧
        ∀ target, execution.flow ≠ .wait (.transition target) := by
    rintro execution ⟨command, hcommand, hexecute⟩
    have hlasting := Action.lasting_execute hexecute
      fun target haction => hgoto target ⟨command, hcommand, haction⟩
    exact ⟨hlasting.1, (Action.execute_done hexecute).waiting_eq, hlasting.2⟩
  cases step_iff.mp hstep with
  | leave _ _ | fall _ _ _ | halt _ _ _ => exact ⟨rfl, hsteady⟩
  | @advance execution hperforms _ | @enter execution _ hperforms _ =>
      obtain ⟨hlasting, hsame, -⟩ := hdone execution hperforms
      exact ⟨hlasting, fun target => hsame ▸ hsteady target⟩
  | @jump execution _ _ hperforms _ _ =>
      obtain ⟨hlasting, hsame, -⟩ := hdone execution hperforms
      exact ⟨by rw [Effect.lasting_append, hlasting]; rfl, fun target => hsame ▸ hsteady target⟩
  | @wait execution reason hperforms hflow =>
      obtain ⟨hlasting, -, hnone⟩ := hdone execution hperforms
      refine ⟨hlasting, ?_⟩
      rintro target rfl
      exact hnone target hflow

/-! ## Runs -/

/-- The run begins the transition of a goto, or its step neither begins one nor waits for one. -/
theorem leaves_or_missing (project : Project) (state : State) :
    (∃ target scene, state.AtGoto project target ∧ project.scene? target = some scene) ∨
      ∀ target, state.AtGoto project target → project.scene? target = none := by
  by_cases hleaves : ∃ target scene, state.AtGoto project target ∧ project.scene? target = some scene
  · exact .inl hleaves
  · refine .inr fun target hat => Option.eq_none_iff_forall_ne_some.mpr fun scene hscene => ?_
    exact hleaves ⟨target, scene, hat, hscene⟩

/-- A run that comes to wait for a goto begins that transition at its end, and no other. -/
theorem effects_of_run_leaving {limit steps : Nat} (hpaused : state.isPaused = false)
    (hrun : state.run project limit steps = (final, .ok effects))
    (hleaving : final.leaving project = true) :
    ∃ target, final.waiting = .transition target ∧
      effects = Effect.lasting effects ++ [.beginTransition final.position.scene target] := by
  induction steps generalizing state effects with
  | zero => cases hrun
  | succ steps ih =>
      obtain ⟨next, first, hstep, hrest⟩ := run_succ_eq_ok.mp hrun
      rcases leaves_or_missing project state with ⟨target, scene, hat, hscene⟩ | hmissing
      · rw [step_of_atGoto hat hscene] at hstep
        cases hstep
        rcases hrest with ⟨-, rfl, rfl⟩ | ⟨hgoes, -⟩
        · exact ⟨target, rfl, rfl⟩
        · cases (isPaused_eq_false.mp hgoes).1
      · have hlasting := lasting_step hstep (isPaused_eq_false.mp hpaused).1 hmissing
        rcases hrest with ⟨-, rfl, rfl⟩ | ⟨hgoes, later, hlater, rfl⟩
        · rw [leaving_eq_false hlasting.2] at hleaving
          cases hleaving
        · obtain ⟨target, hwaits, hend⟩ := ih hgoes hlater
          refine ⟨target, hwaits, ?_⟩
          rw [Effect.lasting_append, hlasting.1, List.append_assoc, ← hend]

/-- How far a state is behind one of the direct project, and the effects that are still to come: it
is the same state, or it waits at a goto that the other has passed, less than `steps` steps ago. -/
inductive Behind (project : Project) (final : State) : Nat → State → List Effect → Prop where
  | level {steps : Nat} (hstays : final.leaving project = false) :
      Behind project final steps final []
  | leaving {steps : Nat} {state : State} {target : Index} {scene : Scene} {later : List Effect}
      (hpaused : state.isPaused = false) (hgoto : state.AtGoto project target)
      (hscene : project.scene? target = some scene) (hsteps : steps ≤ maxSteps)
      (hrun : (state.inScene target scene).run project.direct maxSteps steps = (final, .ok later)) :
      Behind project final steps { state with waiting := .transition target }
        (.sceneEntered target :: later)

/-- A run does what it does in the direct project, up to the first goto with a transition. -/
theorem run_direct {steps : Nat} (hsteps : steps ≤ maxSteps) (hpaused : state.isPaused = false)
    (hrun : state.run project.direct maxSteps steps = (final, .ok effects)) :
    ∃ reached passed rest pending, state.run project maxSteps steps = (reached, .ok passed) ∧
      Behind project final rest reached pending ∧ rest < steps ∧
      effects = reached.shown project passed ++ pending := by
  induction steps generalizing state effects with
  | zero => cases hrun
  | succ steps ih =>
      obtain ⟨next, first, hstep, hrest⟩ := run_succ_eq_ok.mp hrun
      obtain ⟨hwaiting, hfinished⟩ := isPaused_eq_false.mp hpaused
      rcases leaves_or_missing project state with ⟨target, scene, hat, hscene⟩ | hmissing
      · rw [step_direct_of_atGoto hat hscene] at hstep
        cases hstep
        rcases hrest with ⟨hends, -, -⟩ | ⟨-, later, hlater, rfl⟩
        · have hgoes : (state.inScene target scene).isPaused = false := hpaused
          rw [hgoes] at hends
          cases hends
        · refine ⟨{ state with waiting := .transition target },
            [.beginTransition state.position.scene target], steps, .sceneEntered target :: later,
            run_succ_eq_ok.mpr ⟨_, _, step_of_atGoto hat hscene, .inl ⟨rfl, rfl, rfl⟩⟩,
            .leaving hpaused hat hscene (Nat.le_of_succ_le hsteps) hlater, Nat.lt_succ_self _, ?_⟩
          simp [shown, leaving_of_atGoto hat, Effect.lasting, Effect.beginsTransition]
      · rw [step_direct hmissing] at hstep
        have hlasting := lasting_step hstep hwaiting hmissing
        rcases hrest with ⟨hends, rfl, rfl⟩ | ⟨hgoes, later, hlater, rfl⟩
        · have hstays : final.leaving project = false := leaving_eq_false hlasting.2
          refine ⟨final, effects, 0, [], run_succ_eq_ok.mpr ⟨_, _, hstep, .inl ⟨hends, rfl, rfl⟩⟩,
            .level hstays, Nat.succ_pos _, ?_⟩
          simp [shown, hstays]
        · obtain ⟨reached, passed, rest, pending, hreached, hbehind, hlt, rfl⟩ :=
            ih (Nat.le_of_succ_le hsteps) hgoes hlater
          refine ⟨reached, first ++ passed, rest, pending,
            run_succ_eq_ok.mpr ⟨_, _, hstep, .inr ⟨hgoes, passed, hreached, rfl⟩⟩, hbehind,
            Nat.lt_succ_of_lt hlt, ?_⟩
          rw [shown_append hlasting.1, List.append_assoc]

end State
end Steps

/-! ## Inputs -/

section Inputs

variable {project : Project} {state next taken begun : State} {effects answered : List Effect}

namespace State

theorem choose_direct (state : State) (count index : Index) :
    state.choose project.direct count index = state.choose project count index := by
  unfold choose
  rw [Project.commandAt_direct]
  cases project.commandAt state.position with
  | error fault => rfl
  | ok command => simp only [Except.map, bind, Except.bind, Command.choices?_direct,
      project.rewritesScenes_direct.pick_eq]

theorem answer_direct (state : State) (input : Input) :
    state.answer project.direct input = state.answer project input := by
  unfold answer
  simp only [choose_direct, project.rewritesScenes_direct.enterScene_eq]

theorem lasting_setChoiceFlag {choice : Choice}
    (h : state.setChoiceFlag choice = .ok (next, effects)) :
    Effect.lasting effects = effects := by
  unfold setChoiceFlag at h
  split at h
  · obtain ⟨flagged, -, h⟩ := bind_eq_ok.mp h
    cases h
    rfl
  · cases h
    rfl

/-- An answer that begins a transition waits for it. -/
theorem lasting_pick {choice : Choice} (h : state.pick project choice = .ok (next, effects))
    (hwaiting : next.waiting = .nothing) : Effect.lasting effects = effects := by
  unfold pick at h
  split at h
  · obtain ⟨scene, -, h⟩ := bind_eq_ok.mp h
    obtain ⟨⟨flagged, noted⟩, -, h⟩ := bind_eq_ok.mp h
    cases h
    cases hwaiting
  · obtain ⟨⟨flagged, noted⟩, hflag, h⟩ := bind_eq_ok.mp h
    obtain ⟨position, -, h⟩ := bind_eq_ok.mp h
    cases h
    exact lasting_setChoiceFlag hflag

/-- What an answer waits for stands at a dialogue. -/
theorem leaving_choose {count index : Index}
    (h : state.choose project count index = .ok (next, effects)) : next.leaving project = false := by
  obtain ⟨command, choice, hcommand, hplace, hpick⟩ := exists_pick_of_choose h
  obtain ⟨speaker, text, choices, haction, -⟩ :=
    Command.exists_dialogue (List.mem_of_getElem? hplace)
  obtain ⟨_, ⟨_, rfl⟩, -, ⟨-, -, rfl⟩ | rfl⟩ := pick_kept hpick
  · simp [leaving, hcommand, Command.isGoto, haction]
  · exact leaving_eq_false nofun

end State

namespace Interpreter

variable {interpreter : Interpreter}

theorem take_direct (input : Option Input) (state : State) :
    take project.direct input state = take project input state := by
  cases input with
  | none => rfl
  | some given => exact State.answer_direct state given

/-- A run that has not begun waits for nothing, so its beginning makes it wait for nothing. -/
theorem leaving_begin (hstays : interpreter.state.leaving project = false)
    (hunbegun : interpreter.started = false → interpreter.state.waiting = .nothing)
    (h : interpreter.begin project = (begun, .ok effects)) :
    begun.leaving project = false ∧ Effect.lasting effects = effects := by
  rcases begin_cases project interpreter with heq | ⟨hstarted, ⟨scene, -, heq⟩ | ⟨-, heq⟩⟩ <;>
    rw [heq] at h <;> cases h
  · exact ⟨hstays, rfl⟩
  · refine ⟨State.leaving_eq_false fun target hwaiting => ?_, rfl⟩
    have hnothing : interpreter.state.waiting = .transition target := hwaiting
    rw [hunbegun hstarted] at hnothing
    cases hnothing

/-- No input makes the run wait for a goto, and one that makes it go on begins no transition. -/
theorem leaving_take {input : Option Input} (hstays : state.leaving project = false)
    (h : take project input state = (taken, .ok answered)) :
    taken.leaving project = false ∧
      (taken.waiting = .nothing → Effect.lasting answered = answered) := by
  cases input with
  | none =>
      cases h
      exact ⟨hstays, fun _ => rfl⟩
  | some given =>
      have hanswers := State.answers project state given
      rw [show state.answer project given = (taken, .ok answered) from h] at hanswers
      cases hanswers with
      | ignored => exact ⟨hstays, fun _ => rfl⟩
      | clicked _ _ => exact ⟨State.leaving_eq_false nofun, fun _ => rfl⟩
      | chosen _ hchoose =>
          obtain ⟨_, _, -, -, hpick⟩ := State.exists_pick_of_choose hchoose
          exact ⟨State.leaving_choose hchoose, State.lasting_pick hpick⟩
      | arrived _ _ => exact ⟨State.leaving_eq_false nofun, fun _ => rfl⟩

end Interpreter
end Inputs

/-! ## Ticks -/

namespace Interpreter

variable {project : Project} {interpreter ahead next final reached : Interpreter}
  {inputs : List (Option Input)} {pending effects shown : List Effect} {steps : Nat}

/-- A run is behind one of the direct project as its state is. -/
structure Behind (project : Project) (ahead : Interpreter) (steps : Nat) (interpreter : Interpreter)
    (pending : List Effect) : Prop where
  state : State.Behind project ahead.state steps interpreter.state pending
  started_eq : interpreter.started = ahead.started
  unbegun : interpreter.started = false → interpreter.state.waiting = .nothing

theorem Behind.level (hstays : interpreter.state.leaving project = false)
    (hunbegun : interpreter.started = false → interpreter.state.waiting = .nothing) :
    Behind project interpreter steps interpreter [] :=
  ⟨.level hstays, rfl, hunbegun⟩

/-- A run that does not wait for a goto has caught up. -/
theorem Behind.eq_of_stays (h : Behind project ahead steps interpreter pending)
    (hstays : interpreter.state.leaving project = false) : interpreter = ahead ∧ pending = [] := by
  obtain ⟨state, started⟩ := interpreter
  obtain ⟨final, begun⟩ := ahead
  obtain ⟨hstate, hstarted, -⟩ := h
  cases hstate with
  | level _ =>
      cases hstarted
      exact ⟨rfl, rfl⟩
  | leaving _ hgoto _ _ _ =>
      rw [State.leaving_of_atGoto hgoto] at hstays
      cases hstays

/-- From the same place, a tick does what it does in the direct project, or falls behind. -/
theorem tick_direct {input : Option Input} {response : Response}
    (hstays : interpreter.state.leaving project = false)
    (hunbegun : interpreter.started = false → interpreter.state.waiting = .nothing)
    (htick : interpreter.tick project.direct input = (ahead, .ok response)) :
    ∃ next reply rest pending, interpreter.tick project input = (next, .ok reply) ∧
      Behind project ahead rest next pending ∧
      response.effects = next.state.shown project reply.effects ++ pending := by
  have hticked := ticked project.direct input interpreter
  rw [htick] at hticked
  cases hticked with
  | ended hfinished =>
      refine ⟨interpreter, _, 0, [], if_pos hfinished, .level hstays hunbegun, ?_⟩
      simp [State.shown, hstays]
  | waits hfinished hbegin htake hwaiting =>
      rw [project.rewritesScenes_direct.begin_eq] at hbegin
      rw [take_direct] at htake
      have hlevel := (leaving_take (leaving_begin hstays hunbegun hbegin).1 htake).1
      refine ⟨_, _, 0, [], tick_of_waiting hfinished hbegin htake hwaiting, .level hlevel nofun, ?_⟩
      simp [State.shown, hlevel]
  | @runs begun taken final entered answered later hfinished hbegin htake hpaused hrun =>
      rw [project.rewritesScenes_direct.begin_eq] at hbegin
      rw [take_direct] at htake
      have hwaiting := (State.isPaused_eq_false.mp hpaused).1
      obtain ⟨hbegun, hentered⟩ := leaving_begin hstays hunbegun hbegin
      have hanswered := (leaving_take hbegun htake).2 hwaiting
      obtain ⟨reached, passed, rest, pending, hreached, hbehind, -, rfl⟩ :=
        State.run_direct (Nat.le_refl _) hpaused hrun
      have hlasting : Effect.lasting (entered ++ answered) = entered ++ answered := by
        rw [Effect.lasting_append, hentered, hanswered]
      refine ⟨_, _, rest, pending, tick_of_run hfinished hbegin htake hwaiting hreached,
        ⟨hbehind, rfl, nofun⟩, ?_⟩
      rw [State.shown_append hlasting]
      exact (List.append_assoc ..).symm

/-- At the end of the transition, the run catches up, at least with the goto that it waited for. -/
theorem Behind.arrive (h : Behind project ahead steps interpreter pending)
    (hleaving : interpreter.state.leaving project = true) :
    ∃ next reply rest later,
      interpreter.tick project (some .transitionFinished) = (next, .ok reply) ∧
        Behind project ahead rest next later ∧ rest < steps ∧
        pending = next.state.shown project reply.effects ++ later := by
  obtain ⟨state, started⟩ := interpreter
  obtain ⟨final, begun⟩ := ahead
  obtain ⟨hstate, rfl, hunbegun⟩ := h
  cases hstate with
  | level hstays =>
      rw [hstays] at hleaving
      cases hleaving
  | @leaving state target scene later hpaused hgoto hscene hsteps hrun =>
      obtain ⟨hwaiting, hfinished⟩ := State.isPaused_eq_false.mp hpaused
      have hstarted : started = true := by
        cases started with
        | true => rfl
        | false => cases hunbegun rfl
      subst hstarted
      have harrived : (state.inScene target scene).isPaused = false := hpaused
      obtain ⟨reached, passed, rest, after, hreached, hbehind, hlt, rfl⟩ :=
        State.run_direct hsteps harrived hrun
      have harrive : take project (some .transitionFinished)
          { state with waiting := .transition target } =
            (state.inScene target scene, .ok [.sceneEntered target]) := by
        have hsame : { state with waiting := .nothing } = state := by rw [← hwaiting]
        simp [take, State.answer, hsame, State.enterScene_of_scene? hscene]
      have hfull := State.run_of_le hsteps hreached nofun
      refine ⟨_, _, rest, after, tick_of_run hfinished rfl harrive hwaiting hfull,
        ⟨hbehind, rfl, nofun⟩, hlt, ?_⟩
      rw [State.shown_append rfl]
      rfl

/-- The run of the direct project never waits for a goto. -/
theorem Behind.stays (h : Behind project ahead steps interpreter pending) :
    ahead.state.leaving project = false := by
  induction steps using Nat.strongRecOn generalizing interpreter pending with
  | ind steps ih =>
      cases hleaving : interpreter.state.leaving project with
      | true =>
          obtain ⟨next, reply, rest, later, -, hnext, hlt, -⟩ := h.arrive hleaving
          exact ih rest hlt hnext
      | false =>
          obtain ⟨rfl, -⟩ := h.eq_of_stays hleaving
          exact hleaving

theorem Behind.unbegun_ahead (h : Behind project ahead steps interpreter pending)
    (hstarted : ahead.started = false) : ahead.state.waiting = .nothing := by
  have hwaiting := h.unbegun (h.started_eq.trans hstarted)
  have hstays : interpreter.state.leaving project = false :=
    State.leaving_eq_false (hwaiting ▸ nofun)
  obtain ⟨rfl, -⟩ := h.eq_of_stays hstays
  exact hwaiting

/-! ## Whole runs -/

/-- A run that takes all inputs, where the end of each transition of a goto is reported as soon as
the run waits for it, and what it shows apart from the beginnings of these transitions. -/
inductive Attended (project : Project) :
    Interpreter → List (Option Input) → Interpreter → List Effect → Prop where
  | nil {interpreter : Interpreter} : Attended project interpreter [] interpreter []
  | tick {interpreter next final : Interpreter} {input : Option Input} {inputs : List (Option Input)}
      {response : Response} {later : List Effect}
      (hstays : interpreter.state.leaving project = false)
      (htick : interpreter.tick project input = (next, .ok response))
      (hrest : Attended project next inputs final later) :
      Attended project interpreter (input :: inputs) final
        (next.state.shown project response.effects ++ later)
  | arrive {interpreter next final : Interpreter} {inputs : List (Option Input)}
      {response : Response} {later : List Effect}
      (hleaving : interpreter.state.leaving project = true)
      (htick : interpreter.tick project (some .transitionFinished) = (next, .ok response))
      (hrest : Attended project next inputs final later) :
      Attended project interpreter inputs final (next.state.shown project response.effects ++ later)

/-- A run that is behind catches up and goes on. -/
theorem Attended.of_behind (h : Behind project ahead steps interpreter pending)
    (hahead : Attended project ahead inputs final effects) :
    Attended project interpreter inputs final (pending ++ effects) := by
  induction steps using Nat.strongRecOn generalizing interpreter pending with
  | ind steps ih =>
      cases hleaving : interpreter.state.leaving project with
      | true =>
          obtain ⟨next, reply, rest, later, htick, hnext, hlt, rfl⟩ := h.arrive hleaving
          rw [List.append_assoc]
          exact .arrive hleaving htick (ih rest hlt hnext)
      | false =>
          obtain ⟨rfl, rfl⟩ := h.eq_of_stays hleaving
          exact hahead

/-- Where the direct project brings no fault, nor does an attended run. -/
theorem Attended.of_drive (hstays : interpreter.state.leaving project = false)
    (hunbegun : interpreter.started = false → interpreter.state.waiting = .nothing)
    (hdrive : interpreter.drive project.direct inputs = .ok (final, effects)) :
    Attended project interpreter inputs final effects ∧ final.state.leaving project = false := by
  induction inputs generalizing interpreter effects with
  | nil =>
      cases hdrive
      exact ⟨.nil, hstays⟩
  | cons input inputs ih =>
      obtain ⟨ahead, response, later, htick, hrest, rfl⟩ := drive_cons_eq_ok.mp hdrive
      obtain ⟨next, reply, rest, pending, hnext, hbehind, hshown⟩ :=
        tick_direct hstays hunbegun htick
      obtain ⟨hattended, hfinal⟩ := ih hbehind.stays hbehind.unbegun_ahead hrest
      rw [hshown, List.append_assoc]
      exact ⟨.tick hstays hnext (.of_behind hbehind hattended), hfinal⟩

/-- However far an attended run has come, it is behind the run of the direct project. -/
theorem Attended.behind (hattended : Attended project interpreter inputs reached shown)
    (h : Behind project ahead steps interpreter pending)
    (hdrive : ahead.drive project.direct inputs = .ok (final, effects)) :
    ∃ rest later, Behind project final rest reached later ∧ pending ++ effects = shown ++ later := by
  induction hattended generalizing ahead steps pending effects with
  | nil =>
      cases hdrive
      exact ⟨steps, pending, h, List.append_nil _⟩
  | tick hstays htick _ ih =>
      obtain ⟨rfl, rfl⟩ := h.eq_of_stays hstays
      obtain ⟨ahead, response, later, hdirect, hrest, rfl⟩ := drive_cons_eq_ok.mp hdrive
      obtain ⟨next, reply, rest, pending, hnext, hbehind, hshown⟩ :=
        tick_direct hstays h.unbegun hdirect
      rw [htick] at hnext
      cases hnext
      obtain ⟨last, after, hlast, hafter⟩ := ih hbehind hrest
      refine ⟨last, after, hlast, ?_⟩
      rw [List.nil_append, hshown, List.append_assoc, hafter, List.append_assoc]
  | arrive hleaving htick _ ih =>
      obtain ⟨next, reply, rest, later, hnext, hbehind, -, rfl⟩ := h.arrive hleaving
      rw [htick] at hnext
      cases hnext
      obtain ⟨last, after, hlast, hafter⟩ := ih hbehind hdrive
      refine ⟨last, after, hlast, ?_⟩
      rw [List.append_assoc, hafter, List.append_assoc]

/-- As long as no tick of the direct project fails, none of the attended run does. In the end both
have shown the same and are the same run; until then the attended run has shown a part of it, and
has shown everything whenever it does not wait for a goto. -/
theorem attended_direct
    (hdrive : (new project.direct).drive project.direct inputs = .ok (final, effects)) :
    Attended project (new project) inputs final effects ∧ final.state.leaving project = false ∧
      ∀ reached shown, Attended project (new project) inputs reached shown →
        shown <+: effects ∧
          (reached.state.leaving project = false →
            reached.state = final.state ∧ shown = effects) := by
  rw [project.rewritesScenes_direct.new_eq] at hdrive
  have hstays : (new project).state.leaving project = false := State.leaving_eq_false nofun
  have hunbegun : (new project).started = false → (new project).state.waiting = .nothing :=
    fun _ => rfl
  obtain ⟨hattended, hfinal⟩ := Attended.of_drive hstays hunbegun hdrive
  refine ⟨hattended, hfinal, fun reached shown hreached => ?_⟩
  have hlevel : Behind project (new project) 0 (new project) [] := .level hstays hunbegun
  obtain ⟨rest, later, hbehind, heffects⟩ := hreached.behind hlevel hdrive
  rw [List.nil_append] at heffects
  refine ⟨⟨later, heffects.symm⟩, fun hcaught => ?_⟩
  obtain ⟨rfl, rfl⟩ := hbehind.eq_of_stays hcaught
  exact ⟨rfl, by rw [heffects, List.append_nil]⟩

/-- A branch that leaves, a scene that leaves at once, and an answer that leaves. -/
def journey : Project where
  flags := [{ id := "f", name := "ready", value := true }]
  scenes := [
    { id := "a", commands := [⟨"1", .branching ""
        [.onFlag .if "ready" .eq true [⟨"2", .goto 1 true⟩]]⟩] },
    { id := "b", commands := [⟨"3", .goto 2 true⟩] },
    { id := "c", commands := [.dialogue "4" "" "Where to?"
        [{ text := "Home", enableGoto := true, goto := 3 }]] },
    { id := "d", commands := [.dialogue "5" "" "Home" []] }]

/-- The answer, and the end of its transition. -/
def journeyInputs : List (Option Input) := [none, some (.choose 0), some .transitionFinished]

def journeyEffects : List Effect :=
  [.sceneEntered 0, .sceneEntered 1, .sceneEntered 2, .say "" "Where to?", .choices ["Home"],
    .beginTransition 2 3, .sceneEntered 3, .say "" "Home"]

theorem exists_drive_journey : ∃ final,
    (new journey.direct).drive journey.direct journeyInputs = .ok (final, journeyEffects) ∧
      final.state.waiting = .click :=
  ⟨_, rfl, rfl⟩

theorem attended_journey : ∃ final,
    (new journey.direct).drive journey.direct journeyInputs = .ok (final, journeyEffects) ∧
      Attended journey (new journey) journeyInputs final journeyEffects := by
  obtain ⟨final, hdrive, -⟩ := exists_drive_journey
  exact ⟨final, hdrive, (attended_direct hdrive).1⟩

end Interpreter
end SceneScript
