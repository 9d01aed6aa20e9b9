import SceneScript.Proofs.Run.AgendaStep
import SceneScript.Proofs.Run.Standing

/-! # Positions refine lists of commands

On every run, ticks do the same to a state with a position and to the list of the commands that are
left behind the position, answers included.
-/

namespace SceneScript

namespace State

variable {project : Project} {state : State} {commands : List Command}

/-! ## Answers -/

theorem agenda_setChoiceFlag (state : State) (started : Bool) (commands : List Command)
    (choice : Choice) :
    (state.agenda started commands).setChoiceFlag choice =
      (state.setChoiceFlag choice).map fun (flagged, effects) =>
        (flagged.agenda started commands, effects) := by
  unfold Agenda.setChoiceFlag State.setChoiceFlag
  cases choice.flagEffect with
  | none => rfl
  | some effect =>
      obtain ⟨name, value⟩ := effect
      simp only [State.setFlag, State.agenda]
      cases state.flags.find? name <;> rfl

/-- An answer is taken, or refused, by a state and by the commands to do alike. -/
def AnswersAlike (project : Project) (started : Bool) (result : Except Fault (State × List Effect))
    (reference : Except Fault (Agenda × List Effect)) : Prop :=
  (∃ next effects later, result = .ok (next, effects) ∧ next.position.Remaining project later ∧
      reference = .ok (next.agenda started later, effects)) ∨
    ∃ fault, result = .error fault ∧ reference = .error fault

theorem agenda_pick (started : Bool) {command : Command} {rest : List Command} {choice : Choice}
    (hnext : state.position.command.HasNext)
    (hremaining : state.position.Remaining project (command :: rest))
    (hrest : state.position.forward.Remaining project rest) :
    AnswersAlike project started (state.pick project choice)
      ((state.agenda started (command :: rest)).pick project choice) := by
  have hflag := agenda_setChoiceFlag state started (command :: rest) choice
  unfold State.pick Agenda.pick
  cases hset : state.setChoiceFlag choice with
  | error fault =>
      rw [hset] at hflag
      rw [hflag]
      refine .inr ?_
      cases choice.enableGoto with
      | false => exact ⟨fault, rfl, rfl⟩
      | true =>
          cases project.sceneAt choice.goto with
          | error missing => exact ⟨missing, rfl, rfl⟩
          | ok scene => exact ⟨fault, rfl, rfl⟩
  | ok flagged =>
      obtain ⟨flagged, noted⟩ := flagged
      rw [hset] at hflag
      rw [hflag]
      obtain ⟨flags, rfl, -⟩ := setChoiceFlag_kept hset
      cases choice.enableGoto with
      | false =>
          have hadvance : { state with flags }.position.advance = .ok state.position.forward :=
            Position.advance_of_hasNext hnext
          refine .inl ⟨{ state with flags, waiting := .nothing, position := state.position.forward },
            noted, rest, ?_, hrest, rfl⟩
          simp only [hadvance, bind, Except.bind]
          rfl
      | true =>
          cases project.sceneAt choice.goto with
          | error missing => exact .inr ⟨missing, rfl, rfl⟩
          | ok scene => exact .inl ⟨_, _, command :: rest, rfl, hremaining, rfl⟩

theorem agenda_choose (started : Bool) {count index : Index} {command : Command}
    {rest : List Command} (hcommand : project.commandAt state.position = .ok command)
    (hremaining : state.position.Remaining project (command :: rest))
    (hrest : state.position.forward.Remaining project rest) :
    AnswersAlike project started (state.choose project count index)
      ((state.agenda started (command :: rest)).choose project count index) := by
  unfold Agenda.choose
  by_cases hindex : count ≤ index
  · rw [choose_of_le hindex, if_pos hindex]
    exact .inr ⟨_, rfl, rfl⟩
  · rw [choose_of_lt (UInt64.not_le.mp hindex) hcommand, if_neg hindex]
    have hchoices : (state.agenda started (command :: rest)).choices = command.choices?.getD [] := rfl
    rw [hchoices]
    cases (command.choices?.getD [])[index.toNat]? with
    | none => exact .inr ⟨_, rfl, rfl⟩
    | some choice =>
        have hplace := Position.hasNext_of_commandAt hcommand
        exact agenda_pick started hplace hremaining hrest

/-- A state that stands takes or refuses an input like the commands to do. -/
theorem agenda_answer (started : Bool) (hstands : state.Stands project)
    (hremaining : state.position.Remaining project commands) (input : Input) :
    (∃ next effects later, state.answer project input = (next, .ok effects) ∧
      next.position.Remaining project later ∧
      (state.agenda started commands).answer project input =
        .ok (next.agenda started later, effects)) ∨
    ∃ fault, state.answer project input = (state, .error fault) ∧
      (state.agenda started commands).answer project input = .error fault := by
  cases hwaiting : state.waiting with
  | nothing =>
      exact .inl ⟨state, [], commands, by simp [answer, hwaiting], hremaining,
        by simp [Agenda.answer, agenda, hwaiting]⟩
  | click =>
      obtain ⟨command, hcommand, -⟩ := hstands.suits hwaiting nofun
      obtain ⟨rest, rfl, hrest⟩ := hremaining.exists_cons hcommand
      cases input with
      | click =>
          exact .inl ⟨{ state with waiting := .nothing, position := state.position.forward }, [],
            rest, by simp only [answer, hwaiting, Position.advance_of_commandAt hcommand], hrest,
            by simp only [Agenda.answer, agenda, hwaiting]; rfl⟩
      | _ =>
          exact .inl ⟨state, [], _, by simp [answer, hwaiting], hremaining,
            by simp [Agenda.answer, agenda, hwaiting]⟩
  | choice count =>
      obtain ⟨command, hcommand, -⟩ := hstands.suits hwaiting nofun
      obtain ⟨rest, rfl, hrest⟩ := hremaining.exists_cons hcommand
      cases input with
      | choose index =>
          have hagenda : (state.agenda started (command :: rest)).answer project (.choose index) =
              (state.agenda started (command :: rest)).choose project count index := by
            simp only [Agenda.answer, agenda, hwaiting]
          rw [hagenda]
          rcases agenda_choose started hcommand hremaining hrest with
            ⟨next, effects, later, hchoose, hlater, hreference⟩ | ⟨fault, hchoose, hreference⟩
          · exact .inl ⟨next, effects, later, by simp only [answer, hwaiting, hchoose], hlater,
              hreference⟩
          · exact .inr ⟨fault, by simp only [answer, hwaiting, hchoose], hreference⟩
      | _ =>
          exact .inl ⟨state, [], _, by simp [answer, hwaiting], hremaining,
            by simp [Agenda.answer, agenda, hwaiting]⟩
  | transition target =>
      obtain ⟨command, -, hsuits⟩ := hstands.suits hwaiting nofun
      obtain ⟨⟨scene, hscene⟩, -⟩ := hsuits
      cases input with
      | transitionFinished =>
          refine .inl ⟨{ state with waiting := .nothing }.inScene target scene,
            [.sceneEntered target], scene.commands, ?_, .sceneStart hscene, ?_⟩
          · simp only [answer, hwaiting, enterScene_of_scene? hscene]
          · simp only [Agenda.answer, agenda, hwaiting, Project.sceneAt_eq_ok.mpr hscene]
            rfl
      | _ =>
          exact .inl ⟨state, [], _, by simp [answer, hwaiting], hremaining,
            by simp [Agenda.answer, agenda, hwaiting]⟩

end State

/-! ## Ticks -/

namespace Interpreter

variable {project : Project} {interpreter next : Interpreter} {commands : List Command}
  {result : Except Fault Response}

/-- A run, with these commands to do. -/
def agenda (interpreter : Interpreter) (commands : List Command) : Agenda :=
  interpreter.state.agenda interpreter.started commands

/-- A run that stands has no trouble to begin. -/
theorem agenda_begin (hstands : interpreter.state.Stands project)
    (hremaining : interpreter.state.position.Remaining project commands) :
    ∃ begun effects later, interpreter.begin project = (begun, .ok effects) ∧
      begun.position.Remaining project later ∧
      (interpreter.agenda commands).begin project = .ok (begun.agenda true later, effects) := by
  obtain ⟨state, started⟩ := interpreter
  cases started with
  | true => exact ⟨state, [], commands, rfl, hremaining, rfl⟩
  | false =>
      obtain ⟨list, hlist⟩ := hstands.found
      obtain ⟨scene, hscene⟩ := Position.exists_scene_of_resolve hlist
      refine ⟨state.inScene state.position.scene scene, [.sceneEntered state.position.scene],
        scene.commands, ?_, .sceneStart hscene, ?_⟩
      · simp only [begin, State.enterScene_of_scene? hscene, Bool.false_eq_true, if_false]
      · simp only [Agenda.begin, agenda, State.agenda, Project.sceneAt_eq_ok.mpr hscene]
        rfl

theorem agenda_take {begun : State} (input : Option Input) (hstands : begun.Stands project)
    (hremaining : begun.position.Remaining project commands) :
    (∃ taken effects later, take project input begun = (taken, .ok effects) ∧
      taken.position.Remaining project later ∧
      (begun.agenda true commands).take project input = .ok (taken.agenda true later, effects)) ∨
    ∃ fault, take project input begun = (begun, .error fault) ∧
      (begun.agenda true commands).take project input = .error fault := by
  cases input with
  | none => exact .inl ⟨begun, [], commands, rfl, hremaining, rfl⟩
  | some given => exact State.agenda_answer true hstands hremaining given

/-- A tick that is not cut off is a tick of the commands to do. -/
theorem agenda_ticks {input : Option Input} (haddressable : project.Addressable)
    (hrun : interpreter.Stands project) (hfinished : interpreter.state.finished = false)
    (hremaining : interpreter.state.position.Remaining project commands)
    (htick : interpreter.tick project input = (next, result))
    (hends : result ≠ .error (.endless State.maxSteps)) :
    ∃ later, next.state.position.Remaining project later ∧
      (interpreter.agenda commands).Ticks project input (next.agenda later) result := by
  have hstands := hrun.of_unfinished hfinished
  obtain ⟨begun, entered, commands', hbegin, hcommands', hreference⟩ :=
    agenda_begin hstands hremaining
  have hbegun := hrun.begun hfinished hbegin
  have hruns : begun.finished = false := by
    have hkept := (begin_kept project interpreter).2
    rw [hbegin] at hkept
    exact hkept.trans hfinished
  rcases agenda_take input hbegun hcommands' with
    ⟨taken, answered, later, htake, hlater, htaken⟩ | ⟨fault, htake, hrefused⟩
  · have hgoes : taken.finished = false := by
      have hkept := take_finished project input begun
      rw [htake] at hkept
      exact hkept.trans hruns
    by_cases hwaiting : taken.waiting = .nothing
    · have hpaused : taken.isPaused = false := State.isPaused_eq_false.mpr ⟨hwaiting, hgoes⟩
      cases hsteps : taken.run project State.maxSteps State.maxSteps with
      | mk final outcome =>
          rw [tick_of_run hfinished hbegin htake hwaiting hsteps] at htick
          cases htick
          have hcomplete : outcome ≠ .error (.endless State.maxSteps) := by
            rintro rfl
            exact hends rfl
          obtain ⟨last, hlast, hagenda⟩ :=
            State.agenda_runs true haddressable hlater hpaused hsteps hcomplete
          exact ⟨last, hlast, .runs hfinished hreference htaken hwaiting hagenda⟩
    · rw [tick_of_waiting hfinished hbegin htake hwaiting] at htick
      cases htick
      exact ⟨later, hlater, .waits hfinished hreference htaken hwaiting⟩
  · rw [tick_of_refused hfinished hbegin htake] at htick
    cases htick
    exact ⟨commands', hcommands', .refused hfinished hreference hrefused⟩

/-! ## Transcripts -/

/-- What is observed while a run takes one input after the other. -/
def transcript (project : Project) : Interpreter → List (Option Input) → List Moment
  | _, [] => []
  | interpreter, input :: inputs =>
    let (next, result) := interpreter.tick project input
    ⟨result, next.state.flags, next.state.vars, next.state.stage, next.state.finished⟩ ::
      transcript project next inputs

theorem agenda_transcript {inputs : List (Option Input)} (haddressable : project.Addressable)
    (hrun : interpreter.Stands project)
    (hremaining : interpreter.state.finished = false →
      interpreter.state.position.Remaining project commands)
    (hends : ∀ moment ∈ transcript project interpreter inputs,
      moment.result ≠ .error (.endless State.maxSteps)) :
    (interpreter.agenda commands).Transcript project inputs
      (transcript project interpreter inputs) := by
  induction inputs generalizing interpreter commands with
  | nil => exact .nil
  | cons input inputs ih =>
      have hnext := hrun.tick input
      cases htick : interpreter.tick project input with
      | mk next result =>
          rw [htick] at hnext
          simp only [transcript, htick, List.forall_mem_cons] at hends ⊢
          cases hfinished : interpreter.state.finished with
          | true =>
              have hsame : interpreter.tick project input = (interpreter, .ok ⟨[], .nothing⟩) := by
                simp [tick, hfinished]
              rw [hsame] at htick
              cases htick
              exact .cons (.ended hfinished) (ih hnext hremaining hends.2)
          | false =>
              obtain ⟨later, hlater, hticks⟩ :=
                agenda_ticks haddressable hrun hfinished (hremaining hfinished) htick hends.1
              exact .cons hticks (ih hnext (fun _ => hlater) hends.2)

/-- As long as no tick is cut off, a run shows exactly what the list of its commands to do allows. -/
theorem transcript_iff_agenda (haddressable : project.Addressable) (inputs : List (Option Input))
    (hends : ∀ moment ∈ transcript project (.new project) inputs,
      moment.result ≠ .error (.endless State.maxSteps)) (moments : List Moment) :
    Agenda.Transcript project (.initial project) inputs moments ↔
      moments = transcript project (.new project) inputs := by
  have hstart : (Interpreter.new project).state.finished = false →
      (Interpreter.new project).state.position.Remaining project
        ((project.scenes.head?.map (·.commands)).getD []) := by
    intro hfinished
    cases hscenes : project.scenes with
    | nil => simp [new, State.initial, hscenes] at hfinished
    | cons scene rest =>
        have hscene : project.scene? 0 = some scene := by simp [Project.scene?, hscenes]
        exact .sceneStart hscene
  have hreference : Agenda.Transcript project (.initial project) inputs
      (transcript project (.new project) inputs) :=
    agenda_transcript haddressable stands_new hstart hends
  constructor
  · exact fun h => h.unique hreference
  · rintro rfl
    exact hreference

/-- A branch that adds to a variable and speaks, and a second scene. -/
def detour : Project where
  vars := [{ id := "v", name := "steps", value := 250 }]
  scenes := [
    { id := "a", commands := [⟨"b", .branching "" [
        .onVariable .if "steps" .ge 200 [⟨"s", .setVariable "steps" .add 9⟩,
          .dialogue "d" "" "Far" []],
        .otherwise []]⟩, ⟨"g", .goto 1 true⟩] },
    { id := "z", commands := [.dialogue "e" "" "There" []] }]

theorem addressable_detour : detour.Addressable := by
  refine ⟨by decide, ?_, by simp [detour]⟩
  simp [detour, Command.Addressable, Command.listSubcommands, Command.subcommands,
    Branch.listSubcommands, Command.branches, Branch.onVariable, Branch.otherwise,
    Command.dialogue, Index.capacity]

/-- A click behind the words, the end of the transition, and a click at the end. -/
def detourInputs : List (Option Input) :=
  [none, some .click, some .transitionFinished, some .click]

theorem results_detour :
    (transcript detour (.new detour) detourInputs).map (·.result) =
      [.ok ⟨[.sceneEntered 0, .variableChanged "steps" 255, .say "" "Far"], .click⟩,
        .ok ⟨[.beginTransition 0 1], .transition 1⟩,
        .ok ⟨[.sceneEntered 1, .say "" "There"], .click⟩, .ok ⟨[.halted], .nothing⟩] :=
  rfl

theorem result_ne_endless_detour :
    ∀ moment ∈ transcript detour (.new detour) detourInputs,
      moment.result ≠ .error (.endless State.maxSteps) := by
  intro moment hmoment hresult
  have hmem := List.mem_map_of_mem (f := (·.result)) hmoment
  rw [results_detour, hresult] at hmem
  simp at hmem

theorem transcript_agenda_detour :
    detour.Addressable ∧
      (∀ moment ∈ transcript detour (.new detour) detourInputs,
        moment.result ≠ .error (.endless State.maxSteps)) ∧
      Agenda.Transcript detour (.initial detour) detourInputs
        (transcript detour (.new detour) detourInputs) :=
  ⟨addressable_detour, result_ne_endless_detour,
    (transcript_iff_agenda addressable_detour _ result_ne_endless_detour _).mpr rfl⟩

end Interpreter
end SceneScript
