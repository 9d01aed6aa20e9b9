import SceneScript.Proofs.Run.Drive
import SceneScript.Proofs.Show.Bookkeeping

/-! # Players and bare interpreters

A player runs jumps ahead and lets them take effect later. As long as no call fails, its interpreter
and its effects are still those of a bare interpreter that is given each input at the time when the
player shows its outcome.
-/

namespace SceneScript

/-! ## Sessions -/

namespace Player

/-- The inputs that a bare interpreter is given in the place of a call. -/
def Call.inputs (call : Call) (before after : Player) (reply : Reply) : List (Option Input) :=
  match call, reply with
  | .start _ _, _ => if before.started then [] else [none]
  | .click .., .clicked .advanced => [some .click]
  | .click .., .clicked (.chose choice) => [some (.choose choice)]
  | .frame _ _, _ =>
    if before.inTransition && !after.inTransition then [some .transitionFinished] else []
  | _, _ => []

def Reply.effects : Reply → List Effect
  | .taken effects => effects
  | _ => []

end Player

/-- A player after calls that have not failed: the inputs that it stands for, and the effects that
have been taken. -/
structure Session where
  player : Player
  inputs : List (Option Input) := []
  taken : List Effect := []

namespace Session

/-- A session ends at a call that fails. -/
def call (session : Session) (call : Player.Call) : Except ShowFault Session :=
  match session.player.call call with
  | (player, .ok reply) => .ok {
      player
      inputs := session.inputs ++ call.inputs session.player player reply
      taken := session.taken ++ reply.effects }
  | (_, .error fault) => .error fault

def ofCalls (project : Project) (font : Font) (calls : List Player.Call) :
    Except ShowFault Session :=
  calls.foldlM call { player := .new project font }

/-! ## Calls in step -/

/-- The player is where the bare run is, and no effect is missing, added or out of order. -/
structure InStep (project : Project) (session : Session) : Prop where
  project_eq : session.player.project = project
  intact : session.player.Intact
  drive : (Interpreter.new project).drive project session.inputs =
    .ok (session.player.interpreter, session.taken ++ session.player.outbox)

variable {project : Project} {font : Font} {session next : Session} {player : Player}

theorem inStep_new : InStep project { player := .new project font } :=
  ⟨rfl, Player.intact_new project font, rfl⟩

/-- An input that the player takes moves it like the bare run. -/
theorem tick_of_feed {input : Option Input} {catalogue : Catalogue} {now : Duration}
    (hintact : player.Intact) (hidle : player.transition = none)
    (hok : (player.feed input catalogue now).2 = .ok ()) :
    (player.feed input catalogue now).1.project = player.project ∧ ∃ response,
      player.interpreter.tick player.project input =
        ((player.feed input catalogue now).1.interpreter, .ok response) ∧
      (player.feed input catalogue now).1.outbox = player.outbox ++ response.effects := by
  have hfed := hintact.fed hidle input catalogue now
  generalize player.feed input catalogue now = result at hfed hok ⊢
  cases hfed with
  | failed _ => cases hok
  | settled htick _ => exact ⟨rfl, _, htick, rfl⟩
  | began htick _ _ _ => exact ⟨rfl, _, htick, rfl⟩
  | stranded _ _ _ => cases hok

/-- A call that gives the bare run one input. -/
theorem InStep.concat (h : InStep project session) {input : Option Input} {response : Response}
    {after : Player} (hintact : after.Intact) (hproject : after.project = session.player.project)
    (htick : session.player.interpreter.tick session.player.project input =
      (after.interpreter, .ok response))
    (houtbox : after.outbox = session.player.outbox ++ response.effects) :
    InStep project ⟨after, session.inputs ++ [input], session.taken ++ []⟩ := by
  refine ⟨hproject.trans h.project_eq, hintact, ?_⟩
  rw [h.project_eq] at htick
  rw [Interpreter.drive_concat h.drive htick, houtbox, List.append_nil, List.append_assoc]

/-- A call that gives the bare run nothing. -/
theorem InStep.idle (h : InStep project session) {after : Player} {reply : Player.Reply}
    (hintact : after.Intact) (hproject : after.project = session.player.project)
    (hinterpreter : after.interpreter = session.player.interpreter)
    (houtbox : reply.effects ++ after.outbox = session.player.outbox) :
    InStep project ⟨after, session.inputs ++ [], session.taken ++ reply.effects⟩ := by
  refine ⟨hproject.trans h.project_eq, hintact, ?_⟩
  rw [List.append_nil, hinterpreter, List.append_assoc, houtbox]
  exact h.drive

theorem call_eq_ok {call : Player.Call} :
    session.call call = .ok next ↔ ∃ after reply, session.player.call call = (after, .ok reply) ∧
      next = ⟨after, session.inputs ++ call.inputs session.player after reply,
        session.taken ++ reply.effects⟩ := by
  unfold Session.call
  cases hcall : session.player.call call with
  | mk player result =>
      cases result with
      | error fault => simp
      | ok reply => simp [eq_comm]

theorem InStep.start (h : InStep project session) {catalogue : Catalogue} {now : Duration}
    (hnext : session.call (.start catalogue now) = .ok next) : InStep project next := by
  obtain ⟨after, reply, hcall, rfl⟩ := call_eq_ok.mp hnext
  have hintact := h.intact.call (.start catalogue now)
  rw [hcall] at hintact
  simp only [Player.call, Prod.mk.injEq, map_eq_ok] at hcall
  obtain ⟨hafter, _, hok, rfl⟩ := hcall
  unfold Player.start at hafter hok
  by_cases hstarted : session.player.started = true
  · simp only [if_pos hstarted] at hafter
    subst hafter
    simp only [Player.Call.inputs, if_pos hstarted]
    exact h.idle hintact rfl rfl rfl
  · simp only [if_neg hstarted] at hafter hok
    rw [Bool.not_eq_true] at hstarted
    obtain ⟨hproject, response, htick, houtbox⟩ :=
      tick_of_feed h.intact.begun (h.intact.unstarted hstarted).2 hok
    rw [hafter] at hproject htick houtbox
    simp only [Player.Call.inputs, hstarted, Bool.false_eq_true, if_false]
    exact h.concat hintact hproject htick houtbox

theorem InStep.click (h : InStep project session) {x y : Int32} {catalogue : Catalogue}
    {now : Duration} (hnext : session.call (.click x y catalogue now) = .ok next) :
    InStep project next := by
  obtain ⟨after, reply, hcall, rfl⟩ := call_eq_ok.mp hnext
  have hintact := h.intact.call (.click x y catalogue now)
  rw [hcall] at hintact
  simp only [Player.call, Prod.mk.injEq, map_eq_ok] at hcall
  obtain ⟨hafter, outcome, hok, rfl⟩ := hcall
  unfold Player.click at hafter hok
  cases hintent : session.player.intent x y with
  | mk input meant =>
      rw [hintent] at hafter hok
      cases input with
      | none =>
          cases hok
          cases hafter
          rcases Player.intent_eq_none hintent with rfl | rfl
          · exact h.idle hintact rfl rfl rfl
          · exact h.idle hintact rfl rfl rfl
      | some input =>
          obtain ⟨hidle, hmeaning⟩ := Player.intent_eq_some hintent
          obtain ⟨_, hfed, rfl⟩ := map_eq_ok.mp hok
          obtain ⟨hproject, response, htick, houtbox⟩ := tick_of_feed h.intact hidle hfed
          simp only at hafter
          rw [hafter] at hproject htick houtbox
          rcases hmeaning with ⟨-, rfl, rfl⟩ | ⟨count, choice, -, rfl, rfl⟩
          · exact h.concat hintact hproject htick houtbox
          · exact h.concat hintact hproject htick houtbox

theorem InStep.frame (h : InStep project session) {catalogue : Catalogue} {now : Duration}
    (hnext : session.call (.frame catalogue now) = .ok next) : InStep project next := by
  obtain ⟨after, reply, hcall, rfl⟩ := call_eq_ok.mp hnext
  have hintact := h.intact.call (.frame catalogue now)
  rw [hcall] at hintact
  simp only [Player.call, Prod.mk.injEq, map_eq_ok] at hcall
  obtain ⟨hafter, image, hok, rfl⟩ := hcall
  have hframed := h.intact.framed catalogue now
  generalize session.player.frame catalogue now = result at hframed hafter
  subst hafter
  cases hframed with
  | still hidle =>
      obtain ⟨shown, drawing, heq, -⟩ := session.player.redraw_kept catalogue now
      have hnothing : session.player.inTransition = false := by
        unfold Player.inTransition
        rw [hidle]
        rfl
      simp only [Player.Call.inputs, hnothing, Bool.false_and, Bool.false_eq_true, if_false]
      rw [heq] at hintact ⊢
      exact h.idle hintact rfl rfl rfl
  | @shown transition hrunning _ =>
      have hruns : session.player.inTransition = true := by
        unfold Player.inTransition
        rw [hrunning]
        rfl
      have hstill : { session.player with
          image := some (transition.frame now).image }.inTransition = true := hruns
      simp only [Player.Call.inputs, hruns, hstill, Bool.not_true, Bool.and_false,
        Bool.false_eq_true, if_false]
      exact h.idle hintact rfl rfl rfl
  | @ended transition jump hrunning hends hpending =>
      obtain ⟨shown, drawing, heq, -⟩ :=
        (session.player.committed transition jump now).redraw_kept catalogue now
      rw [heq] at hintact ⊢
      have hruns : session.player.inTransition = true := by
        unfold Player.inTransition
        rw [hrunning]
        rfl
      obtain ⟨target, response, -, htick, heffects⟩ := h.intact.pending jump hpending
      simp only [Player.Call.inputs, hruns, Bool.true_and]
      refine h.concat hintact rfl htick ?_
      rw [heffects]
      rfl

theorem InStep.call (h : InStep project session) {call : Player.Call}
    (hnext : session.call call = .ok next) : InStep project next := by
  cases call with
  | start catalogue now => exact h.start hnext
  | click x y catalogue now => exact h.click hnext
  | frame catalogue now => exact h.frame hnext
  | takeEffects =>
      cases hnext
      exact h.idle (h.intact.call .takeEffects) rfl rfl (List.append_nil _)

theorem InStep.ofCalls {calls : List Player.Call} (h : InStep project session)
    (hnext : calls.foldlM Session.call session = .ok next) : InStep project next := by
  induction calls generalizing session with
  | nil =>
      cases hnext
      exact h
  | cons call rest ih =>
      rw [List.foldlM_cons] at hnext
      obtain ⟨middle, hcall, hrest⟩ := bind_eq_ok.mp hnext
      exact ih (h.call hcall) hrest

/-- As long as no call fails, a player is where a bare run is that gets the inputs of the session,
and the effects that have been taken, with those that have not, are the effects of the bare run. -/
theorem drive_of_calls {calls : List Player.Call} (h : ofCalls project font calls = .ok session) :
    (Interpreter.new project).drive project session.inputs =
      .ok (session.player.interpreter, session.taken ++ session.player.outbox) :=
  (inStep_new.ofCalls h).drive

/-- Words, and a transition to other words. -/
def parting : Project where
  scenes := [
    { id := "a", commands := [.dialogue "1" "" "Goodbye" [], ⟨"2", .goto 1 true⟩] },
    { id := "b", commands := [.dialogue "3" "" "Hello" []] }]

/-- Two clicks, the second one during the transition, and two frames from its end on. -/
def partingCalls : List Player.Call :=
  let catalogue : Catalogue := fun _ => .pending
  [.start catalogue .zero, .click 9 9 catalogue .zero, .click 9 9 catalogue .zero, .takeEffects,
    .frame catalogue .zero, .frame catalogue .zero]

theorem exists_session_parting :
    ∃ session, ofCalls parting .default partingCalls = .ok session ∧
      session.inputs = [none, some .click, some .transitionFinished] := by
  have hinputs : (ofCalls parting .default partingCalls).toOption.map (·.inputs) =
      some [none, some .click, some .transitionFinished] := by
    decide +kernel
  cases hcalls : ofCalls parting .default partingCalls with
  | error fault =>
      rw [hcalls] at hinputs
      cases hinputs
  | ok session =>
      rw [hcalls] at hinputs
      exact ⟨session, rfl, Option.some.inj hinputs⟩

theorem drive_parting :
    ∃ session, ofCalls parting .default partingCalls = .ok session ∧
      (Interpreter.new parting).drive parting [none, some .click, some .transitionFinished] =
        .ok (session.player.interpreter, session.taken ++ session.player.outbox) := by
  obtain ⟨session, hcalls, hinputs⟩ := exists_session_parting
  refine ⟨session, hcalls, ?_⟩
  rw [← hinputs]
  exact drive_of_calls hcalls

end Session
end SceneScript
