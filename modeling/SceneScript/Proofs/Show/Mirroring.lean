import SceneScript.Proofs.Run.Unfolding
import SceneScript.Proofs.Show.Deferral
import SceneScript.Proofs.Show.StageClock

/-! # Clocks that mirror the stage

Visibility is kept twice: by the run, on its stage, and by the player, in its clock, which hears of it
through effects, some of them only when a transition ends. As long as no call fails, both agree
after every call, and all fades lead to what the stage shows.
-/

namespace SceneScript

/-! ## Layers -/

namespace LayerClock

/-- The layer is to be seen in the end, or not, and its fade leads there. -/
structure Mirrors (layer : LayerClock) (visible : Bool) : Prop where
  visible_eq : layer.visible = visible
  target_eq : ∀ fade, layer.fade = some fade → fade.target = opaque? visible

variable {layer : LayerClock} {visible : Bool} {now : Duration}

theorem mirrors_still (visible : Bool) : Mirrors { visible } visible := ⟨rfl, nofun⟩

/-- Whatever the layer has shown, its change leads to the new visibility. -/
theorem mirrors_change (layer : LayerClock) (visible : Bool) (fadeMs : UInt32) (now : Duration) :
    (layer.change visible fadeMs now).Mirrors visible := by
  refine ⟨rfl, fun fade hfade => ?_⟩
  simp only [change] at hfade
  split at hfade
  · cases hfade
  · cases hfade
    rfl

/-- The fade of the layer is over. -/
def Rests (layer : LayerClock) (now : Duration) : Prop :=
  ∀ fade, layer.fade = some fade → fade.span ≤ now.since fade.started

/-- A layer whose fade is over is as opaque as its visibility says. -/
theorem Rests.opacity_eq (h : layer.Rests now) (visible : Bool) :
    Layout.opacity visible (layer.opacity? now) = opaque? visible := by
  have hnone : layer.opacity? now = none := by
    cases hfade : layer.fade with
    | none => exact opacity?_of_still hfade now
    | some fade => rw [opacity?_of_fade hfade, Fade.opacity?, if_pos (h fade hfade)]
  rw [hnone]
  rfl

end LayerClock

/-! ## Both layers -/

namespace StageClock

/-- Both layers lead to what the stage shows. -/
structure Mirrors (clock : StageClock) (stage : Stage) : Prop where
  background : clock.background.Mirrors stage.backgroundVisible
  character : clock.character.Mirrors stage.characterVisible

variable {clock : StageClock} {stage : Stage} {project : Project} {now : Duration}
  {state next : State} {effects : List Effect}

theorem mirrors_ofStage (stage : Stage) : (ofStage stage).Mirrors stage :=
  ⟨LayerClock.mirrors_still _, LayerClock.mirrors_still _⟩

theorem Mirrors.change (h : clock.Mirrors stage) (change : VisibilityChange) :
    (clock.change change now).Mirrors (stage.change change) := by
  obtain ⟨layer, visible, fadeMs, animation⟩ := change
  cases layer with
  | background => exact ⟨LayerClock.mirrors_change _ _ _ _, h.character⟩
  | character => cases visible <;> exact ⟨h.background, LayerClock.mirrors_change _ _ _ _⟩

/-- A clock that mirrors the stage before the effects mirrors it behind them. -/
theorem Mirrors.unfolds (hunfolds : state.Unfolds project effects next)
    (h : clock.Mirrors state.stage) :
    (clock.applyAll project now effects).Mirrors next.stage := by
  induction hunfolds generalizing clock with
  | moves _ _ _ hstage =>
      rw [hstage]
      exact h
  | @tells state effect hquiet =>
      cases effect with
      | sceneEntered _ | flagChanged _ _ | variableChanged _ _ | visibility _ => cases hquiet
      | _ => exact h
  | sets _ _ _ | changes _ _ _ => exact h
  | stages _ change => exact h.change change
  | enters state hscene =>
      simp only [applyAll, List.foldl_cons, List.foldl_nil, apply, enterScene, hscene]
      exact mirrors_ofStage _
  | append _ _ ih ihlater =>
      rw [applyAll, List.foldl_append]
      exact ihlater (ih h)

end StageClock

/-! ## First ticks -/

namespace Interpreter

variable {project : Project} {next : Interpreter} {response : Response}

/-- A new run is over, or the first thing that it tells is that it has entered the first scene. -/
theorem entered_of_new {input : Option Input}
    (htick : (new project).tick project input = (next, .ok response)) :
    (project.scenes = [] ∧ next = new project ∧ response.effects = []) ∨
      ∃ later, response.effects = .sceneEntered 0 :: later := by
  cases hscenes : project.scenes with
  | nil =>
      have hfinished : (new project).state.finished = true := by
        simp [new, State.initial, hscenes]
      rw [tick_of_finished hfinished] at htick
      cases htick
      exact .inl ⟨rfl, rfl, rfl⟩
  | cons scene rest =>
      have hfirst : project.sceneAt 0 = .ok scene := by
        simp [Project.sceneAt_eq_ok, Project.scene?, hscenes]
      have hbegun : (new project).begin project =
          ((State.initial project).inScene 0 scene, .ok [.sceneEntered 0]) := by
        simp [begin, new, State.initial, State.enterScene, Position.sceneStart, hfirst, bind,
          Except.bind, pure, Except.pure, State.inScene]
      have hticked := ticked project input (new project)
      rw [htick] at hticked
      cases hticked with
      | ended hfinished => simp [new, State.initial, hscenes] at hfinished
      | waits _ hbegin _ _ =>
          rw [hbegun] at hbegin
          cases hbegin
          exact .inr ⟨_, rfl⟩
      | runs _ hbegin _ _ _ =>
          rw [hbegun] at hbegin
          cases hbegin
          exact .inr ⟨_, rfl⟩

/-- The clock of a new player mirrors the stage behind the first tick, though it may not have done so
before. -/
theorem mirrors_of_new {input : Option Input}
    (htick : (new project).tick project input = (next, .ok response)) (now : Duration) :
    ((default : StageClock).applyAll project now response.effects).Mirrors next.state.stage := by
  rcases entered_of_new htick with ⟨hscenes, rfl, heffects⟩ | ⟨later, heffects⟩
  · have hstage : (new project).state.stage = {} := by
      simp [new, State.initial, hscenes]
    rw [heffects, hstage]
    exact StageClock.mirrors_ofStage {}
  · have hunfolds := unfolds_tick htick
    have hmirrors : ((StageClock.ofStage (new project).state.stage).applyAll project now
        response.effects).Mirrors next.state.stage :=
      (StageClock.mirrors_ofStage _).unfolds hunfolds
    rw [heffects] at hmirrors ⊢
    exact hmirrors

end Interpreter

/-! ## Players -/

namespace Player

/-- A show has begun, and its clock mirrors the stage of its run. -/
structure Mirrored (player : Player) : Prop where
  intact : player.Intact
  started : player.started = true
  clock : player.clock.Mirrors player.interpreter.state.stage

variable {project : Project} {font : Font} {player next : Player} {input : Option Input}
  {catalogue : Catalogue} {now : Duration}

/-- An input whose effects bring the clock to the stage. -/
theorem Intact.mirrored_feed (h : player.Intact) (hstarted : player.started = true)
    (hidle : player.transition = none)
    (hclock : ∀ next response, player.interpreter.tick player.project input =
      (next, .ok response) →
      (player.clock.applyAll player.project now response.effects).Mirrors next.state.stage)
    (hok : (player.feed input catalogue now).2 = .ok ()) :
    (player.feed input catalogue now).1.Mirrored := by
  have hfed := h.fed hidle input catalogue now
  have hintact := h.feed hidle hstarted input catalogue now
  generalize player.feed input catalogue now = result at hfed hintact hok ⊢
  cases hfed with
  | failed _ => cases hok
  | settled htick _ => exact ⟨hintact, hstarted, hclock _ _ htick⟩
  | began htick _ _ _ => exact ⟨hintact, hstarted, hclock _ _ htick⟩
  | stranded _ _ _ => cases hok

theorem mirrored_start (hstart : (new project font).start catalogue now = (next, .ok ())) :
    next.Mirrored := by
  have hfeed : { new project font with started := true }.feed none catalogue now =
      (next, .ok ()) := hstart
  have hmirrored : ({ new project font with started := true }.feed none catalogue now).1.Mirrored :=
    (intact_new project font).begun.mirrored_feed rfl rfl
      (fun _ _ htick => Interpreter.mirrors_of_new htick now) (congrArg Prod.snd hfeed)
  rw [hfeed] at hmirrored
  exact hmirrored

theorem Mirrored.feed (h : player.Mirrored) (hidle : player.transition = none)
    (hok : (player.feed input catalogue now).2 = .ok ()) :
    (player.feed input catalogue now).1.Mirrored :=
  h.intact.mirrored_feed h.started hidle
    (fun _ _ htick => h.clock.unfolds (Interpreter.unfolds_tick htick)) hok

theorem Mirrored.redraw (h : player.Mirrored) (catalogue : Catalogue) (now : Duration) :
    (player.redraw catalogue now).1.Mirrored := by
  have hintact := h.intact.redraw catalogue now
  obtain ⟨image, drawing, heq, -⟩ := player.redraw_kept catalogue now
  rw [heq] at hintact ⊢
  exact ⟨hintact, h.started, h.clock⟩

/-- The effects of a jump reach the clock when its run takes over. -/
theorem Mirrored.frame (h : player.Mirrored) (catalogue : Catalogue) (now : Duration) :
    (player.frame catalogue now).1.Mirrored := by
  have hintact := h.intact.frame catalogue now
  have hframed := h.intact.framed catalogue now
  generalize player.frame catalogue now = result at hframed hintact ⊢
  cases hframed with
  | still _ => exact h.redraw catalogue now
  | shown _ _ => exact ⟨hintact, h.started, h.clock⟩
  | @ended transition jump hrunning _ hpending =>
      obtain ⟨_, response, -, htick, heffects⟩ := h.intact.pending jump hpending
      have hclock : (player.clock.applyAll player.project now response.effects).Mirrors
          jump.interpreter.state.stage := h.clock.unfolds (Interpreter.unfolds_tick htick)
      rw [heffects] at hclock
      have hcommitted : (player.committed transition jump now).Mirrored :=
        ⟨h.intact.committed hrunning hpending now, h.started, hclock⟩
      exact hcommitted.redraw catalogue now

theorem Mirrored.click (h : player.Mirrored) {x y : Int32} {outcome : ClickOutcome}
    (hclick : player.click x y catalogue now = (next, .ok outcome)) : next.Mirrored := by
  unfold Player.click at hclick
  split at hclick
  · cases hclick
    exact h
  · next input meant hintent =>
      obtain ⟨hidle, -⟩ := intent_eq_some hintent
      obtain ⟨hnext, hok⟩ := Prod.mk.inj hclick
      obtain ⟨_, hfed, -⟩ := map_eq_ok.mp hok
      rw [← hnext]
      exact h.feed hidle hfed

theorem Mirrored.call (h : player.Mirrored) {call : Call} {reply : Reply}
    (hcall : player.call call = (next, .ok reply)) : next.Mirrored := by
  cases call with
  | start catalogue now =>
      have hkept : player.start catalogue now = (player, .ok ()) := if_pos h.started
      simp only [Player.call, hkept] at hcall
      cases hcall
      exact h
  | click x y catalogue now =>
      simp only [Player.call, Prod.mk.injEq, map_eq_ok] at hcall
      obtain ⟨hnext, outcome, hok, -⟩ := hcall
      exact h.click (Prod.ext hnext hok)
  | frame catalogue now =>
      obtain ⟨rfl, -⟩ := Prod.mk.inj hcall
      exact h.frame catalogue now
  | takeEffects =>
      cases hcall
      exact ⟨h.intact.call .takeEffects, h.started, h.clock⟩

end Player

/-! ## Sessions -/

namespace Session

variable {project : Project} {font : Font} {session next : Session} {catalogue : Catalogue}
  {now : Duration} {calls : List Player.Call}

theorem mirrored_ofCalls (h : session.player.Mirrored)
    (hnext : calls.foldlM call session = .ok next) : next.player.Mirrored := by
  induction calls generalizing session with
  | nil =>
      cases hnext
      exact h
  | cons call rest ih =>
      rw [List.foldlM_cons] at hnext
      obtain ⟨middle, hmiddle, hrest⟩ := bind_eq_ok.mp hnext
      obtain ⟨after, reply, hcall, rfl⟩ := call_eq_ok.mp hmiddle
      exact ih (h.call hcall : after.Mirrored) hrest

/-- In a show that begins with its start and has not failed, the clock says of both layers what the
stage says. All fades lead there, so the layers are drawn as the stage says once the fades are over. -/
theorem mirrors_ofCalls (h : ofCalls project font (.start catalogue now :: calls) = .ok session) :
    let clock := session.player.clock
    let stage := session.player.interpreter.state.stage
    (clock.background.visible = stage.backgroundVisible ∧
      clock.character.visible = stage.characterVisible) ∧
    (∀ fade, clock.background.fade = some fade →
      fade.target = if stage.backgroundVisible then 255 else 0) ∧
    (∀ fade, clock.character.fade = some fade →
      fade.target = if stage.characterVisible then 255 else 0) ∧
    ∀ later, clock.background.Rests later → clock.character.Rests later →
      let view := clock.view session.player.showSceneIndex later
      Layout.opacity stage.backgroundVisible view.backgroundOpacity =
          (if stage.backgroundVisible then 255 else 0) ∧
        Layout.opacity stage.characterVisible view.characterOpacity =
          (if stage.characterVisible then 255 else 0) := by
  intro clock stage
  rw [ofCalls, List.foldlM_cons] at h
  obtain ⟨first, hfirst, hrest⟩ := bind_eq_ok.mp h
  obtain ⟨after, reply, hcall, rfl⟩ := call_eq_ok.mp hfirst
  simp only [Player.call, Prod.mk.injEq, map_eq_ok] at hcall
  obtain ⟨hafter, ⟨⟩, hok, -⟩ := hcall
  have hstarted : after.Mirrored := Player.mirrored_start (Prod.ext hafter hok)
  have hmirrors : clock.Mirrors stage := (mirrored_ofCalls hstarted hrest).clock
  refine ⟨⟨hmirrors.background.visible_eq, hmirrors.character.visible_eq⟩,
    hmirrors.background.target_eq, hmirrors.character.target_eq, ?_⟩
  intro later hbackground hcharacter view
  exact ⟨hbackground.opacity_eq _, hcharacter.opacity_eq _⟩

/-- Dusk takes 400 milliseconds while the words are said. -/
def dusk : Project where
  scenes := [{ id := "a", commands := [⟨"1", .hideBackground 400⟩, .dialogue "2" "" "Dusk" []] }]

def duskCalls : List Player.Call :=
  let catalogue : Catalogue := fun _ => .pending
  [.start catalogue .zero, .frame catalogue (.ofMillis 100)]

theorem exists_session_dusk : ∃ session, ofCalls dusk .default duskCalls = .ok session ∧
    session.player.clock.background = ⟨false, some ⟨255, 0, .zero, .ofMillis 400⟩⟩ ∧
    session.player.clock.character = ⟨true, none⟩ := by
  have hclock : (ofCalls dusk .default duskCalls).toOption.map (·.player.clock) =
      some ⟨⟨false, some ⟨255, 0, .zero, .ofMillis 400⟩⟩, ⟨true, none⟩, none⟩ := by
    decide +kernel
  cases hcalls : ofCalls dusk .default duskCalls with
  | error fault =>
      rw [hcalls] at hclock
      cases hclock
  | ok session =>
      rw [hcalls] at hclock
      have heq : session.player.clock =
          ⟨⟨false, some ⟨255, 0, .zero, .ofMillis 400⟩⟩, ⟨true, none⟩, none⟩ :=
        Option.some.inj hclock
      exact ⟨session, rfl, by rw [heq], by rw [heq]⟩

/-- The fade of the background leads to the darkness that the stage has already. -/
theorem mirrors_dusk : ∃ session, ofCalls dusk .default duskCalls = .ok session ∧
    session.player.clock.background.fade = some ⟨255, 0, .zero, .ofMillis 400⟩ ∧
    session.player.interpreter.state.stage.backgroundVisible = false ∧
    Layout.opacity false (session.player.clock.view session.player.showSceneIndex
      (.ofMillis 400)).backgroundOpacity = 0 := by
  obtain ⟨session, hcalls, hbackground, hcharacter⟩ := exists_session_dusk
  obtain ⟨⟨hvisible, -⟩, -, -, hrests⟩ := mirrors_ofCalls hcalls
  have hdark : session.player.interpreter.state.stage.backgroundVisible = false := by
    rw [← hvisible, hbackground]
  have hover : session.player.clock.background.Rests (.ofMillis 400) := by
    rw [hbackground]
    intro fade hfade
    cases hfade
    decide
  have hnone : session.player.clock.character.Rests (.ofMillis 400) := by
    rw [hcharacter]
    exact nofun
  obtain ⟨hopacity, -⟩ := hrests _ hover hnone
  refine ⟨session, hcalls, by rw [hbackground], hdark, ?_⟩
  rw [hdark] at hopacity
  exact hopacity

end Session
end SceneScript
