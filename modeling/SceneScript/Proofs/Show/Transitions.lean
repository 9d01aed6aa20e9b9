import SceneScript.Proofs.Show.Clicks
import SceneScript.Proofs.Show.Rasterizing

/-! # Transitions that cannot fail

A transition may be refused because one is running, or because its sides differ in size. A player
never asks for such a one: it takes no input while a transition runs, and all it shows has the size
of the canvas. What fails is the script.
-/

namespace SceneScript.Player

variable {player : Player} {catalogue : Catalogue} {now : Duration} {fault : ShowFault}

/-! ## Faults of calls -/

theorem script_of_drawingOf {interpreter : Interpreter} {clock : StageClock}
    (h : player.drawingOf interpreter clock catalogue now = .error fault) :
    ∃ cause, fault = .script cause := by
  unfold drawingOf at h
  rcases bind_eq_error.mp h with hshot | ⟨shot, -, hlayout⟩
  · cases hfound : Shot.ofState player.project interpreter.state
      (clock.view player.showSceneIndex now) with
    | error cause =>
        rw [hfound] at hshot
        cases hshot
        exact ⟨cause, rfl⟩
    | ok shot => rw [hfound] at hshot; cases hshot
  · cases hlaid : shot.layout catalogue player.font with
    | error cause =>
        rw [hlaid] at hlayout
        cases hlayout
        exact ⟨cause, rfl⟩
    | ok drawing => rw [hlaid] at hlayout; cases hlayout

theorem script_of_redraw (h : (player.redraw catalogue now).2 = .error fault) :
    ∃ cause, fault = .script cause := by
  unfold redraw at h
  split at h
  · next cause hdrawing =>
      cases h
      exact script_of_drawingOf hdrawing
  · cases h

theorem Intact.script_of_feed (h : player.Intact) (hidle : player.transition = none)
    {input : Option Input} (hfault : (player.feed input catalogue now).2 = .error fault) :
    ∃ cause, fault = .script cause :=
  (h.feed_error hidle hfault).imp fun _ => And.left

/-- Whatever has failed before, a call fails only by the script. -/
theorem Intact.script_of_call (h : player.Intact) {call : Call}
    (hfault : (player.call call).2 = .error fault) : ∃ cause, fault = .script cause := by
  cases call with
  | takeEffects => cases hfault
  | start catalogue now =>
      have hstart : (player.start catalogue now).2 = .error fault := map_eq_error.mp hfault
      unfold Player.start at hstart
      split at hstart
      · cases hstart
      · next hunstarted =>
          rw [Bool.not_eq_true] at hunstarted
          exact h.begun.script_of_feed (h.unstarted hunstarted).2 hstart
  | click x y catalogue now =>
      have hclick : (player.click x y catalogue now).2 = .error fault := map_eq_error.mp hfault
      unfold Player.click at hclick
      split at hclick
      · cases hclick
      · next input outcome hintent =>
          exact h.script_of_feed (intent_eq_some hintent).1 (map_eq_error.mp hclick)
  | frame catalogue now =>
      have hframe : (player.frame catalogue now).2 = .error fault := map_eq_error.mp hfault
      have hframed := h.framed catalogue now
      generalize player.frame catalogue now = result at hframed hframe
      cases hframed with
      | shown _ _ => cases hframe
      | still _ | ended _ _ _ => exact script_of_redraw hframe

/-! ## All players -/

/-- However a player has come about, a jump is stored exactly while a transition runs, all pictures
have the size of the canvas, and no call is refused a transition. -/
theorem transitions_in_order (project : Project) (font : Font) (requests : List Request) :
    let player := (Player.new project font).afterRequests requests
    (player.inTransition = true ↔ player.pending.isSome = true) ∧
      (∀ image, player.image = some image → image.width = 256 ∧ image.height = 192) ∧
      (∀ transition, player.transition = some transition →
        (transition.old.width = 256 ∧ transition.old.height = 192) ∧
        (transition.new.width = 256 ∧ transition.new.height = 192) ∧
        ∀ now, (transition.frame now).finished = false →
          transition.old.composite transition.new transition.mask
            (.finite (transition.progress now)) = .ok (transition.frame now).image) ∧
      ∀ call fault, (player.call call).2 ≠ .error (.transition fault) := by
  intro player
  have hintact : player.Intact := (intact_new project font).afterRequests requests
  refine ⟨iff_of_eq (congrArg (· = true) hintact.paired), hintact.image, ?_, ?_⟩
  · intro transition hrunning
    obtain ⟨hold, hnew⟩ := hintact.sides transition hrunning
    exact ⟨hold, hnew, fun now hgoes => composite_frame hgoes⟩
  · intro call fault hrefused
    obtain ⟨cause, hcause⟩ := hintact.script_of_call hrefused
    cases hcause

/-- Between two scenes, the jump is stored, and there is a picture of the wipe. -/
theorem curtain_in_order :
    let player := (Player.new curtain .default).afterRequests curtainRequests
    player.pending.isSome = true ∧ ∃ transition, player.transition = some transition ∧
      transition.new.height = 192 ∧
      ∃ image, transition.old.composite transition.new transition.mask
        (.finite (transition.progress (.ofMillis 400))) = .ok image := by
  intro player
  obtain ⟨hpaired, -, hsides, -⟩ := transitions_in_order curtain .default curtainRequests
  have hmiddle : player.transition.any (fun transition =>
      !(transition.frame (.ofMillis 400)).finished) = true := by
    decide +kernel
  cases hrunning : player.transition with
  | none =>
      rw [hrunning] at hmiddle
      cases hmiddle
  | some transition =>
      rw [hrunning] at hmiddle
      have hgoes : (transition.frame (.ofMillis 400)).finished = false := by simpa using hmiddle
      obtain ⟨-, hnew, hcomposite⟩ := hsides transition hrunning
      have hactive : player.inTransition = true := by simp [inTransition, hrunning]
      exact ⟨hpaired.mp hactive, transition, rfl, hnew.2, _, hcomposite _ hgoes⟩

end SceneScript.Player
