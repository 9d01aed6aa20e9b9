import SceneScript.Proofs.Picture.Footprint
import SceneScript.Proofs.Show.Requests

/-! # The pictures that a player asks for

Whatever a player does, it only asks for pictures that its project uses: those of the scenes, the
skins of the boxes, and the mask of the transitions.
-/

namespace SceneScript

/-- The picture of the handle makes a difference. -/
def Catalogue.Matters {α : Type} (handle : String) (ask : Catalogue → α) : Prop :=
  ∃ catalogue other : Catalogue, catalogue.AgreeOn (· ≠ handle) other ∧ ask other ≠ ask catalogue

theorem Catalogue.Matters.known {α : Type} {handle : String} {ask : Catalogue → α}
    {known : String → Prop} (h : Matters handle ask)
    (hcongr : ∀ catalogue other : Catalogue, catalogue.AgreeOn known other →
      ask other = ask catalogue) : known handle := by
  obtain ⟨catalogue, other, hagree, hne⟩ := h
  by_contra hunknown
  apply hne
  apply hcongr
  intro name hname
  apply hagree
  rintro rfl
  exact hunknown hname

namespace Player

variable {player : Player} {catalogue other : Catalogue} {interpreter : Interpreter}
  {clock : StageClock} {now : Duration} {drawing : Drawing}

/-! ## Drawings -/

theorem project_of_ofState {project : Project} {state : State} {view : View} {shot : Shot}
    (h : Shot.ofState project state view = .ok shot) : shot.project = project := by
  obtain ⟨active, follows, -, -, rfl⟩ := ofState_eq_ok.mp h
  rfl

/-- The catalogues tell the same about the pictures of the project. -/
def Agree (player : Player) (catalogue other : Catalogue) : Prop :=
  catalogue.AgreeOn player.project.UsesImage other

theorem drawingOf_agree (h : player.Agree catalogue other) (interpreter : Interpreter)
    (clock : StageClock) (now : Duration) :
    player.drawingOf interpreter clock other now =
      player.drawingOf interpreter clock catalogue now := by
  simp only [drawingOf]
  cases hshot : Shot.ofState player.project interpreter.state
      (clock.view player.showSceneIndex now) with
  | error fault => rfl
  | ok shot =>
      have hproject := project_of_ofState hshot
      have hlayout : shot.layout other player.font = shot.layout catalogue player.font := by
        apply Shot.layout_congr
        rw [hproject]
        exact h
      simp only [mapError_ok, bind, Except.bind, hlayout]

theorem draws_of_drawingOf
    (h : player.drawingOf interpreter clock catalogue now = .ok drawing) :
    drawing.Draws player.project.UsesImage := by
  unfold drawingOf at h
  obtain ⟨shot, hshot, hlayout⟩ := bind_eq_ok.mp h
  rw [← project_of_ofState (mapError_eq_ok.mp hshot)]
  exact Shot.draws_of_layout (mapError_eq_ok.mp hlayout)

theorem mask_agree (h : player.Agree catalogue other) :
    player.mask other = player.mask catalogue := by
  unfold mask
  cases hmask : player.project.settings.transitionImage with
  | none => rfl
  | some handle =>
      have hsame := h handle (Project.usesImage_mask hmask)
      simp only [Option.bind_some, hsame]

theorem oldImage_agree (h : player.Agree catalogue other) (now : Duration) :
    player.oldImage other now = player.oldImage catalogue now := by
  unfold oldImage
  rw [drawingOf_agree h]
  cases player.image with
  | some image => rfl
  | none =>
      cases hdrawing : player.drawingOf player.interpreter player.clock catalogue now with
      | error fault => rfl
      | ok drawing =>
          have himage := Drawing.render_congr h (draws_of_drawingOf hdrawing) player.font
          simp only [bind, Except.bind, himage]

theorem beginTransition_agree (h : player.Agree catalogue other) (now : Duration) :
    player.beginTransition other now = player.beginTransition catalogue now := by
  unfold beginTransition
  rw [oldImage_agree h, mask_agree h]
  apply bind_congr
  intro old
  cases player.interpreter.tick player.project (some .transitionFinished) with
  | mk ahead result =>
  apply bind_congr
  intro response
  simp only [drawingOf_agree h]
  cases hdrawing : player.drawingOf ahead
      (player.clock.applyAll player.project now response.effects) catalogue now with
  | error fault => rfl
  | ok drawing =>
      have himage := Drawing.render_congr h (draws_of_drawingOf hdrawing) player.font
      simp only [bind, Except.bind, himage]

/-! ## Calls -/

theorem follow_agree (h : player.Agree catalogue other) (effects : List Effect) (now : Duration) :
    player.follow effects other now = player.follow effects catalogue now := by
  unfold follow
  have hbegin : ∀ clock outbox,
      { player with clock, outbox }.beginTransition other now =
        { player with clock, outbox }.beginTransition catalogue now := by
    intro clock outbox
    apply beginTransition_agree
    exact h
  simp only [hbegin]

theorem feed_agree (h : player.Agree catalogue other) (input : Option Input) (now : Duration) :
    player.feed input other now = player.feed input catalogue now := by
  unfold feed
  cases player.interpreter.tick player.project input with
  | mk next result =>
      cases result with
      | error fault => rfl
      | ok response =>
          apply follow_agree
          exact h

theorem start_agree (h : player.Agree catalogue other) (now : Duration) :
    player.start other now = player.start catalogue now := by
  unfold start
  split
  · rfl
  · apply feed_agree
    exact h

theorem click_agree (h : player.Agree catalogue other) (x y : Int32) (now : Duration) :
    player.click x y other now = player.click x y catalogue now := by
  unfold click
  split
  · rfl
  · rw [feed_agree h]

theorem redraw_agree (h : player.Agree catalogue other) (now : Duration) :
    player.redraw other now = player.redraw catalogue now := by
  unfold redraw
  rw [drawingOf_agree h]
  cases hdrawing : player.drawingOf player.interpreter player.clock catalogue now with
  | error fault => rfl
  | ok drawing =>
      have hdraws := draws_of_drawingOf hdrawing
      simp only [Drawing.render_congr h hdraws, Drawing.staging_congr h hdraws]

theorem project_commit (player : Player) (now : Duration) :
    (player.commit now).project = player.project := by
  unfold commit
  split <;> rfl

theorem frame_agree (h : player.Agree catalogue other) (now : Duration) :
    player.frame other now = player.frame catalogue now := by
  unfold frame
  split
  · dsimp only
    split
    · apply redraw_agree
      unfold Agree
      rw [project_commit]
      exact h
    · rfl
  · exact redraw_agree h now

/-- The player asks for the picture of the handle: in the layout of some moment, as the mask of a
transition, or in the course of a call. -/
inductive Asks (player : Player) (handle : String) : Prop where
  | layout (interpreter : Interpreter) (clock : StageClock) (now : Duration)
      (h : Catalogue.Matters handle fun catalogue =>
        player.drawingOf interpreter clock catalogue now)
  | mask (h : Catalogue.Matters handle player.mask)
  | transition (now : Duration)
      (h : Catalogue.Matters handle fun catalogue => player.beginTransition catalogue now)
  | start (now : Duration)
      (h : Catalogue.Matters handle fun catalogue => player.start catalogue now)
  | click (x y : Int32) (now : Duration)
      (h : Catalogue.Matters handle fun catalogue => player.click x y catalogue now)
  | frame (now : Duration)
      (h : Catalogue.Matters handle fun catalogue => player.frame catalogue now)

/-- A player only asks for pictures that the project uses. -/
theorem Asks.usesImage {handle : String} (h : player.Asks handle) :
    player.project.UsesImage handle := by
  cases h with
  | layout interpreter clock now h =>
      exact h.known fun _ _ hagree => drawingOf_agree hagree interpreter clock now
  | mask h => exact h.known fun _ _ hagree => mask_agree hagree
  | transition now h => exact h.known fun _ _ hagree => beginTransition_agree hagree now
  | start now h => exact h.known fun _ _ hagree => start_agree hagree now
  | click x y now h => exact h.known fun _ _ hagree => click_agree hagree x y now
  | frame now h => exact h.known fun _ _ hagree => frame_agree hagree now

end Player
end SceneScript
