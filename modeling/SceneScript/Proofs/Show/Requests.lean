import SceneScript.Proofs.Show.Bookkeeping

/-! # Requests to players

A host calls a player, and switches the numbers of the scenes on and off. A request moves a player
in one of three ways: not at all, by an input, or by a frame. Only a frame changes what is seen.
-/

namespace SceneScript

/-- Everything that a host can ask for. -/
inductive Player.Request where
  | call (call : Call)
  | numberScenes (shown : Bool)

namespace Player

variable {player : Player}

/-- The pictures that there are for a request, and its time, if anything may have to be drawn. -/
def Request.moment? : Request → Option (Catalogue × Duration)
  | .call (.start catalogue now) => some (catalogue, now)
  | .call (.click _ _ catalogue now) => some (catalogue, now)
  | .call (.frame catalogue now) => some (catalogue, now)
  | .call .takeEffects => none
  | .numberScenes _ => none

/-- The player after a request, whatever it has answered. -/
def afterRequest (player : Player) : Request → Player
  | .call call => (player.call call).1
  | .numberScenes shown => { player with showSceneIndex := shown }

def afterRequests (player : Player) (requests : List Request) : Player :=
  requests.foldl afterRequest player

theorem Intact.afterRequest (h : player.Intact) (request : Request) :
    (player.afterRequest request).Intact := by
  cases request with
  | call call => exact h.call call
  | numberScenes shown => exact ⟨h.stands, h.unstarted, h.paired, h.pending, h.image, h.sides⟩

theorem Intact.afterRequests (h : player.Intact) (requests : List Request) :
    (player.afterRequests requests).Intact := by
  induction requests generalizing player with
  | nil => exact h
  | cons request rest ih => exact ih (h.afterRequest request)

/-! ## Moves -/

/-- What is seen is the same picture of the same project. -/
structure SameView (player next : Player) : Prop where
  project : next.project = player.project
  font : next.font = player.font
  image : next.image = player.image
  drawing : next.drawing = player.drawing

/-- How a request moves a player. -/
inductive Moves (player : Player) : Request → Player → Prop where
  | kept {request : Request} {next : Player} (hview : player.SameView next)
      (hinterpreter : next.interpreter = player.interpreter)
      (htransition : next.transition = player.transition)
      (hpending : next.pending = player.pending) : Moves player request next
  | fed {request : Request} {input : Option Input} {catalogue : Catalogue} {now : Duration}
      (hmoment : request.moment? = some (catalogue, now)) (hidle : player.transition = none) :
      Moves player request ({ player with started := true }.feed input catalogue now).1
  | framed {catalogue : Catalogue} {now : Duration} :
      Moves player (.call (.frame catalogue now)) (player.frame catalogue now).1

theorem Intact.moves (h : player.Intact) (request : Request) :
    player.Moves request (player.afterRequest request) := by
  cases request with
  | numberScenes shown => exact .kept ⟨rfl, rfl, rfl, rfl⟩ rfl rfl rfl
  | call call =>
      cases call with
      | takeEffects => exact .kept ⟨rfl, rfl, rfl, rfl⟩ rfl rfl rfl
      | frame catalogue now => exact .framed
      | start catalogue now =>
          change player.Moves _ (player.start catalogue now).1
          unfold Player.start
          split
          · exact .kept ⟨rfl, rfl, rfl, rfl⟩ rfl rfl rfl
          · next hunstarted =>
              rw [Bool.not_eq_true] at hunstarted
              exact .fed rfl (h.unstarted hunstarted).2
      | click x y catalogue now =>
          change player.Moves _ (player.click x y catalogue now).1
          unfold Player.click
          split
          · exact .kept ⟨rfl, rfl, rfl, rfl⟩ rfl rfl rfl
          · next input outcome hintent =>
              have hsame : { player with started := true } = player := by
                rw [← h.started_of_intent hintent]
              have hmoves : player.Moves (.call (.click x y catalogue now))
                  ({ player with started := true }.feed (some input) catalogue now).1 :=
                .fed rfl (intent_eq_some hintent).1
              rw [hsame] at hmoves
              exact hmoves

theorem Intact.sameView_feed (h : player.Intact) (hidle : player.transition = none)
    (input : Option Input) (catalogue : Catalogue) (now : Duration) :
    player.SameView (player.feed input catalogue now).1 := by
  have hfed := h.fed hidle input catalogue now
  generalize player.feed input catalogue now = result at hfed ⊢
  cases hfed <;> exact ⟨rfl, rfl, rfl, rfl⟩

/-- Only frames change what is seen. -/
theorem Intact.sameView_afterRequest (h : player.Intact) {request : Request}
    (hquiet : ∀ catalogue now, request ≠ .call (.frame catalogue now)) :
    player.SameView (player.afterRequest request) := by
  have hmoves := h.moves request
  generalize player.afterRequest request = next at hmoves ⊢
  cases hmoves with
  | kept hview _ _ _ => exact hview
  | @fed _ input catalogue now _ hidle =>
      obtain ⟨hproject, hfont, himage, hdrawing⟩ := h.begun.sameView_feed hidle input catalogue now
      exact ⟨hproject, hfont, himage, hdrawing⟩
  | framed => exact absurd rfl (hquiet _ _)

/-! ## Projects and fonts -/

/-- A player shows one project in one font. -/
structure SameShow (player next : Player) : Prop where
  project : next.project = player.project
  font : next.font = player.font

theorem SameShow.trans {next last : Player} (h : player.SameShow next)
    (hlast : next.SameShow last) : player.SameShow last :=
  ⟨hlast.project.trans h.project, hlast.font.trans h.font⟩

theorem sameShow_redraw (player : Player) (catalogue : Catalogue) (now : Duration) :
    player.SameShow (player.redraw catalogue now).1 := by
  obtain ⟨image, drawing, heq, -⟩ := player.redraw_kept catalogue now
  rw [heq]
  exact ⟨rfl, rfl⟩

theorem Intact.sameShow_frame (h : player.Intact) (catalogue : Catalogue) (now : Duration) :
    player.SameShow (player.frame catalogue now).1 := by
  have hframed := h.framed catalogue now
  generalize player.frame catalogue now = result at hframed ⊢
  cases hframed with
  | still _ => exact player.sameShow_redraw catalogue now
  | shown _ _ => exact ⟨rfl, rfl⟩
  | @ended transition jump _ _ _ =>
      have hcommitted : player.SameShow (player.committed transition jump now) := ⟨rfl, rfl⟩
      exact hcommitted.trans (sameShow_redraw _ catalogue now)

theorem Intact.sameShow_afterRequest (h : player.Intact) (request : Request) :
    player.SameShow (player.afterRequest request) := by
  by_cases hframe : ∃ catalogue now, request = .call (.frame catalogue now)
  · obtain ⟨catalogue, now, rfl⟩ := hframe
    exact h.sameShow_frame catalogue now
  · have hview : player.SameView (player.afterRequest request) :=
      h.sameView_afterRequest fun catalogue now heq => hframe ⟨catalogue, now, heq⟩
    exact ⟨hview.project, hview.font⟩

theorem Intact.sameShow_afterRequests (h : player.Intact) (requests : List Request) :
    player.SameShow (player.afterRequests requests) := by
  induction requests generalizing player with
  | nil => exact ⟨rfl, rfl⟩
  | cons request rest ih =>
      exact (h.sameShow_afterRequest request).trans (ih (h.afterRequest request))

/-! ## Complete drawings -/

/-- The drawing of the moment that an interpreter stands at, if all its pictures are there. -/
def stagedDrawing? (player : Player) (interpreter : Interpreter) (clock : StageClock)
    (catalogue : Catalogue) (now : Duration) : Option Drawing :=
  match player.drawingOf interpreter clock catalogue now with
  | .ok drawing => if (drawing.staging catalogue).isReady then some drawing else none
  | .error _ => none

/-- The complete drawing of the moment that the player stands at. -/
def here? (player : Player) (catalogue : Catalogue) (now : Duration) : Option Drawing :=
  player.stagedDrawing? player.interpreter player.clock catalogue now

/-- The complete drawing of the moment behind the jump that the player stores. -/
def ahead? (player : Player) (catalogue : Catalogue) (now : Duration) : Option Drawing :=
  player.pending.bind fun jump => player.stagedDrawing? jump.interpreter
    (player.clock.applyAll player.project now jump.effects) catalogue now

variable {interpreter : Interpreter} {clock : StageClock} {catalogue : Catalogue} {now : Duration}
  {drawing : Drawing}

theorem stagedDrawing?_eq_some :
    player.stagedDrawing? interpreter clock catalogue now = some drawing ↔
      player.drawingOf interpreter clock catalogue now = .ok drawing ∧
        (drawing.staging catalogue).isReady = true := by
  unfold stagedDrawing?
  cases player.drawingOf interpreter clock catalogue now with
  | error fault => simp
  | ok found =>
      by_cases hready : (found.staging catalogue).isReady = true
      · simp only [hready, if_true, Option.some.injEq, Except.ok.injEq]
        exact ⟨fun heq => ⟨heq, heq ▸ hready⟩, And.left⟩
      · simp only [hready, Except.ok.injEq]
        refine ⟨nofun, fun h => absurd (h.1 ▸ h.2) hready⟩

/-- A moment is drawn anew if its drawing is complete. -/
theorem redraw_eq (player : Player) (catalogue : Catalogue) (now : Duration) :
    (player.redraw catalogue now).1 = match player.here? catalogue now with
      | some drawing => { player with
          image := some (drawing.render catalogue player.font)
          drawing := some drawing }
      | none => player := by
  unfold redraw here? stagedDrawing?
  cases player.drawingOf player.interpreter player.clock catalogue now with
  | error fault => rfl
  | ok found => by_cases hready : (found.staging catalogue).isReady = true <;> simp [hready]

/-- Drawing anew does not change what there is to draw. -/
theorem here?_redraw (player : Player) (catalogue : Catalogue) (now : Duration) :
    (player.redraw catalogue now).1.here? catalogue now = player.here? catalogue now ∧
      (player.redraw catalogue now).1.transition = player.transition := by
  obtain ⟨image, drawing, heq, -⟩ := redraw_kept player catalogue now
  rw [heq]
  exact ⟨rfl, rfl⟩

end Player
end SceneScript
