import SceneScript.Proofs.Show.Rasterizing
import SceneScript.Proofs.Show.StageClock

/-! # Arriving

A transition leads to the picture of a moment that has not come yet: the jump is tried out on copies
of the interpreter and of the clock. When the transition ends, the jump is made on the clock itself,
at another time. Both ways lead to the same drawing, so the end of a transition is not seen.
-/

namespace SceneScript

/-! ## Jumps -/

section Jumps

variable {project : Project} {target : Index}

theorem State.effects_of_arrival {state next : State} {effects : List Effect}
    (hwaiting : state.waiting = .transition target)
    (hanswer : state.answer project .transitionFinished = (next, .ok effects)) :
    effects = [.sceneEntered target] := by
  simp only [answer, hwaiting] at hanswer
  split at hanswer
  · next entered told henter =>
      obtain ⟨scene, -, -, rfl⟩ := enterScene_eq_ok.mp henter
      cases hanswer
      rfl
  · cases hanswer

/-- A jump begins with the entry of the scene, whatever follows. -/
theorem Interpreter.Stands.effects_of_jump {interpreter next : Interpreter} {response : Response}
    (h : interpreter.Stands project) (hwaiting : interpreter.state.waiting = .transition target)
    (htick : interpreter.tick project (some .transitionFinished) = (next, .ok response)) :
    ∃ later, response.effects = .sceneEntered target :: later := by
  have hwaits : interpreter.state.waiting ≠ .nothing := by simp [hwaiting]
  have hstarted : interpreter.started = true := by
    apply Bool.of_not_eq_false
    intro hunbegun
    exact hwaits (h.unbegun hunbegun)
  have hbegun : interpreter.begin project = (interpreter.state, .ok []) := if_pos hstarted
  have hticked := ticked project (some .transitionFinished) interpreter
  rw [htick] at hticked
  cases hticked with
  | ended hfinished =>
      have hruns := (h.of_waiting hwaits).runs hwaits
      cases hruns.symm.trans hfinished
  | waits _ hbegin htake _ =>
      cases hbegun.symm.trans hbegin
      rw [State.effects_of_arrival hwaiting htake]
      exact ⟨[], rfl⟩
  | @runs _ _ _ _ _ later _ hbegin htake _ _ =>
      cases hbegun.symm.trans hbegin
      rw [State.effects_of_arrival hwaiting htake]
      exact ⟨later, rfl⟩

end Jumps

namespace Player

variable {player next : Player} {jump : PendingJump} {transition : Transition}
  {catalogue : Catalogue} {began ended : Duration} {drawing : Drawing}

theorem drawingOf_congr {interpreter : Interpreter} {clock : StageClock} {now : Duration}
    (h : player.SameShow next) (hindex : next.showSceneIndex = player.showSceneIndex) :
    next.drawingOf interpreter clock catalogue now =
      player.drawingOf interpreter clock catalogue now := by
  unfold drawingOf
  rw [h.project, h.font, hindex]

/-- The moment behind a stored jump looks the same at whatever time, and after whatever, the jump is
made. -/
theorem Intact.drawingOf_jump (h : player.Intact) (hpending : player.pending = some jump)
    (catalogue : Catalogue) (clock other : StageClock) (began ended : Duration) :
    player.drawingOf jump.interpreter (other.applyAll player.project ended jump.effects) catalogue
        ended =
      player.drawingOf jump.interpreter (clock.applyAll player.project began jump.effects) catalogue
        began := by
  obtain ⟨target, response, hwaiting, htick, heffects⟩ := h.pending jump hpending
  obtain ⟨later, hlater⟩ := h.stands.effects_of_jump hwaiting htick
  have halike := StageClock.alike_of_entered player.project clock other began ended target later
  rw [← hlater, heffects] at halike
  unfold drawingOf
  rw [halike.view]

/-! ## On the way -/

/-- The transition goes on through the requests. -/
def crosses (player : Player) : List Request → Bool
  | [] => true
  | request :: rest =>
    (player.afterRequest request).inTransition && (player.afterRequest request).crosses rest

/-- Nothing of what there will be at the end of a transition has changed. -/
structure SameJump (player next : Player) : Prop extends SameShow player next where
  transition : next.transition = player.transition
  pending : next.pending = player.pending

theorem SameJump.trans {last : Player} (h : player.SameJump next) (hlast : next.SameJump last) :
    player.SameJump last where
  toSameShow := h.toSameShow.trans hlast.toSameShow
  transition := hlast.transition.trans h.transition
  pending := hlast.pending.trans h.pending

/-- What is asked of a player in a transition is put off, or ends the transition. -/
theorem Intact.sameJump_afterRequest (h : player.Intact) (hrunning : player.transition ≠ none)
    {request : Request} (hgoes : (player.afterRequest request).inTransition = true) :
    player.SameJump (player.afterRequest request) := by
  have hmoves := h.moves request
  have hshow := h.sameShow_afterRequest request
  generalize player.afterRequest request = next at hmoves hshow hgoes ⊢
  cases hmoves with
  | kept _ _ htransition hpending => exact ⟨hshow, htransition, hpending⟩
  | fed _ hidle => exact absurd hidle hrunning
  | @framed catalogue now =>
      have hframed := h.framed catalogue now
      generalize player.frame catalogue now = result at hframed hshow hgoes ⊢
      cases hframed with
      | still hidle => exact absurd hidle hrunning
      | shown _ _ => exact ⟨hshow, rfl, rfl⟩
      | @ended transition jump _ _ _ =>
          have hover := ((player.committed transition jump now).here?_redraw catalogue now).2
          rw [inTransition, hover] at hgoes
          cases hgoes

theorem Intact.sameJump_afterRequests (h : player.Intact) (hrunning : player.transition ≠ none)
    {requests : List Request} (hcrosses : player.crosses requests = true) :
    player.SameJump (player.afterRequests requests) := by
  induction requests generalizing player with
  | nil => exact ⟨⟨rfl, rfl⟩, rfl, rfl⟩
  | cons request rest ih =>
      simp only [crosses, Bool.and_eq_true] at hcrosses
      obtain ⟨hgoes, hrest⟩ := hcrosses
      have hfirst := h.sameJump_afterRequest hrunning hgoes
      have hstill : (player.afterRequest request).transition ≠ none := by
        rw [hfirst.transition]
        exact hrunning
      exact hfirst.trans (ih (h.afterRequest request) hstill hrest)

/-! ## From the beginning to the end -/

/-- The player is on the way to the picture of the moment behind its jump. -/
structure Heads (player : Player) (catalogue : Catalogue) (now : Duration)
    (transition : Transition) (jump : PendingJump) (drawing : Drawing) : Prop where
  running : player.transition = some transition
  stored : player.pending = some jump
  drawn : player.drawingOf jump.interpreter
    (player.clock.applyAll player.project now jump.effects) catalogue now = .ok drawing
  side : transition.new = drawing.render catalogue player.font

theorem Intact.heads_of_begins (h : player.Intact) {request : Request}
    (hmoment : request.moment? = some (catalogue, began)) (hbegins : player.begins request = true) :
    ∃ transition jump drawing,
      (player.afterRequest request).Heads catalogue began transition jump drawing := by
  have hmoves := h.moves request
  have hstarts := hbegins
  simp only [begins, inTransition, Bool.and_eq_true, Bool.not_eq_true',
    Option.isSome_eq_false_iff, Option.isNone_iff_eq_none, Option.isSome_iff_ne_none] at hstarts
  obtain ⟨hidle, hbegun⟩ := hstarts
  generalize player.afterRequest request = next at hmoves hbegun ⊢
  cases hmoves with
  | kept _ _ htransition _ => exact absurd (htransition.trans hidle) hbegun
  | framed =>
      rw [h.not_begins_frame] at hbegins
      cases hbegins
  | @fed _ input _ _ hsame _ =>
      cases hmoment.symm.trans hsame
      have hstarted : { player with started := true }.transition = none := hidle
      obtain ⟨arrived, effects, hbegin⟩ := exists_beginTransition_of_feed hstarted hbegun
      obtain ⟨transition, jump, drawing, heq, -, hdrawing, hnew⟩ := sides_of_beginTransition hbegin
      rw [heq]
      exact ⟨transition, jump, drawing, rfl, rfl, hdrawing, hnew⟩

/-- The player stands at the moment of the drawing, and shows it. -/
structure Arrives (player : Player) (catalogue : Catalogue) (now : Duration) (drawing : Drawing)
    (image : Bitmap) : Prop where
  drawn : player.drawingOf player.interpreter player.clock catalogue now = .ok drawing
  rendered : drawing.render catalogue player.font = image
  shown : player.image = some image
  complete : (drawing.staging catalogue).isReady = true → player.drawing = some drawing

theorem arrives_redraw {now : Duration} {image : Bitmap}
    (hdrawn : player.drawingOf player.interpreter player.clock catalogue now = .ok drawing)
    (hrendered : drawing.render catalogue player.font = image)
    (hshown : player.image = some image) :
    (player.redraw catalogue now).1.Arrives catalogue now drawing image ∧
      (player.redraw catalogue now).2 = .ok (some image) := by
  unfold redraw
  rw [hdrawn]
  by_cases hready : (drawing.staging catalogue).isReady = true
  · simp only [if_pos hready, hrendered]
    exact ⟨⟨hdrawn, hrendered, rfl, fun _ => rfl⟩, trivial⟩
  · simp only [if_neg hready, hshown]
    exact ⟨⟨hdrawn, hrendered, hshown, fun h => absurd h hready⟩, trivial⟩

/-- The frame in which the transition ends goes on with the drawing that the transition has led to,
though the jump is made at another time. -/
theorem Heads.frame {last : Player} (h : player.Heads catalogue began transition jump drawing)
    (hintact : last.Intact) (hsame : player.SameJump last)
    (hindex : last.showSceneIndex = player.showSceneIndex)
    (hends : (last.frame catalogue ended).1.inTransition = false) :
    (last.frame catalogue ended).1.Arrives catalogue ended drawing transition.new ∧
      (last.frame catalogue ended).2 = .ok (some transition.new) := by
  have hrunning := hsame.transition.trans h.running
  have hstored := hsame.pending.trans h.stored
  have hframed := hintact.framed catalogue ended
  generalize last.frame catalogue ended = result at hframed hends ⊢
  cases hframed with
  | still hidle => cases hidle.symm.trans hrunning
  | shown hstill _ => simp [inTransition, hstill] at hends
  | @ended shown made hshown _ hmade =>
      cases hrunning.symm.trans hshown
      cases hstored.symm.trans hmade
      have hdrawn : last.drawingOf jump.interpreter
          (last.clock.applyAll last.project ended jump.effects) catalogue ended = .ok drawing := by
        rw [hintact.drawingOf_jump hstored catalogue player.clock last.clock began ended,
          drawingOf_congr hsame.toSameShow hindex, hsame.project]
        exact h.drawn
      have hrendered : drawing.render catalogue last.font = transition.new := by
        rw [hsame.font, h.side]
      exact arrives_redraw hdrawn hrendered rfl

/-- However long it takes, and whatever is asked for on the way, a transition ends in the picture
that it was begun with, and this is the drawing of the moment that the player then stands at. -/
theorem arrives_of_crosses {project : Project} {font : Font} {before between : List Request}
    {request : Request} {start begun last : Player}
    (hstart : (Player.new project font).afterRequests before = start)
    (hmoment : request.moment? = some (catalogue, began)) (hbegins : start.begins request = true)
    (hbegun : start.afterRequest request = begun)
    (hcrosses : begun.crosses between = true) (hlast : begun.afterRequests between = last)
    (hindex : last.showSceneIndex = begun.showSceneIndex)
    (hends : (last.frame catalogue ended).1.inTransition = false) :
    ∃ transition drawing, begun.transition = some transition ∧
      (last.frame catalogue ended).2 = .ok (some transition.new) ∧
      (last.frame catalogue ended).1.Arrives catalogue ended drawing transition.new := by
  have hintact : start.Intact := hstart ▸ (intact_new project font).afterRequests before
  have hbegunIntact : begun.Intact := hbegun ▸ hintact.afterRequest request
  have hlastIntact : last.Intact := hlast ▸ hbegunIntact.afterRequests between
  obtain ⟨transition, jump, drawing, hheads⟩ := hintact.heads_of_begins hmoment hbegins
  rw [hbegun] at hheads
  have hrunning : begun.transition ≠ none := by simp [hheads.running]
  have hsame := hbegunIntact.sameJump_afterRequests hrunning hcrosses
  rw [hlast] at hsame
  obtain ⟨harrives, hshown⟩ := hheads.frame hlastIntact hsame hindex hends
  exact ⟨transition, drawing, hheads.running, hshown, harrives⟩

/-- Behind the transition the background fades out, and a character fades in and moves. -/
def dawn : Project where
  scenes := [
    { id := "night", backgroundId := some "night", commands := [
      .dialogue "1" "" "Sleep" [], ⟨"2", .goto 1 true⟩] },
    { id := "day", backgroundId := some "day", characterId := some "cat", commands := [
      ⟨"3", .hideBackground 700⟩, ⟨"4", .showCharacter 300 (some ⟨4, 4, 100, true⟩)⟩,
      .dialogue "5" "Cat" "Meow" []] }]
  settings := { transitionImage := some "fade" }

/-- A click in the transition, and the numbers of the scenes, which are gone before it ends. -/
def dawnRequests : List Request :=
  [.call (.click 9 9 noneReady (.ofMillis 1100)), .numberScenes true,
    .call (.frame allReady (.ofMillis 1400)), .call .takeEffects, .numberScenes false]

theorem arrives_dawn :
    let start := (Player.new dawn .default).afterRequests
      [.call (.start allReady .zero), .call (.frame allReady .zero)]
    let begun := start.afterRequest (.call (.click 9 9 allReady (.ofMillis 1000)))
    let last := begun.afterRequests dawnRequests
    ∃ transition drawing, begun.transition = some transition ∧
      (last.frame allReady (.ofMillis 2500)).2 = .ok (some transition.new) ∧
      (last.frame allReady (.ofMillis 2500)).1.Arrives allReady (.ofMillis 2500) drawing
        transition.new :=
  arrives_of_crosses rfl rfl (by decide +kernel) rfl (by decide +kernel) rfl (by decide +kernel)
    (by decide +kernel)

end Player
end SceneScript
