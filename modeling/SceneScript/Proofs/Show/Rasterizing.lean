import SceneScript.Proofs.Show.Requests

/-! # Complete pictures

A frame shows what was rasterized from a drawing when all its pictures were there, or a mixture of
two such images. This fails only if a transition begins too early: it takes its two sides from their
drawings whether or not all pictures have come.
-/

namespace SceneScript.Player

/-! ## Images from complete drawings -/

/-- The request begins a transition. -/
def begins (player : Player) (request : Request) : Bool :=
  !player.inTransition && (player.afterRequest request).inTransition

/-- An image that the request rasterizes from a complete drawing: the moment drawn anew, or a side
of the transition that it begins. -/
inductive Rasterizes (player : Player) : Request → Bitmap → Prop where
  | redrawn {catalogue : Catalogue} {now : Duration} {drawing : Drawing}
      (hidle : (player.frame catalogue now).1.transition = none)
      (hdrawing : (player.frame catalogue now).1.here? catalogue now = some drawing) :
      Rasterizes player (.call (.frame catalogue now)) (drawing.render catalogue player.font)
  | left {request : Request} {catalogue : Catalogue} {now : Duration} {drawing : Drawing}
      (hmoment : request.moment? = some (catalogue, now)) (hbegins : player.begins request = true)
      (hblank : player.image = none)
      (hdrawing : (player.afterRequest request).here? catalogue now = some drawing) :
      Rasterizes player request (drawing.render catalogue player.font)
  | reached {request : Request} {catalogue : Catalogue} {now : Duration} {drawing : Drawing}
      (hmoment : request.moment? = some (catalogue, now)) (hbegins : player.begins request = true)
      (hdrawing : (player.afterRequest request).ahead? catalogue now = some drawing) :
      Rasterizes player request (drawing.render catalogue player.font)

/-- One of the requests has rasterized the image from a complete drawing. -/
def Rasterized (player : Player) : List Request → Bitmap → Prop
  | [], _ => False
  | request :: rest, image =>
    player.Rasterizes request image ∨ (player.afterRequest request).Rasterized rest image

/-- A picture of a transition between two of the images. -/
def Composed (seen : Bitmap → Prop) (image : Bitmap) : Prop :=
  ∃ old new mask progress, seen old ∧ seen new ∧ old.composite new mask progress = .ok image

/-- The request begins a transition, and a drawing that it takes a side from is not complete. -/
def hurries (player : Player) (request : Request) : Bool :=
  match request.moment? with
  | some (catalogue, now) =>
    player.begins request &&
      ((player.image.isNone && ((player.afterRequest request).here? catalogue now).isNone) ||
        ((player.afterRequest request).ahead? catalogue now).isNone)
  | none => false

/-- No request begins a transition too early. -/
def patient (player : Player) : List Request → Bool
  | [] => true
  | request :: rest => !player.hurries request && (player.afterRequest request).patient rest

/-! ## What the player shows -/

/-- Only images that have been seen, and pictures of transitions between them, are kept. -/
structure Shows (player : Player) (seen : Bitmap → Prop) : Prop where
  image : ∀ image, player.image = some image →
    seen image ∨ player.transition.isSome = true ∧ Composed seen image
  sides : ∀ transition, player.transition = some transition →
    seen transition.old ∧ seen transition.new

variable {player : Player} {seen more : Bitmap → Prop} {catalogue : Catalogue} {now : Duration}

theorem Composed.mono {image : Bitmap} (h : Composed seen image)
    (hmore : ∀ image, seen image → more image) : Composed more image := by
  obtain ⟨old, new, mask, progress, hold, hnew, hcomposite⟩ := h
  exact ⟨old, new, mask, progress, hmore old hold, hmore new hnew, hcomposite⟩

theorem Shows.mono (h : player.Shows seen) (hmore : ∀ image, seen image → more image) :
    player.Shows more where
  image image himage := (h.image image himage).imp (hmore image)
    (And.imp_right fun hcomposed => hcomposed.mono hmore)
  sides transition hrunning :=
    ⟨hmore _ (h.sides transition hrunning).1, hmore _ (h.sides transition hrunning).2⟩

/-- Without a transition the image itself has been seen. -/
theorem Shows.seen_image (h : player.Shows seen) (hidle : player.transition = none) {image : Bitmap}
    (himage : player.image = some image) : seen image := by
  refine (h.image image himage).resolve_right fun hrunning => ?_
  rw [hidle] at hrunning
  exact Bool.false_ne_true hrunning.1

theorem shows_of_idle (hidle : player.transition = none)
    (himage : ∀ image, player.image = some image → seen image) : player.Shows seen where
  image image hshown := .inl (himage image hshown)
  sides transition hrunning := by
    rw [hidle] at hrunning
    cases hrunning

/-! ## Frames -/

/-- Before its end, a transition shows a mixture of its sides. -/
theorem composed_frame {transition : Transition} (hold : seen transition.old)
    (hnew : seen transition.new) (hgoes : (transition.frame now).finished = false) :
    Composed seen (transition.frame now).image :=
  ⟨transition.old, transition.new, transition.mask, .finite (transition.progress now), hold, hnew,
    composite_frame hgoes⟩

theorem Shows.redraw (h : player.Shows seen) (hidle : player.transition = none)
    (hdrawn : ∀ drawing, player.here? catalogue now = some drawing →
      seen (drawing.render catalogue player.font)) :
    (player.redraw catalogue now).1.Shows seen := by
  rw [redraw_eq]
  cases hhere : player.here? catalogue now with
  | none => exact h
  | some drawing =>
      refine shows_of_idle hidle fun image himage => ?_
      cases himage
      exact hdrawn drawing hhere

theorem Shows.frame (h : player.Shows seen) (hintact : player.Intact)
    (hdrawn : ∀ drawing, (player.frame catalogue now).1.transition = none →
      (player.frame catalogue now).1.here? catalogue now = some drawing →
        seen (drawing.render catalogue player.font)) :
    (player.frame catalogue now).1.Shows seen := by
  have hframed := hintact.framed catalogue now
  generalize player.frame catalogue now = result at hframed hdrawn ⊢
  cases hframed with
  | still hidle =>
      obtain ⟨hhere, htransition⟩ := player.here?_redraw catalogue now
      exact h.redraw hidle fun drawing hdrawing =>
        hdrawn drawing (htransition.trans hidle) (hhere.trans hdrawing)
  | @shown transition hrunning hgoes =>
      obtain ⟨hold, hnew⟩ := h.sides transition hrunning
      refine ⟨fun image himage => ?_, h.sides⟩
      cases himage
      exact .inr ⟨by simp [hrunning], composed_frame hold hnew hgoes⟩
  | @ended transition jump hrunning hends hpending =>
      obtain ⟨hhere, htransition⟩ :=
        (player.committed transition jump now).here?_redraw catalogue now
      have hcommitted : (player.committed transition jump now).Shows seen := by
        refine shows_of_idle rfl fun image himage => ?_
        cases himage
        exact (h.sides transition hrunning).2
      exact hcommitted.redraw rfl fun drawing hdrawing =>
        hdrawn drawing htransition (hhere.trans hdrawing)

/-- There is an image, as running the frame finds. -/
theorem exists_image_of_frame (player : Player) (catalogue : Catalogue) (now : Duration)
    (h : (player.frame catalogue now).2.toOption.join.isSome = true) :
    ∃ image, (player.frame catalogue now).2 = .ok (some image) := by
  cases hresult : (player.frame catalogue now).2 with
  | error fault =>
      rw [hresult] at h
      cases h
  | ok shown =>
      rw [hresult] at h
      obtain ⟨image, rfl⟩ := Option.isSome_iff_exists.mp h
      exact ⟨image, rfl⟩

theorem redraw_image {shown : Option Bitmap} (h : (player.redraw catalogue now).2 = .ok shown) :
    shown = (player.redraw catalogue now).1.image := by
  unfold redraw at h ⊢
  split at h
  · cases h
  · exact (Except.ok.inj h).symm

/-- A frame returns the image that it leaves. -/
theorem Intact.frame_image (hintact : player.Intact) {shown : Option Bitmap}
    (h : (player.frame catalogue now).2 = .ok shown) :
    shown = (player.frame catalogue now).1.image := by
  have hframed := hintact.framed catalogue now
  generalize player.frame catalogue now = result at hframed h ⊢
  cases hframed with
  | still _ | ended _ _ _ => exact redraw_image h
  | shown _ _ => exact (Except.ok.inj h).symm

/-! ## Inputs -/

theorem sides_of_begin? {old new : Bitmap} {mask : Option Bitmap} {span : Duration}
    {running : Option Transition} {transition : Transition}
    (h : Transition.begin? running old new mask span now = .ok transition) :
    transition.old = old ∧ transition.new = new := by
  unfold Transition.begin? at h
  split at h
  · cases h
  · split at h
    · cases h
      exact ⟨rfl, rfl⟩
    · cases h

/-- A transition begins between the image that is seen, or else the drawing of the moment, and the
drawing of the moment behind the jump. -/
theorem sides_of_beginTransition {next : Player}
    (h : player.beginTransition catalogue now = .ok next) :
    ∃ transition jump drawing,
      next = { player with transition := some transition, pending := some jump } ∧
      player.oldImage catalogue now = .ok transition.old ∧
      player.drawingOf jump.interpreter
        (player.clock.applyAll player.project now jump.effects) catalogue now = .ok drawing ∧
      transition.new = drawing.render catalogue player.font := by
  unfold beginTransition at h
  obtain ⟨old, hold, hrest⟩ := bind_eq_ok.mp h
  cases htick : player.interpreter.tick player.project (some .transitionFinished) with
  | mk ahead result =>
  simp only [htick] at hrest
  obtain ⟨response, -, hrest⟩ := bind_eq_ok.mp hrest
  obtain ⟨drawing, hdrawing, hrest⟩ := bind_eq_ok.mp hrest
  obtain ⟨transition, hbegin, hnext⟩ := bind_eq_ok.mp hrest
  obtain ⟨hleft, hright⟩ := sides_of_begin? (mapError_eq_ok.mp hbegin)
  exact ⟨transition, ⟨ahead, response.effects⟩, drawing, (pure_eq_ok.mp hnext).symm,
    hleft ▸ hold, hdrawing, hright⟩

/-- A transition that begins has sides that have been seen if their drawings are complete. -/
theorem Shows.beginTransition {next : Player} (h : player.Shows seen)
    (hidle : player.transition = none)
    (hleft : player.image = none → ∃ drawing, next.here? catalogue now = some drawing ∧
      seen (drawing.render catalogue player.font))
    (hreached : ∃ drawing, next.ahead? catalogue now = some drawing ∧
      seen (drawing.render catalogue player.font))
    (hbegin : player.beginTransition catalogue now = .ok next) : next.Shows seen := by
  obtain ⟨transition, jump, drawing, rfl, hold, hdrawing, hnew⟩ := sides_of_beginTransition hbegin
  refine ⟨fun image himage => .inl (h.seen_image hidle himage), fun running hrunning => ?_⟩
  cases hrunning
  constructor
  · unfold oldImage at hold
    cases himage : player.image with
    | some image =>
        rw [himage] at hold
        cases hold
        exact h.seen_image hidle himage
    | none =>
        obtain ⟨found, hfound, hseen⟩ := hleft himage
        have hhere : player.drawingOf player.interpreter player.clock catalogue now = .ok found :=
          (stagedDrawing?_eq_some.mp hfound).1
        simp only [himage, hhere] at hold
        exact Except.ok.inj hold ▸ hseen
  · obtain ⟨found, hfound, hseen⟩ := hreached
    have hahead : player.drawingOf jump.interpreter
        (player.clock.applyAll player.project now jump.effects) catalogue now = .ok found :=
      (stagedDrawing?_eq_some.mp hfound).1
    cases hdrawing.symm.trans hahead
    rw [hnew]
    exact hseen

theorem exists_beginTransition_of_feed {input : Option Input} (hidle : player.transition = none)
    (hbegins : (player.feed input catalogue now).1.transition ≠ none) :
    ∃ next effects, (player.took next effects now).beginTransition catalogue now =
      .ok (player.feed input catalogue now).1 := by
  unfold feed at hbegins ⊢
  cases htick : player.interpreter.tick player.project input with
  | mk next result =>
      rw [htick] at hbegins
      cases result with
      | error fault => exact absurd hidle hbegins
      | ok response =>
          simp only at hbegins ⊢
          cases hwaiting : next.state.waiting with
          | transition target =>
              cases hbegin :
                  (player.took next response.effects now).beginTransition catalogue now with
              | ok begun =>
                  rw [follow_began hwaiting hbegin]
                  exact ⟨next, response.effects, hbegin⟩
              | error fault =>
                  rw [follow_stranded hwaiting hbegin] at hbegins
                  exact absurd hidle hbegins
          | _ =>
              rw [follow_settled (by simp [hwaiting])] at hbegins
              exact absurd hidle hbegins

/-- An input keeps what has been seen; the sides of a transition that begins are to be complete. -/
theorem Shows.feed {input : Option Input} (h : player.Shows seen) (hintact : player.Intact)
    (hidle : player.transition = none)
    (hbegun : (player.feed input catalogue now).1.transition ≠ none →
      (player.image = none → ∃ drawing,
        (player.feed input catalogue now).1.here? catalogue now = some drawing ∧
          seen (drawing.render catalogue player.font)) ∧
      ∃ drawing, (player.feed input catalogue now).1.ahead? catalogue now = some drawing ∧
        seen (drawing.render catalogue player.font)) :
    (player.feed input catalogue now).1.Shows seen := by
  by_cases hstill : (player.feed input catalogue now).1.transition = none
  · refine shows_of_idle hstill fun image himage => h.seen_image hidle ?_
    exact (hintact.sameView_feed hidle input catalogue now).image ▸ himage
  · obtain ⟨next, effects, hbegin⟩ := exists_beginTransition_of_feed hidle hstill
    obtain ⟨hleft, hreached⟩ := hbegun hstill
    have htook : (player.took next effects now).Shows seen := ⟨h.image, h.sides⟩
    exact htook.beginTransition hidle hleft hreached hbegin

/-! ## Requests -/

/-- A request that begins a transition, and does not begin it too early, has complete drawings to
take the sides from. -/
theorem exists_drawings_of_begins {request : Request}
    (hmoment : request.moment? = some (catalogue, now)) (hbegins : player.begins request = true)
    (hcalm : player.hurries request = false) :
    (player.image = none →
      ∃ drawing, (player.afterRequest request).here? catalogue now = some drawing) ∧
    ∃ drawing, (player.afterRequest request).ahead? catalogue now = some drawing := by
  unfold hurries at hcalm
  simp only [hmoment, hbegins, Bool.true_and, Bool.or_eq_false_iff, Bool.and_eq_false_iff,
    Option.isNone_eq_false_iff, Option.isSome_iff_exists] at hcalm
  obtain ⟨hleft, hreached⟩ := hcalm
  refine ⟨fun hblank => hleft.resolve_left ?_, hreached⟩
  rintro ⟨image, himage⟩
  cases hblank.symm.trans himage

theorem Shows.afterRequest (h : player.Shows seen) (hintact : player.Intact) (request : Request)
    (hcalm : player.hurries request = false) :
    (player.afterRequest request).Shows
      fun image => seen image ∨ player.Rasterizes request image := by
  have hmore : player.Shows fun image => seen image ∨ player.Rasterizes request image :=
    h.mono fun image => .inl
  have hmoves := hintact.moves request
  generalize hnext : player.afterRequest request = next at hmoves ⊢
  cases hmoves with
  | kept hview _ htransition _ =>
      refine ⟨?_, ?_⟩
      · rw [hview.image, htransition]
        exact hmore.image
      · rw [htransition]
        exact hmore.sides
  | @framed catalogue now =>
      refine hmore.frame hintact fun drawing hidle hdrawing => ?_
      exact .inr (.redrawn hidle hdrawing)
  | @fed _ input catalogue now hmoment hidle =>
      have hshows : { player with started := true }.Shows
          fun image => seen image ∨ player.Rasterizes request image := ⟨hmore.image, hmore.sides⟩
      refine hshows.feed hintact.begun hidle fun hstarts => ?_
      rw [← hnext] at hstarts ⊢
      have hbegins : player.begins request = true := by
        simpa [begins, inTransition, hidle, Option.isSome_iff_ne_none] using hstarts
      obtain ⟨hleft, drawing, hdrawing⟩ := exists_drawings_of_begins hmoment hbegins hcalm
      refine ⟨fun hblank => ?_, drawing, hdrawing, .inr (.reached hmoment hbegins hdrawing)⟩
      obtain ⟨old, hold⟩ := hleft hblank
      exact ⟨old, hold, .inr (.left hmoment hbegins hblank hold)⟩

theorem Shows.afterRequests (h : player.Shows seen) (hintact : player.Intact)
    {requests : List Request} (hpatient : player.patient requests = true) :
    (player.afterRequests requests).Shows
      fun image => seen image ∨ player.Rasterized requests image := by
  induction requests generalizing player seen with
  | nil => exact h.mono fun image => .inl
  | cons request rest ih =>
      simp only [patient, Bool.and_eq_true, Bool.not_eq_true'] at hpatient
      obtain ⟨hcalm, hrest⟩ := hpatient
      exact (ih (h.afterRequest hintact request hcalm) (hintact.afterRequest request) hrest).mono
        fun image => or_assoc.mp

/-! ## Frames of a run -/

theorem rasterized_concat {requests : List Request} {request : Request} {image : Bitmap} :
    player.Rasterized (requests ++ [request]) image ↔
      player.Rasterized requests image ∨
        (player.afterRequests requests).Rasterizes request image := by
  induction requests generalizing player with
  | nil => simp [Rasterized, afterRequests]
  | cons first rest ih => exact (or_congr_right ih).trans or_assoc.symm

/-- A frame may end a transition, and never begins one. -/
theorem Intact.not_begins_frame (hintact : player.Intact) (catalogue : Catalogue)
    (now : Duration) : player.begins (.call (.frame catalogue now)) = false := by
  change (!player.inTransition && (player.frame catalogue now).1.inTransition) = false
  have hframed := hintact.framed catalogue now
  generalize player.frame catalogue now = result at hframed ⊢
  cases hframed with
  | still hidle => simp [inTransition, (player.here?_redraw catalogue now).2, hidle]
  | shown hrunning _ | ended hrunning _ _ => simp [inTransition, hrunning]

/-- As long as no request begins a transition before the drawings of its sides are complete, a frame
returns what has been rasterized from a complete drawing, or a picture of a transition between two
such images. -/
theorem rasterized_of_frame {project : Project} {font : Font} {requests : List Request}
    {catalogue : Catalogue} {now : Duration} {image : Bitmap}
    (hpatient : (Player.new project font).patient requests = true)
    (hframe : (((Player.new project font).afterRequests requests).frame catalogue now).2 =
      .ok (some image)) :
    (Player.new project font).Rasterized (requests ++ [.call (.frame catalogue now)]) image ∨
      Composed ((Player.new project font).Rasterized (requests ++ [.call (.frame catalogue now)]))
        image := by
  have hnew := intact_new project font
  have hblank : (Player.new project font).Shows fun _ => False := shows_of_idle rfl nofun
  have hintact := hnew.afterRequests requests
  have hshows := (hblank.afterRequests hnew hpatient).afterRequest hintact
    (.call (.frame catalogue now))
    (by simp [hurries, Request.moment?, hintact.not_begins_frame catalogue now])
  have hseen : Shows _
      ((Player.new project font).Rasterized (requests ++ [.call (.frame catalogue now)])) :=
    hshows.mono fun _ hseen =>
      rasterized_concat.mpr (hseen.imp_left fun hseen => hseen.resolve_left id)
  exact (hseen.image image (hintact.frame_image hframe).symm).imp_right And.right

/-- Two scenes, with a picture behind each of them. -/
def curtain : Project where
  scenes := [
    { id := "hall", backgroundId := some "hall", commands := [
      .dialogue "1" "" "Wait" [], ⟨"2", .goto 1 true⟩] },
    { id := "yard", backgroundId := some "yard", commands := [.dialogue "3" "" "Come" []] }]
  settings := { transitionImage := some "fade" }

def noneReady : Catalogue := fun _ => .pending

def allReady : Catalogue := fun _ => .ready (.filled 16 16 .white)

/-- The pictures come after the first frame, and the click asks for the other scene. -/
def curtainRequests : List Request :=
  [.call (.start noneReady .zero), .call (.frame noneReady .zero),
    .call (.frame allReady .zero), .call (.click 9 9 allReady .zero)]

/-- In the middle of its transition, what is seen of the two scenes is complete. -/
theorem rasterized_of_frame_curtain :
    ∃ image,
      (((Player.new curtain .default).afterRequests curtainRequests).frame allReady
        (.ofMillis 400)).2 = .ok (some image) ∧
      ((Player.new curtain .default).Rasterized
          (curtainRequests ++ [.call (.frame allReady (.ofMillis 400))]) image ∨
        Composed ((Player.new curtain .default).Rasterized
          (curtainRequests ++ [.call (.frame allReady (.ofMillis 400))])) image) := by
  obtain ⟨image, himage⟩ := exists_image_of_frame
    ((Player.new curtain .default).afterRequests curtainRequests) allReady (.ofMillis 400)
    (by decide +kernel)
  exact ⟨image, himage, rasterized_of_frame (by decide +kernel) himage⟩

/-- A transition to a scene whose picture has not come, before anything has been seen. -/
def glimpse : Project where
  scenes := [
    { id := "hall", backgroundId := some "hall", commands := [⟨"1", .goto 1 true⟩] },
    { id := "yard", backgroundId := some "yard", commands := [.dialogue "2" "" "Come" []] }]

/-- The player while that transition runs. -/
def glimpsed : Player := (Player.new glimpse .default).afterRequest (.call (.start noneReady .zero))

theorem not_rasterized_glimpse_any (image : Bitmap) :
    ¬ (Player.new glimpse .default).Rasterized
      [.call (.start noneReady .zero), .call (.frame noneReady .zero)] image := by
  rintro (hstart | hframe | hnever)
  · have hhere : glimpsed.here? noneReady .zero = none :=
      Option.isNone_iff_eq_none.mp (by decide +kernel)
    have hahead : glimpsed.ahead? noneReady .zero = none :=
      Option.isNone_iff_eq_none.mp (by decide +kernel)
    cases hstart with
    | left hmoment _ _ hdrawing =>
        cases hmoment
        cases hhere.symm.trans hdrawing
    | reached hmoment _ hdrawing =>
        cases hmoment
        cases hahead.symm.trans hdrawing
  · have hhere : (glimpsed.frame noneReady .zero).1.here? noneReady .zero = none :=
      Option.isNone_iff_eq_none.mp (by decide +kernel)
    have hgoes : glimpsed.begins (.call (.frame noneReady .zero)) = false :=
      ((intact_new glimpse .default).afterRequest _).not_begins_frame _ _
    cases hframe with
    | redrawn _ hdrawing => cases hhere.symm.trans hdrawing
    | left _ hbegins _ _ | reached _ hbegins _ => cases hgoes.symm.trans hbegins
  · exact hnever

/-- The frame that ends the transition shows a picture, though no drawing has been complete. -/
theorem not_rasterized_glimpse :
    ∃ image,
      (((Player.new glimpse .default).afterRequests [.call (.start noneReady .zero)]).frame
        noneReady .zero).2 = .ok (some image) ∧
      ¬ ((Player.new glimpse .default).Rasterized
            [.call (.start noneReady .zero), .call (.frame noneReady .zero)] image ∨
          Composed ((Player.new glimpse .default).Rasterized
            [.call (.start noneReady .zero), .call (.frame noneReady .zero)]) image) := by
  obtain ⟨image, himage⟩ := exists_image_of_frame glimpsed noneReady .zero (by decide +kernel)
  refine ⟨image, himage, ?_⟩
  rintro (hseen | ⟨old, new, mask, progress, hold, -⟩)
  · exact not_rasterized_glimpse_any image hseen
  · exact not_rasterized_glimpse_any old hold

end SceneScript.Player
