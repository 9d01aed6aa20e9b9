import SceneScript.Proofs.Picture.Size
import SceneScript.Proofs.Run.Behind
import SceneScript.Proofs.Run.Standing
import SceneScript.Show.Player

/-! # What a player keeps in order

In every state of a player, whatever has failed before, a jump is stored exactly while a transition
runs, the stored jump is what the interpreter will do when the transition ends, and all pictures
have the size of the canvas.
-/

namespace SceneScript

/-! ## Calls -/

/-- The calls that a host makes. Each may see other pictures and another time. -/
inductive Player.Call where
  | start (catalogue : Catalogue) (now : Duration)
  | click (x y : Int32) (catalogue : Catalogue) (now : Duration)
  | frame (catalogue : Catalogue) (now : Duration)
  | takeEffects

/-- What a call answers. -/
inductive Player.Reply where
  | begun
  | clicked (outcome : ClickOutcome)
  | drawn (image : Option Bitmap)
  | taken (effects : List Effect)

namespace Player

def call (player : Player) : Call → Player × Except ShowFault Reply
  | .start catalogue now =>
    let (next, result) := player.start catalogue now
    (next, result.map fun _ => .begun)
  | .click x y catalogue now =>
    let (next, result) := player.click x y catalogue now
    (next, result.map .clicked)
  | .frame catalogue now =>
    let (next, result) := player.frame catalogue now
    (next, result.map .drawn)
  | .takeEffects =>
    let (next, effects) := player.takeEffects
    (next, .ok (.taken effects))

/-- The player after some calls, whatever they have answered. -/
def afterCalls (player : Player) (calls : List Call) : Player :=
  calls.foldl (fun player call => (player.call call).1) player

/-! ## Bookkeeping -/

structure Intact (player : Player) : Prop where
  stands : player.interpreter.Stands player.project
  unstarted : player.started = false →
    player.interpreter = .new player.project ∧ player.transition = none
  paired : player.transition.isSome = player.pending.isSome
  pending : ∀ jump, player.pending = some jump → ∃ target response,
    player.waiting = .transition target ∧
      player.interpreter.tick player.project (some .transitionFinished) =
        (jump.interpreter, .ok response) ∧ response.effects = jump.effects
  image : ∀ image, player.image = some image → image.FitsCanvas
  sides : ∀ transition, player.transition = some transition →
    transition.old.FitsCanvas ∧ transition.new.FitsCanvas

theorem intact_new (project : Project) (font : Font) : (Player.new project font).Intact where
  stands := Interpreter.stands_new
  unstarted _ := ⟨rfl, rfl⟩
  paired := rfl
  pending _ hjump := by cases hjump
  image _ himage := by cases himage
  sides _ htransition := by cases htransition

/-! ## Drawings -/

variable {player : Player} {interpreter : Interpreter} {clock : StageClock}
  {catalogue : Catalogue} {now : Duration} {drawing : Drawing}

theorem fitsCanvas_of_drawingOf (h : player.drawingOf interpreter clock catalogue now = .ok drawing)
    (catalogue' : Catalogue) (font : Font) : (drawing.render catalogue' font).FitsCanvas := by
  unfold drawingOf at h
  obtain ⟨shot, -, hlayout⟩ := bind_eq_ok.mp h
  exact Shot.fitsCanvas_render (mapError_eq_ok.mp hlayout) catalogue' font

/-- A moment is made of the command that waits and the answer whether the story goes on. -/
theorem ofState_eq_ok {project : Project} {state : State} {view : View} {shot : Shot} :
    Shot.ofState project state view = .ok shot ↔ ∃ active follows,
      state.activeCommand project = .ok active ∧
        state.hasFollowingContent project = .ok follows ∧
        shot = { project, view, active, scene := state.position.scene, stage := state.stage,
                 hasFollowingContent := follows } := by
  unfold Shot.ofState
  simp only [bind_eq_ok, pure_eq_ok]
  constructor
  · rintro ⟨active, hactive, follows, hfollows, rfl⟩
    exact ⟨active, follows, hactive, hfollows, rfl⟩
  · rintro ⟨active, follows, hactive, hfollows, rfl⟩
    exact ⟨active, hactive, follows, hfollows, rfl⟩

/-- A moment in the script can always be drawn. -/
theorem exists_drawingOf (h : interpreter.state.Stands player.project) (clock : StageClock)
    (catalogue : Catalogue) (now : Duration) :
    ∃ drawing, player.drawingOf interpreter clock catalogue now = .ok drawing := by
  have hactive : ∃ active, interpreter.state.activeCommand player.project = .ok active := by
    unfold State.activeCommand
    split
    · next hwaits =>
        have hwaiting : interpreter.state.waiting ≠ .nothing := by
          rw [Bool.and_eq_true] at hwaits
          simpa [State.isWaiting] using hwaits.1
        obtain ⟨command, hcommand, -⟩ := h.waits hwaiting
        exact ⟨some command, by rw [hcommand]; rfl⟩
    · exact ⟨none, rfl⟩
  obtain ⟨active, hactive⟩ := hactive
  obtain ⟨follows, hfollows⟩ := State.exists_hasFollowingContent player.project h.hasNext
  obtain ⟨commands, hlist⟩ := h.found
  obtain ⟨scene, hscene⟩ := Position.exists_scene_of_resolve hlist
  have hfound : player.project.sceneAt interpreter.state.position.scene = .ok scene :=
    Project.sceneAt_eq_ok.mpr hscene
  have hshot : Shot.ofState player.project interpreter.state
      (clock.view player.showSceneIndex now) = .ok _ :=
    ofState_eq_ok.mpr ⟨active, follows, hactive, hfollows, rfl⟩
  unfold drawingOf Shot.layout
  simp only [bind, Except.bind, pure, Except.pure, mapError_ok, hshot, hfound]
  exact ⟨_, rfl⟩

/-- Drawing anew changes nothing but what has been drawn. -/
theorem redraw_kept (player : Player) (catalogue : Catalogue) (now : Duration) :
    ∃ image drawing, (player.redraw catalogue now).1 = { player with image, drawing } ∧
      ∀ picture, image = some picture → player.image = some picture ∨ picture.FitsCanvas := by
  unfold redraw
  split
  · exact ⟨player.image, player.drawing, rfl, fun _ => .inl⟩
  · next drawing hdrawing =>
      by_cases hready : (drawing.staging catalogue).isReady = true
      · simp only [if_pos hready]
        refine ⟨_, _, rfl, fun picture hpicture => .inr ?_⟩
        cases hpicture
        exact fitsCanvas_of_drawingOf hdrawing catalogue player.font
      · simp only [if_neg hready]
        exact ⟨player.image, player.drawing, rfl, fun _ => .inl⟩

/-! ## Beginning a transition -/

/-- A transition between pictures of the canvas begins, unless one runs. -/
theorem exists_begin? {old new : Bitmap} (hold : old.FitsCanvas) (hnew : new.FitsCanvas)
    (mask : Option Bitmap) (span now : Duration) :
    ∃ transition, Transition.begin? none old new mask span now = .ok transition ∧
      transition.old = old ∧ transition.new = new ∧ transition.mask = mask := by
  unfold Transition.begin?
  rw [if_neg (by simp), dif_pos (hold.sameSize hnew)]
  exact ⟨_, rfl, rfl, rfl, rfl⟩

theorem exists_oldImage (h : player.interpreter.state.Stands player.project)
    (himage : ∀ image, player.image = some image → image.FitsCanvas) (catalogue : Catalogue)
    (now : Duration) :
    ∃ image, player.oldImage catalogue now = .ok image ∧ image.FitsCanvas := by
  unfold oldImage
  cases himages : player.image with
  | some image => exact ⟨image, rfl, himage image himages⟩
  | none =>
      obtain ⟨drawing, hdrawing⟩ := exists_drawingOf h player.clock catalogue now
      refine ⟨drawing.render catalogue player.font, ?_, fitsCanvas_of_drawingOf hdrawing _ _⟩
      simp only [hdrawing]
      rfl

/-- A transition runs between pictures of the canvas. -/
def Spans (player : Player) (catalogue : Catalogue) (transition : Transition) : Prop :=
  transition.old.FitsCanvas ∧ transition.new.FitsCanvas ∧
    transition.mask = player.mask catalogue

/-- Nothing but the script can stop a transition from beginning. -/
theorem beginTransition_eq_ok (player : Player) (catalogue : Catalogue) (now : Duration)
    {ahead : Interpreter} {response : Response}
    (hstands : player.interpreter.state.Stands player.project)
    (himage : ∀ image, player.image = some image → image.FitsCanvas)
    (hidle : player.transition = none)
    (hahead : ahead.state.Stands player.project)
    (htick : player.interpreter.tick player.project (some .transitionFinished) =
      (ahead, .ok response)) :
    ∃ transition, player.Spans catalogue transition ∧
      player.beginTransition catalogue now = .ok { player with
        transition := some transition
        pending := some ⟨ahead, response.effects⟩ } := by
  obtain ⟨old, hold, hcanvas⟩ := exists_oldImage hstands himage catalogue now
  obtain ⟨drawing, hdrawing⟩ := exists_drawingOf hahead
    (player.clock.applyAll player.project now response.effects) catalogue now
  have hnew := fitsCanvas_of_drawingOf hdrawing catalogue player.font
  obtain ⟨transition, hbegin, rfl, hside, hmask⟩ := exists_begin? hcanvas hnew
    (player.mask catalogue)
    (.ofMillis player.project.settings.transitionDurationMs.toNat) now
  refine ⟨transition, ⟨hcanvas, hside ▸ hnew, hmask⟩, ?_⟩
  unfold beginTransition
  simp only [hold, htick, hdrawing, hidle, hbegin, bind, Except.bind, mapError_ok, pure,
    Except.pure]

theorem beginTransition_eq_error (player : Player) (catalogue : Catalogue) (now : Duration)
    {ahead : Interpreter} {fault : Fault}
    (hstands : player.interpreter.state.Stands player.project)
    (himage : ∀ image, player.image = some image → image.FitsCanvas)
    (htick : player.interpreter.tick player.project (some .transitionFinished) =
      (ahead, .error fault)) :
    player.beginTransition catalogue now = .error (.script fault) := by
  obtain ⟨old, hold, -⟩ := exists_oldImage hstands himage catalogue now
  unfold beginTransition
  simp only [hold, htick, bind, Except.bind, mapError_error]

/-! ## Inputs -/

/-- The player with the outcome of a tick. -/
def took (player : Player) (interpreter : Interpreter) (effects : List Effect) (now : Duration) :
    Player :=
  { player with
    interpreter
    clock := player.clock.applyAll player.project now effects
    outbox := player.outbox ++ effects }

/-- What an input to a player without a transition can bring about. -/
inductive Fed (player : Player) (input : Option Input) (catalogue : Catalogue) (now : Duration) :
    Player × Except ShowFault Unit → Prop where
  | failed {next : Interpreter} {fault : Fault}
      (htick : player.interpreter.tick player.project input = (next, .error fault)) :
      Fed player input catalogue now ({ player with interpreter := next }, .error (.script fault))
  | settled {next : Interpreter} {response : Response}
      (htick : player.interpreter.tick player.project input = (next, .ok response))
      (hwaiting : ∀ target, next.state.waiting ≠ .transition target) :
      Fed player input catalogue now (player.took next response.effects now, .ok ())
  | began {next ahead : Interpreter} {response jump : Response} {target : Index}
      {transition : Transition}
      (htick : player.interpreter.tick player.project input = (next, .ok response))
      (hwaiting : next.state.waiting = .transition target)
      (hjump : next.tick player.project (some .transitionFinished) = (ahead, .ok jump))
      (hspans : player.Spans catalogue transition) :
      Fed player input catalogue now
        ({ player.took next response.effects now with
            transition := some transition
            pending := some ⟨ahead, jump.effects⟩ }, .ok ())
  | stranded {next ahead : Interpreter} {response : Response} {target : Index} {fault : Fault}
      (htick : player.interpreter.tick player.project input = (next, .ok response))
      (hwaiting : next.state.waiting = .transition target)
      (hjump : next.tick player.project (some .transitionFinished) = (ahead, .error fault)) :
      Fed player input catalogue now
        (player.took next response.effects now, .error (.script fault))

section

variable {next : Interpreter} {effects : List Effect} {catalogue : Catalogue} {now : Duration}

theorem follow_settled (hwaiting : ∀ target, next.state.waiting ≠ .transition target) :
    { player with interpreter := next }.follow effects catalogue now =
      (player.took next effects now, .ok ()) := by
  unfold follow
  dsimp only
  split
  · next target htarget => exact absurd htarget (hwaiting target)
  · rfl

theorem follow_began {target : Index} {begun : Player}
    (hwaiting : next.state.waiting = .transition target)
    (hbegin : (player.took next effects now).beginTransition catalogue now = .ok begun) :
    { player with interpreter := next }.follow effects catalogue now = (begun, .ok ()) := by
  unfold follow
  dsimp only
  split
  · split
    · next begun' hbegin' =>
        cases hbegin.symm.trans hbegin'
        rfl
    · next fault hfault => cases hbegin.symm.trans hfault
  · next hother => exact absurd hwaiting (hother target)

theorem follow_stranded {target : Index} {fault : ShowFault}
    (hwaiting : next.state.waiting = .transition target)
    (hfault : (player.took next effects now).beginTransition catalogue now = .error fault) :
    { player with interpreter := next }.follow effects catalogue now =
      (player.took next effects now, .error fault) := by
  unfold follow
  dsimp only
  split
  · split
    · next begun hbegin => cases hfault.symm.trans hbegin
    · next fault' hfault' =>
        cases hfault.symm.trans hfault'
        rfl
  · next hother => exact absurd hwaiting (hother target)

end

theorem Intact.fed (h : player.Intact) (hidle : player.transition = none) (input : Option Input)
    (catalogue : Catalogue) (now : Duration) :
    Fed player input catalogue now (player.feed input catalogue now) := by
  unfold feed
  cases htick : player.interpreter.tick player.project input with
  | mk next result =>
      have hnext := h.stands.of_tick htick
      cases result with
      | error fault => exact .failed htick
      | ok response =>
          simp only
          cases hwaiting : next.state.waiting with
          | transition target =>
              have hstands := hnext.of_waiting (by simp [hwaiting])
              cases hjump : next.tick player.project (some .transitionFinished) with
              | mk ahead outcome =>
                  cases outcome with
                  | ok jump =>
                      have hahead := hnext.of_tick hjump
                      obtain ⟨transition, hspans, hbegin⟩ := beginTransition_eq_ok
                        (player.took next response.effects now) catalogue now hstands h.image hidle
                        (hahead.of_stands hstands) hjump
                      rw [follow_began hwaiting hbegin]
                      exact .began htick hwaiting hjump hspans
                  | error fault =>
                      have hfault := beginTransition_eq_error
                        (player.took next response.effects now) catalogue now hstands h.image hjump
                      rw [follow_stranded hwaiting hfault]
                      exact .stranded htick hwaiting hjump
          | _ =>
              have hsettled : ∀ target, next.state.waiting ≠ .transition target := by
                simp [hwaiting]
              rw [follow_settled hsettled]
              exact .settled htick hsettled

theorem Intact.idle_pending (h : player.Intact) (hidle : player.transition = none) :
    player.pending = none := by
  have hpaired := h.paired
  rw [hidle] at hpaired
  exact Option.isSome_eq_false_iff.mp hpaired.symm |> Option.isNone_iff_eq_none.mp

/-- Another interpreter in the place of the one of a player without a transition. -/
theorem Intact.idle (h : player.Intact) (hidle : player.transition = none)
    (hstarted : player.started = true) {next : Player}
    (hproject : next.project = player.project) (hstands : next.interpreter.Stands player.project)
    (hbegun : next.started = player.started) (himage : next.image = player.image)
    (htransition : next.transition = player.transition)
    (hpending : next.pending = player.pending) : next.Intact := by
  have hnone := h.idle_pending hidle
  constructor
  · rw [hproject]
    exact hstands
  · intro hunstarted
    rw [hbegun, hstarted] at hunstarted
    cases hunstarted
  · rw [htransition, hpending]
    exact h.paired
  · rw [hpending, hnone]
    exact nofun
  · rw [himage]
    exact h.image
  · rw [htransition]
    exact h.sides

theorem Intact.feed (h : player.Intact) (hidle : player.transition = none)
    (hstarted : player.started = true) (input : Option Input) (catalogue : Catalogue)
    (now : Duration) : (player.feed input catalogue now).1.Intact := by
  have hfed := h.fed hidle input catalogue now
  generalize player.feed input catalogue now = result at hfed ⊢
  cases hfed with
  | failed htick => exact h.idle hidle hstarted rfl (h.stands.of_tick htick) rfl rfl rfl rfl
  | settled htick _ => exact h.idle hidle hstarted rfl (h.stands.of_tick htick) rfl rfl rfl rfl
  | stranded htick _ _ => exact h.idle hidle hstarted rfl (h.stands.of_tick htick) rfl rfl rfl rfl
  | @began next ahead response jump target transition htick hwaiting hjump hspans =>
      constructor
      · exact h.stands.of_tick htick
      · intro hunstarted
        rw [show player.started = false from hunstarted] at hstarted
        cases hstarted
      · rfl
      · intro stored hstored
        cases hstored
        exact ⟨target, jump, hwaiting, hjump, rfl⟩
      · exact h.image
      · intro running hrunning
        cases hrunning
        exact ⟨hspans.1, hspans.2.1⟩

/-! ## Pictures -/

/-- The player at the end of a transition. -/
def committed (player : Player) (transition : Transition) (jump : PendingJump) (now : Duration) :
    Player :=
  { player.took jump.interpreter jump.effects now with
    image := some transition.new
    transition := none
    pending := none }

/-- What a frame can bring about. -/
inductive Framed (player : Player) (catalogue : Catalogue) (now : Duration) :
    Player × Except ShowFault (Option Bitmap) → Prop where
  | still (hidle : player.transition = none) :
      Framed player catalogue now (player.redraw catalogue now)
  | shown {transition : Transition} (hrunning : player.transition = some transition)
      (hgoes : (transition.frame now).finished = false) :
      Framed player catalogue now ({ player with image := some (transition.frame now).image },
        .ok (some (transition.frame now).image))
  | ended {transition : Transition} {jump : PendingJump}
      (hrunning : player.transition = some transition)
      (hends : (transition.frame now).finished = true) (hpending : player.pending = some jump) :
      Framed player catalogue now ((player.committed transition jump now).redraw catalogue now)

/-- A transition shows its new side at the end, and a picture of the same size before. -/
theorem frame_cases (transition : Transition) (now : Duration) :
    ((transition.frame now).finished = true ∧ (transition.frame now).image = transition.new) ∨
      ((transition.frame now).finished = false ∧
        (transition.frame now).image.SameSize transition.new) := by
  unfold Transition.frame
  by_cases hends : 1 ≤ transition.progress now
  · simp only [if_pos hends]
    exact .inl ⟨trivial, trivial⟩
  · simp only [if_neg hends]
    exact .inr ⟨trivial, Bitmap.sameSize_wipe transition.sameSize _ _⟩

/-- Before its end, a transition shows the composite of its sides, which their sizes allow. -/
theorem composite_frame {transition : Transition} (hgoes : (transition.frame now).finished = false) :
    transition.old.composite transition.new transition.mask
      (.finite (transition.progress now)) = .ok (transition.frame now).image := by
  rw [Bitmap.composite, if_pos transition.sameSize]
  by_cases hends : 1 ≤ transition.progress now
  · simp [Transition.frame, hends] at hgoes
  · simp [Transition.frame, hends]

theorem Intact.framed (h : player.Intact) (catalogue : Catalogue) (now : Duration) :
    Framed player catalogue now (player.frame catalogue now) := by
  unfold frame
  cases hrunning : player.transition with
  | none => exact .still hrunning
  | some transition =>
      simp only [Transition.sample]
      rcases frame_cases transition now with ⟨hends, hlast⟩ | ⟨hgoes, -⟩
      · have hstored : player.pending.isSome = true := by
          rw [← h.paired, hrunning]
          rfl
        obtain ⟨jump, hjump⟩ := Option.isSome_iff_exists.mp hstored
        have hcommitted : Framed player catalogue now
            ((player.committed transition jump now).redraw catalogue now) :=
          .ended hrunning hends hjump
        simp only [hends, if_true, commit, hjump, hlast]
        exact hcommitted
      · have hshown : Framed player catalogue now
            ({ player with image := some (transition.frame now).image },
              .ok (some (transition.frame now).image)) := .shown hrunning hgoes
        simp only [hgoes, Bool.false_eq_true, if_false, ← hrunning]
        exact hshown

theorem Intact.redraw (h : player.Intact) (catalogue : Catalogue) (now : Duration) :
    (player.redraw catalogue now).1.Intact := by
  obtain ⟨image, drawing, heq, himage⟩ := redraw_kept player catalogue now
  rw [heq]
  refine ⟨h.stands, h.unstarted, h.paired, h.pending, fun picture hpicture => ?_, h.sides⟩
  rcases himage picture hpicture with hold | hnew
  · exact h.image picture hold
  · exact hnew

/-- At its end, a transition leaves the player in order. -/
theorem Intact.committed (h : player.Intact) {transition : Transition} {jump : PendingJump}
    (hrunning : player.transition = some transition) (hpending : player.pending = some jump)
    (now : Duration) : (player.committed transition jump now).Intact := by
  obtain ⟨target, response, hwaiting, htick, -⟩ := h.pending jump hpending
  constructor
  · exact h.stands.of_tick htick
  · intro hunstarted
    have hnone := (h.unstarted hunstarted).2
    rw [hrunning] at hnone
    cases hnone
  · rfl
  · intro stored hstored
    cases hstored
  · intro picture hpicture
    cases hpicture
    exact (h.sides transition hrunning).2
  · intro running hrunning
    cases hrunning

theorem Intact.frame (h : player.Intact) (catalogue : Catalogue) (now : Duration) :
    (player.frame catalogue now).1.Intact := by
  have hframed := h.framed catalogue now
  generalize player.frame catalogue now = result at hframed ⊢
  cases hframed with
  | still _ => exact h.redraw catalogue now
  | @shown transition hrunning hgoes =>
      refine ⟨h.stands, h.unstarted, h.paired, h.pending, fun picture hpicture => ?_, h.sides⟩
      cases hpicture
      rcases frame_cases transition now with ⟨hends, -⟩ | ⟨-, hsize⟩
      · rw [hgoes] at hends
        cases hends
      · exact hsize.fitsCanvas (h.sides transition hrunning).2
  | ended hrunning _ hpending => exact (h.committed hrunning hpending now).redraw catalogue now

/-! ## All calls -/

theorem Intact.begun (h : player.Intact) : { player with started := true }.Intact :=
  ⟨h.stands, nofun, h.paired, h.pending, h.image, h.sides⟩

theorem Intact.start (h : player.Intact) (catalogue : Catalogue) (now : Duration) :
    (player.start catalogue now).1.Intact := by
  unfold Player.start
  split
  · exact h
  · next hunstarted =>
      rw [Bool.not_eq_true] at hunstarted
      obtain ⟨-, hidle⟩ := h.unstarted hunstarted
      exact h.begun.feed hidle rfl none catalogue now

/-- A click is taken outside of transitions, as the answer that the run waits for. -/
theorem intent_eq_some {x y : Int32} {input : Input} {outcome : ClickOutcome}
    (hintent : player.intent x y = (some input, outcome)) :
    player.transition = none ∧
      ((player.waiting = .click ∧ input = .click ∧ outcome = .advanced) ∨
        ∃ count choice, player.waiting = .choice count ∧ input = .choose choice ∧
          outcome = .chose choice) := by
  unfold intent at hintent
  split at hintent
  · cases hintent
  · next hidle =>
      rw [Bool.or_eq_true, not_or] at hidle
      refine ⟨by simpa using hidle.1, ?_⟩
      split at hintent
      · next count hwaiting =>
          split at hintent
          · next choice _ =>
              cases hintent
              exact .inr ⟨count, choice, hwaiting, rfl, rfl⟩
          · cases hintent
      · next hwaiting =>
          cases hintent
          exact .inl ⟨hwaiting, rfl, rfl⟩
      · cases hintent
      · cases hintent

/-- A click that is not taken says so. -/
theorem intent_eq_none {x y : Int32} {outcome : ClickOutcome}
    (hintent : player.intent x y = (none, outcome)) :
    outcome = .ignored ∨ outcome = .missed := by
  unfold intent at hintent
  split at hintent
  · cases hintent
    exact .inl rfl
  · split at hintent
    · split at hintent
      · cases hintent
      · cases hintent
        exact .inr rfl
    · cases hintent
    · cases hintent
      exact .inl rfl
    · cases hintent
      exact .inl rfl

/-- A run that waits has been started. -/
theorem Intact.started_of_waiting (h : player.Intact) (hwaiting : player.waiting ≠ .nothing) :
    player.started = true := by
  by_contra hunstarted
  rw [Bool.not_eq_true] at hunstarted
  refine hwaiting ?_
  unfold Player.waiting
  rw [(h.unstarted hunstarted).1]
  rfl

theorem Intact.started_of_intent (h : player.Intact) {x y : Int32} {input : Input}
    {outcome : ClickOutcome} (hintent : player.intent x y = (some input, outcome)) :
    player.started = true := by
  refine h.started_of_waiting ?_
  rcases (intent_eq_some hintent).2 with ⟨hwaiting, -⟩ | ⟨count, choice, hwaiting, -⟩ <;>
    rw [hwaiting] <;> exact nofun

theorem Intact.click (h : player.Intact) (x y : Int32) (catalogue : Catalogue) (now : Duration) :
    (player.click x y catalogue now).1.Intact := by
  unfold Player.click
  split
  · exact h
  · next input outcome hintent =>
      obtain ⟨hidle, -⟩ := intent_eq_some hintent
      exact h.feed hidle (h.started_of_intent hintent) (some input) catalogue now

theorem Intact.call (h : player.Intact) (call : Call) : (player.call call).1.Intact := by
  cases call with
  | start catalogue now => exact h.start catalogue now
  | click x y catalogue now => exact h.click x y catalogue now
  | frame catalogue now => exact h.frame catalogue now
  | takeEffects => exact ⟨h.stands, h.unstarted, h.paired, h.pending, h.image, h.sides⟩

theorem Intact.afterCalls (h : player.Intact) (calls : List Call) :
    (player.afterCalls calls).Intact := by
  induction calls generalizing player with
  | nil => exact h
  | cons call rest ih => exact ih (h.call call)

end Player
end SceneScript
