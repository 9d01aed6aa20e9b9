import SceneScript.Picture.Render
import SceneScript.Project.Codec
import SceneScript.Show.StageClock
import SceneScript.Show.Transition
/-!
# Players

A player shows a run: it turns clicks into inputs and draws what there is to see at a time. A jump
to another scene is run ahead on a copy of the interpreter, so that its first picture is known. The
copy takes over, and its effects come out, when the transition ends; until then clicks are dropped.

Whatever fails leaves the player as far as it had come.
-/

namespace SceneScript

/-- What can go wrong in a show. -/
inductive ShowFault where
  | script (fault : Fault)
  | project (fault : Project.LoadError)
  | transition (fault : TransitionFault)
  deriving DecidableEq, Repr, Inhabited

def ShowFault.message : ShowFault → String
  | script fault => s!"运行时错误: {fault.message}"
  | project fault => s!"工程错误: {fault.message}"
  | transition fault => s!"过渡错误: {fault.message}"

inductive ClickOutcome where
  /-- Nothing takes a click. -/
  | ignored
  /-- No choice is where the click was. -/
  | missed
  | advanced
  | chose (choice : Index)
  deriving DecidableEq, Repr, Inhabited

/-- A jump that has been run, to take effect when its transition ends. -/
structure PendingJump where
  interpreter : Interpreter
  effects : List Effect
  deriving DecidableEq, Inhabited

structure Player where
  project : Project
  font : Font
  interpreter : Interpreter
  showSceneIndex : Bool := false
  clock : StageClock := default
  /-- The last drawing whose pictures had all come; clicks go by its boxes. -/
  drawing : Option Drawing := none
  image : Option Bitmap := none
  transition : Option Transition := none
  pending : Option PendingJump := none
  /-- The effects that have not been taken. -/
  outbox : List Effect := []
  started : Bool := false

namespace Player

def new (project : Project) (font : Font) : Player :=
  { project, font, interpreter := .new project }

def inTransition (player : Player) : Bool := player.transition.isSome

def waiting (player : Player) : Waiting := player.interpreter.state.waiting

def takeEffects (player : Player) : Player × List Effect :=
  ({ player with outbox := [] }, player.outbox)

/-- The drawing of the moment that an interpreter stands at. -/
def drawingOf (player : Player) (interpreter : Interpreter) (clock : StageClock)
    (catalogue : Catalogue) (now : Duration) : Except ShowFault Drawing := do
  let view := clock.view player.showSceneIndex now
  let shot ← (Shot.ofState player.project interpreter.state view).mapError .script
  (shot.layout catalogue player.font).mapError .script

/-! ## Transitions -/

/-- The mask of the project, if its picture has come. -/
def mask (player : Player) (catalogue : Catalogue) : Option Bitmap :=
  player.project.settings.transitionImage.bind fun handle =>
    match catalogue handle with
    | .ready image => some image
    | _ => none

/-- What is seen before a transition. -/
def oldImage (player : Player) (catalogue : Catalogue) (now : Duration) :
    Except ShowFault Bitmap :=
  match player.image with
  | some image => .ok image
  | none => do
    let drawing ← player.drawingOf player.interpreter player.clock catalogue now
    return drawing.render catalogue player.font

/-- Runs the jump that the interpreter waits for on a copy, and begins the transition to its first
picture. -/
def beginTransition (player : Player) (catalogue : Catalogue) (now : Duration) :
    Except ShowFault Player := do
  let old ← player.oldImage catalogue now
  let (interpreter, result) := player.interpreter.tick player.project (some .transitionFinished)
  let response ← result.mapError .script
  let clock := player.clock.applyAll player.project now response.effects
  let drawing ← player.drawingOf interpreter clock catalogue now
  let new := drawing.render catalogue player.font
  let span := Duration.ofMillis player.project.settings.transitionDurationMs.toNat
  let transition ← (Transition.begin? player.transition old new (player.mask catalogue) span
    now).mapError .transition
  return { player with
    transition := some transition
    pending := some ⟨interpreter, response.effects⟩ }

/-- Lets a jump take effect. -/
def commit (player : Player) (now : Duration) : Player :=
  match player.pending with
  | none => player
  | some jump =>
    { player with
      pending := none
      interpreter := jump.interpreter
      clock := player.clock.applyAll player.project now jump.effects
      outbox := player.outbox ++ jump.effects }

/-! ## Inputs -/

/-- Takes over the effects of a tick, and begins the transition that it may have asked for. -/
def follow (player : Player) (effects : List Effect) (catalogue : Catalogue) (now : Duration) :
    Player × Except ShowFault Unit :=
  let player := { player with
    clock := player.clock.applyAll player.project now effects
    outbox := player.outbox ++ effects }
  match player.waiting with
  | .transition _ =>
    match player.beginTransition catalogue now with
    | .ok player => (player, .ok ())
    | .error fault => (player, .error fault)
  | _ => (player, .ok ())

/-- Gives an input to the interpreter. -/
def feed (player : Player) (input : Option Input) (catalogue : Catalogue) (now : Duration) :
    Player × Except ShowFault Unit :=
  match player.interpreter.tick player.project input with
  | (interpreter, .ok response) =>
    { player with interpreter }.follow response.effects catalogue now
  | (interpreter, .error fault) => ({ player with interpreter }, .error (.script fault))

/-- Begins the show. A second start does nothing. -/
def start (player : Player) (catalogue : Catalogue) (now : Duration) :
    Player × Except ShowFault Unit :=
  if player.started then (player, .ok ())
  else { player with started := true }.feed none catalogue now

/-- What a click at a place means: an outcome, with the input that leads to it. -/
def intent (player : Player) (x y : Int32) : Option Input × ClickOutcome :=
  if player.transition.isSome || player.pending.isSome then (none, .ignored)
  else
    match player.waiting with
    | .choice _ =>
      match player.drawing.bind fun drawing => HitBox.test drawing.hits x y with
      | some choice => (some (.choose choice), .chose choice)
      | none => (none, .missed)
    | .click => (some .click, .advanced)
    | .nothing | .transition _ => (none, .ignored)

def click (player : Player) (x y : Int32) (catalogue : Catalogue) (now : Duration) :
    Player × Except ShowFault ClickOutcome :=
  match player.intent x y with
  | (none, outcome) => (player, .ok outcome)
  | (some input, outcome) =>
    let (player, result) := player.feed (some input) catalogue now
    (player, result.map fun _ => outcome)

/-! ## Pictures -/

/-- Draws the moment anew. Until all pictures have come, the image before stays. -/
def redraw (player : Player) (catalogue : Catalogue) (now : Duration) :
    Player × Except ShowFault (Option Bitmap) :=
  match player.drawingOf player.interpreter player.clock catalogue now with
  | .error fault => (player, .error fault)
  | .ok drawing =>
    let player :=
      if (drawing.staging catalogue).isReady then
        { player with
          image := some (drawing.render catalogue player.font)
          drawing := some drawing }
      else player
    (player, .ok player.image)

/-- What there is to see at a time. The last picture of a transition lets the jump take effect. -/
def frame (player : Player) (catalogue : Catalogue) (now : Duration) :
    Player × Except ShowFault (Option Bitmap) :=
  match Transition.sample player.transition now with
  | (transition, some frame) =>
    let player := { player with transition, image := some frame.image }
    if frame.finished then (player.commit now).redraw catalogue now else (player, .ok player.image)
  | (_, none) => player.redraw catalogue now

end Player
end SceneScript
