import SceneScript.Number.Duration
import SceneScript.Picture.Layout
/-!
# Stage clocks

Effects say at once what is visible; the stage clock turns them into what is seen at a time. It
holds the fades of the two layers of the stage and the start of the character's animation.
-/

namespace SceneScript

/-- A change of opacity that takes time. -/
structure Fade where
  source : UInt8
  target : UInt8
  started : Duration
  span : Duration
  deriving DecidableEq, Repr, Inhabited

/-- The opacity at a time, unless the fade is over. It is computed in single precision. -/
def Fade.opacity? (fade : Fade) (now : Duration) : Option UInt8 :=
  let elapsed := now.since fade.started
  if fade.span ≤ elapsed then none
  else
    let single := Binary.Format.single
    let change : Rat := (fade.target.toNat : Int) - (fade.source.toNat : Int)
    let value := single.nearest (fade.source.toNat +
      single.nearest (change * Duration.ratio elapsed fade.span))
    some (.ofNat (max 0 (min 255 (roundAway value))).toNat)

/-- A layer of the stage: whether it is to be seen in the end, and the fade towards that. -/
structure LayerClock where
  visible : Bool
  fade : Option Fade := none
  deriving DecidableEq, Repr, Inhabited

namespace LayerClock

def opaque? (visible : Bool) : UInt8 := if visible then 255 else 0

/-- The opacity while a fade runs. -/
def opacity? (layer : LayerClock) (now : Duration) : Option UInt8 :=
  layer.fade.bind (·.opacity? now)

/-- Starts from the opacity that is seen. Nothing fades in no time, or to the opacity it has. -/
def change (layer : LayerClock) (visible : Bool) (fadeMs : UInt32) (now : Duration) : LayerClock :=
  let source := (layer.opacity? now).getD (opaque? layer.visible)
  let target := opaque? visible
  { visible
    fade := if fadeMs = 0 ∨ source = target then none
      else some ⟨source, target, now, .ofMillis fadeMs.toNat⟩ }

end LayerClock

structure StageClock where
  background : LayerClock
  character : LayerClock
  animationStart : Option Duration := none
  deriving DecidableEq, Repr

namespace StageClock

def ofStage (stage : Stage) : StageClock :=
  { background := { visible := stage.backgroundVisible }
    character := { visible := stage.characterVisible } }

instance : Inhabited StageClock := ⟨ofStage {}⟩

/-- A scene begins without fades. -/
def enterScene (project : Project) (scene : Index) : StageClock :=
  ofStage (((project.scene? scene).map Scene.stage).getD {})

def change (clock : StageClock) (change : VisibilityChange) (now : Duration) : StageClock :=
  match change.layer with
  | .background =>
    { clock with background := clock.background.change change.visible change.fadeMs now }
  | .character =>
    { clock with
      character := clock.character.change change.visible change.fadeMs now
      animationStart := if change.animation.isSome then some now else clock.animationStart }

def apply (project : Project) (now : Duration) (clock : StageClock) : Effect → StageClock
  | .sceneEntered scene => enterScene project scene
  | .visibility change => clock.change change now
  | _ => clock

def applyAll (project : Project) (now : Duration) (clock : StageClock) (effects : List Effect) :
    StageClock :=
  effects.foldl (apply project now) clock

def view (clock : StageClock) (showSceneIndex : Bool) (now : Duration) : View where
  showSceneIndex := showSceneIndex
  backgroundOpacity := clock.background.opacity? now
  characterOpacity := clock.character.opacity? now
  clockMs := match clock.animationStart with
    | some start => (now.since start).millis
    | none => 0

end StageClock
end SceneScript
