import SceneScript.Show.StageClock

/-! # What a stage clock remembers

Fades and animations count the time since they began. So two clocks to which the same happens, each
at its own time, show the same at that time, if they showed the same before. A scene that is entered
makes them show the same.
-/

namespace SceneScript

theorem Duration.since_self (now : Duration) : now.since now = .zero := by
  simp [Duration.since, Duration.zero]

/-- A fade only sees how much time has elapsed since it began. -/
theorem Fade.opacity?_congr {fade other : Fade} {now later : Duration}
    (hsource : other.source = fade.source) (htarget : other.target = fade.target)
    (hspan : other.span = fade.span)
    (helapsed : later.since other.started = now.since fade.started) :
    other.opacity? later = fade.opacity? now := by
  unfold opacity?
  rw [hsource, htarget, hspan, helapsed]

/-! ## Layers -/

namespace LayerClock

/-- What one layer shows now, the other one shows at another time. -/
structure Alike (layer : LayerClock) (now : Duration) (other : LayerClock) (later : Duration) :
    Prop where
  visible : other.visible = layer.visible
  opacity : other.opacity? later = layer.opacity? now

variable {layer other : LayerClock} {now later : Duration}

theorem opacity?_of_still (h : layer.fade = none) (now : Duration) : layer.opacity? now = none := by
  rw [opacity?, h, Option.bind_none]

theorem opacity?_of_fade {fade : Fade} (h : layer.fade = some fade) (now : Duration) :
    layer.opacity? now = fade.opacity? now := by
  rw [opacity?, h, Option.bind_some]

theorem alike_of_still (h : layer.fade = none) (now later : Duration) :
    layer.Alike now layer later := by
  refine ⟨rfl, ?_⟩
  rw [opacity?_of_still h, opacity?_of_still h]

theorem Alike.change (h : layer.Alike now other later) (visible : Bool) (fadeMs : UInt32) :
    (layer.change visible fadeMs now).Alike now (other.change visible fadeMs later) later := by
  refine ⟨rfl, ?_⟩
  unfold LayerClock.change
  rw [h.visible, h.opacity]
  generalize (layer.opacity? now).getD (opaque? layer.visible) = source
  by_cases hstill : fadeMs = 0 ∨ source = opaque? visible
  · simp only [if_pos hstill]
    rw [opacity?_of_still rfl, opacity?_of_still rfl]
  · simp only [if_neg hstill]
    rw [opacity?_of_fade rfl, opacity?_of_fade rfl]
    have helapsed : later.since later = now.since now := by
      rw [Duration.since_self, Duration.since_self]
    exact Fade.opacity?_congr rfl rfl rfl helapsed

end LayerClock

/-! ## Both layers -/

namespace StageClock

/-- How long the animation has been running. -/
def animated (clock : StageClock) (now : Duration) : UInt64 :=
  match clock.animationStart with
  | some start => (now.since start).millis
  | none => 0

theorem view_eq (clock : StageClock) (shown : Bool) (now : Duration) :
    clock.view shown now =
      ⟨shown, clock.background.opacity? now, clock.character.opacity? now, clock.animated now⟩ :=
  rfl

/-- What one clock shows now, the other one shows at another time. -/
structure Alike (clock : StageClock) (now : Duration) (other : StageClock) (later : Duration) :
    Prop where
  background : clock.background.Alike now other.background later
  character : clock.character.Alike now other.character later
  animated : other.animated later = clock.animated now

variable {clock other : StageClock} {project : Project} {now later : Duration}

theorem Alike.view (h : clock.Alike now other later) (shown : Bool) :
    other.view shown later = clock.view shown now := by
  rw [view_eq, view_eq, h.background.opacity, h.character.opacity, h.animated]

theorem alike_enterScene (project : Project) (scene : Index) (now later : Duration) :
    (enterScene project scene).Alike now (enterScene project scene) later :=
  ⟨LayerClock.alike_of_still rfl now later, LayerClock.alike_of_still rfl now later, rfl⟩

theorem Alike.change (h : clock.Alike now other later) (change : VisibilityChange) :
    (clock.change change now).Alike now (other.change change later) later := by
  unfold StageClock.change
  cases change.layer with
  | background =>
      exact ⟨h.background.change change.visible change.fadeMs, h.character, h.animated⟩
  | character =>
      refine ⟨h.background, h.character.change change.visible change.fadeMs, ?_⟩
      by_cases hstarts : change.animation.isSome = true
      · simp only [StageClock.animated, if_pos hstarts, Duration.since_self]
      · simp only [if_neg hstarts]
        exact h.animated

theorem Alike.apply (h : clock.Alike now other later) (effect : Effect) :
    (clock.apply project now effect).Alike now (other.apply project later effect) later := by
  cases effect with
  | sceneEntered scene => exact alike_enterScene project scene now later
  | visibility change => exact h.change change
  | _ => exact h

theorem Alike.applyAll (h : clock.Alike now other later) (effects : List Effect) :
    (clock.applyAll project now effects).Alike now (other.applyAll project later effects)
      later := by
  induction effects generalizing clock other with
  | nil => exact h
  | cons effect rest ih => exact ih (h.apply effect)

/-- Behind the entry of a scene, nothing is left of what a clock had shown before. -/
theorem alike_of_entered (project : Project) (clock other : StageClock) (now later : Duration)
    (scene : Index) (effects : List Effect) :
    (clock.applyAll project now (.sceneEntered scene :: effects)).Alike now
      (other.applyAll project later (.sceneEntered scene :: effects)) later := by
  have hentered := alike_enterScene project scene now later
  exact hentered.applyAll effects

end StageClock
end SceneScript
