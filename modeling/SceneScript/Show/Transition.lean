import SceneScript.Number.Duration
import SceneScript.Picture.Bitmap
/-!
# Transitions

A picture gives way to another one, place by place, as a threshold rises through the red channel of
a mask. No colours are mixed. A transition that has begun runs to its end.
-/

namespace SceneScript

/-- Why a transition cannot begin. -/
inductive TransitionFault where
  | sizesDiffer (oldWidth oldHeight newWidth newHeight : UInt32)
  | alreadyRunning
  deriving DecidableEq, Repr, Inhabited

def TransitionFault.message : TransitionFault → String
  | sizesDiffer oldWidth oldHeight newWidth newHeight =>
    s!"过渡画面尺寸不一致: 旧画面 {oldWidth}×{oldHeight}，新画面 {newWidth}×{newHeight}"
  | alreadyRunning => "已有过渡正在进行"

/-! ## Single pictures -/

/-- The count of mask values that have been passed: none at the start, all 256 at the end. -/
def threshold : Binary → Nat
  | .finite progress => (clampUnit progress * 256).floor.toNat
  | .infinite negative => if negative then 0 else 256
  | .nan => 0

namespace Bitmap

def SameSize (image other : Bitmap) : Prop :=
  image.width = other.width ∧ image.height = other.height

instance (image other : Bitmap) : Decidable (image.SameSize other) :=
  inferInstanceAs (Decidable (_ ∧ _))

/-- The mask value for a place in a picture of the given size. The mask is stretched over the
picture. -/
def maskValue (mask : Bitmap) (width height : UInt32) (x y : Nat) : Nat :=
  let color :=
    mask.pixel? (x * mask.width.toNat / width.toNat) (y * mask.height.toNat / height.toNat)
  (color.getD .black).red.toNat

/-- Shows the new picture where the mask is below the threshold. Without a mask, or with one that
has no pixels, the new picture is shown at once. -/
def wipe (old new : Bitmap) (mask : Option Bitmap) (threshold : Nat) : Bitmap :=
  match mask with
  | none => new
  | some mask =>
    if mask.width = 0 ∨ mask.height = 0 then new
    else
      .generate old.width old.height fun x y =>
        let image := if mask.maskValue old.width old.height x y < threshold then new else old
        (image.pixel? x y).getD .black

def sizesDiffer (old new : Bitmap) : TransitionFault :=
  .sizesDiffer old.width old.height new.width new.height

/-- One picture of a transition. -/
def composite (old new : Bitmap) (mask : Option Bitmap) (progress : Binary) :
    Except TransitionFault Bitmap :=
  if old.SameSize new then .ok (old.wipe new mask (threshold progress))
  else .error (old.sizesDiffer new)

end Bitmap

/-! ## Running transitions -/

structure Transition where
  old : Bitmap
  new : Bitmap
  mask : Option Bitmap
  span : Duration
  started : Duration
  sameSize : old.SameSize new
  deriving DecidableEq

/-- What a transition shows at a time. -/
structure TransitionFrame where
  image : Bitmap
  progress : Rat
  finished : Bool
  deriving DecidableEq, Inhabited

namespace Transition

/-- Begins a transition, unless one is running. Without a mask it takes no time. -/
def begin? (running : Option Transition) (old new : Bitmap) (mask : Option Bitmap)
    (span now : Duration) : Except TransitionFault Transition :=
  if running.isSome then .error .alreadyRunning
  else if sameSize : old.SameSize new then
    .ok ⟨old, new, mask, if mask.isSome then span else .zero, now, sameSize⟩
  else .error (old.sizesDiffer new)

/-- How much of the transition is over, from zero to one. -/
def progress (transition : Transition) (now : Duration) : Rat :=
  if transition.span = .zero then 1
  else clampUnit (Duration.ratio (now.since transition.started) transition.span)

def frame (transition : Transition) (now : Duration) : TransitionFrame :=
  let progress := transition.progress now
  if 1 ≤ progress then ⟨transition.new, 1, true⟩
  else
    ⟨transition.old.wipe transition.new transition.mask (threshold (.finite progress)), progress,
      false⟩

/-- The picture at a time, and what is running after it. -/
def sample (running : Option Transition) (now : Duration) :
    Option Transition × Option TransitionFrame :=
  match running with
  | none => (none, none)
  | some transition =>
    let frame := transition.frame now
    (if frame.finished then none else some transition, some frame)

end Transition
end SceneScript
