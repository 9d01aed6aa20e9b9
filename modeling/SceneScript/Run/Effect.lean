import SceneScript.Script.Basic
/-!
# Inputs and effects

A run of a script takes inputs and answers with effects. Effects say what has happened; carrying
them out is for whoever shows the story.
-/

namespace SceneScript

inductive Input where
  | click
  | choose (index : Index)
  | transitionFinished
  deriving DecidableEq, Repr, Inhabited

/-! ## Sound -/

def maxVolume : UInt8 := 100
def minPitch : UInt16 := 50
def maxPitch : UInt16 := 200
def minPan : Int16 := -100
def maxPan : Int16 := 100

/-- An instruction to whoever plays sound, its numbers in their ranges. -/
inductive SoundCue where
  | start (track : Track) (source : String) (volume : UInt8) (pitch : UInt16)
  | stop (track : Track)
  | fade (track : Track) (targetVolume : UInt8) (durationMs : UInt32)
  | effect (source : String) (volume : UInt8) (pitch : UInt16) (pan : Int16)
  deriving DecidableEq, Repr, Inhabited

namespace SoundCue

def clampVolume (volume : UInt8) : UInt8 := if volume > maxVolume then maxVolume else volume

def clampPitch (pitch : UInt16) : UInt16 :=
  if pitch < minPitch then minPitch else if pitch > maxPitch then maxPitch else pitch

def clampPan (pan : Int16) : Int16 :=
  if pan < minPan then minPan else if pan > maxPan then maxPan else pan

def ofStart (track : Track) (sound : TrackStart) : SoundCue :=
  start track sound.source (clampVolume sound.volume) (clampPitch sound.pitch)

def ofFade (track : Track) (fade : TrackFade) : SoundCue :=
  .fade track (clampVolume fade.targetVolume) fade.durationMs

def ofEffect (sound : SoundEffect) : SoundCue :=
  effect sound.source (clampVolume sound.volume) (clampPitch sound.pitch) (clampPan sound.pan)

end SoundCue

/-! ## Effects -/

/-- The two parts of the stage that can be hidden. -/
inductive StageLayer where
  | background | character
  deriving DecidableEq, Repr, Inhabited

structure VisibilityChange where
  layer : StageLayer
  visible : Bool
  fadeMs : UInt32
  animation : Option FrameAnimation
  deriving DecidableEq, Repr, Inhabited

inductive Effect where
  | sceneEntered (scene : Index)
  | dialogue (speaker : Option String) (text : String)
  | choices (texts : List String)
  | flagChanged (name : String) (value : Bool)
  | variableChanged (name : String) (value : UInt8)
  | sound (cue : SoundCue)
  | visibility (change : VisibilityChange)
  | beginTransition (fromScene toScene : Index)
  | halted
  deriving DecidableEq, Repr, Inhabited

namespace Effect

/-- A dialogue without a speaker is narration. -/
def say (speaker text : String) : Effect :=
  dialogue (if speaker = "" then none else some speaker) text

def cue? : Effect → Option SoundCue
  | sound cue => some cue
  | _ => none

/-- What the effects ask of whoever plays sound, in order. -/
def cues (effects : List Effect) : List SoundCue := effects.filterMap cue?

end Effect
end SceneScript
