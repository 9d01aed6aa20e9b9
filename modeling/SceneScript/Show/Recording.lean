import SceneScript.Asset.Store
import SceneScript.Save
import SceneScript.Show.Player
/-!
# Recordings

A recording plays a story without anybody watching. Time goes on by equal steps, dialogues are
clicked away, and questions are answered from a list, by clicks into the boxes of the choices.
-/

namespace SceneScript

/-- Why a recording stops before its end. -/
inductive RecordingFault where
  | show (fault : ShowFault)
  | choiceMissing (choice count : Index)
  | choiceUnclickable (choice : Index)
  deriving DecidableEq, Repr, Inhabited

def RecordingFault.message : RecordingFault → String
  | .show fault => fault.message
  | choiceMissing choice count => s!"选项索引 {choice} 越界，当前只有 {count} 个选项"
  | choiceUnclickable choice => s!"选项 {choice} 没有可点击区域"

/-- How to record. At least one frame is taken. -/
structure RecordingPlan where
  /-- The answers to the questions; when they are used up, the first choice is taken. -/
  choices : List Index := []
  maxFrames : Nat
  intervalMs : UInt64
  showSceneIndex : Bool := false
  deriving DecidableEq, Repr, Inhabited

/-- The pictures of a recording, numbered by their frames, and the player at its end. -/
structure Recording where
  frames : List (Nat × Bitmap) := []
  outcome : Except RecordingFault Player

namespace Recording

/-- The middle of a box. -/
def middle (box : Rect) : Int32 × Int32 :=
  (box.x + box.width.toInt32 / 2, box.y + box.height.toInt32 / 2)

/-- Where to click for a choice. -/
def clickPlace (player : Player) (count choice : Index) : Except RecordingFault (Int32 × Int32) :=
  if count ≤ choice then .error (.choiceMissing choice count)
  else
    match player.drawing.bind fun drawing => drawing.hits.find? fun box => box.choice == choice with
    | some box => .ok (middle box.rect)
    | none => .error (.choiceUnclickable choice)

def click (player : Player) (place : Int32 × Int32) (catalogue : Catalogue) (now : Duration) :
    Except RecordingFault Player :=
  match player.click place.1 place.2 catalogue now with
  | (player, .ok _) => .ok player
  | (_, .error fault) => .error (.show fault)

/-- What comes between two frames: a click, or nothing during a transition. The result is the player
and the answers that are left, or none at the end of the story. -/
def proceed (player : Player) (choices : List Index) (catalogue : Catalogue) (now : Duration) :
    Except RecordingFault (Option (Player × List Index)) :=
  if player.inTransition then .ok (some (player, choices))
  else if player.interpreter.state.finished then .ok none
  else
    match player.waiting with
    | .choice count => do
      let place ← clickPlace player count (choices.headD 0)
      return some (← click player place catalogue now, choices.tail)
    | .click => do return some (← click player (0, 0) catalogue now, choices)
    | .nothing | .transition _ => .ok none

/-- Takes the frame with the given number, and as many as `rest` after it. -/
def take (catalogue : Catalogue) (step : Duration) (number : Nat) (player : Player)
    (choices : List Index) (now : Duration) (rest : Nat) : Recording :=
  match player.frame catalogue now with
  | (_, .error fault) => { outcome := .error (.show fault) }
  | (player, .ok image) =>
    let frames := (image.map (number, ·)).toList
    let player := player.takeEffects.1
    match rest with
    | 0 => { frames, outcome := .ok player }
    | rest + 1 =>
      match proceed player choices catalogue now with
      | .error fault => { frames, outcome := .error fault }
      | .ok none => { frames, outcome := .ok player }
      | .ok (some (player, choices)) =>
        let later := take catalogue step (number + 1) player choices (now + step) rest
        { later with frames := frames ++ later.frames }

/-- The time between two frames. -/
def step (plan : RecordingPlan) : Duration := .ofMillis (max plan.intervalMs.toNat 1)

def ofProject (catalogue : Catalogue) (plan : RecordingPlan) (project : Project) : Recording :=
  let player := { Player.new project .default with showSceneIndex := plan.showSceneIndex }
  match player.start catalogue .zero with
  | (_, .error fault) => { outcome := .error (.show fault) }
  | (player, .ok ()) =>
    take catalogue (step plan) 0 player plan.choices .zero (plan.maxFrames - 1)

/-- The saved game at the end. -/
def save? (recording : Recording) (timestamp : UInt64) : Except RecordingFault Save :=
  recording.outcome.map fun player => .capture 1 timestamp player.interpreter

/-- The file of a frame: its number has five digits at least. -/
def fileName (number : Nat) : String :=
  let digits := toString number
  "frame_" ++ "".pushn '0' (5 - digits.length) ++ digits ++ ".png"

/-- The pictures of a project, with those that stand in files read from there. -/
def pictures (decode : Decoder) (readFile : String → Except String (List UInt8))
    (project : Project) : AssetStore :=
  let (store, references) := AssetStore.loadEmbedded decode {} project
  references.foldl (fun store reference =>
    match reference.imageSource? project with
    | none => store
    | some source =>
      match readFile source with
      | .ok bytes => store.load decode reference.handle bytes
      | .error message => store.set reference.handle (.failed message)) store

end Recording
end SceneScript
