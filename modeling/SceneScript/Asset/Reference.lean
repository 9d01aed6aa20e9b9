import SceneScript.Script.Calls
/-!
# References to pictures, fonts and sounds
-/

namespace SceneScript

inductive AssetKind where
  | background | character | skin | transitionMask | font | sound
  deriving DecidableEq, Repr, Inhabited

namespace AssetKind

/-- References are listed in this order of their kinds. -/
def rank : AssetKind → Nat
  | background => 0 | character => 1 | skin => 2 | transitionMask => 3 | font => 4 | sound => 5

def label : AssetKind → String
  | background => "背景" | character => "立绘" | skin => "皮肤" | transitionMask => "过渡遮罩"
  | font => "字体" | sound => "音频"

end AssetKind

/-- A handle, and what it is used for. -/
structure AssetReference where
  kind : AssetKind
  handle : String
  deriving DecidableEq, Repr, Inhabited

/-- Whence a command plays sound. -/
def Command.soundSource? (command : Command) : Option String :=
  match command.action with
  | .startTrack _ sound => some sound.source
  | .playSound sound => some sound.source
  | _ => none

namespace AssetReference

/-- By kind, then by handle. -/
def precedes (reference other : AssetReference) : Bool :=
  reference.kind.rank < other.kind.rank ||
    (reference.kind = other.kind && reference.handle < other.handle)

/-- Puts a reference at its place in a sorted list, unless it is there. -/
def place (reference : AssetReference) : List AssetReference → List AssetReference
  | [] => [reference]
  | other :: rest =>
    if reference.precedes other then reference :: other :: rest
    else if reference = other then other :: rest
    else other :: place reference rest

/-- The picture behind a reference: that of the entry with this identifier, and otherwise the handle
itself. Fonts and sounds are no pictures. -/
def imageSource? (reference : AssetReference) (project : Project) : Option String :=
  match reference.kind with
  | .background =>
    some (((project.findBackground? reference.handle).map (·.image)).getD reference.handle)
  | .character =>
    some (((project.findCharacter? reference.handle).map (·.image)).getD reference.handle)
  | .skin | .transitionMask => some reference.handle
  | .font | .sound => none

end AssetReference

namespace Project

/-- The sounds of all commands, those of the scenes first. -/
def soundSources (project : Project) : List String :=
  (project.scenes.map (·.commands) ++ project.sharedCommands.map (·.commands)).flatMap
    fun commands => (Command.listSubcommands commands).filterMap Command.soundSource?

/-- Every use of a handle in the project. -/
def assetUses (project : Project) : List AssetReference :=
  project.scenes.filterMap (fun scene => scene.backgroundId.map (⟨.background, ·⟩))
    ++ project.scenes.filterMap (fun scene => scene.characterId.map (⟨.character, ·⟩))
    ++ [project.settings.messageBoxImage, project.settings.nameBoxImage,
      project.settings.choiceBoxImage].filterMap (·.map (⟨.skin, ·⟩))
    ++ (project.settings.transitionImage.map (⟨.transitionMask, ·⟩)).toList
    ++ (project.settings.customFont.map (⟨.font, ·⟩)).toList
    ++ project.soundSources.map (⟨.sound, ·⟩)

/-- What the project refers to, sorted, each reference once. An empty handle refers to nothing. -/
def assetReferences (project : Project) : List AssetReference :=
  (project.assetUses.filter fun reference => reference.handle != "").foldl
    (fun references reference => reference.place references) []

end Project
end SceneScript
