import SceneScript.Asset.Store
import SceneScript.Json.Print
import SceneScript.Run.Codec
import SceneScript.Show.Player
/-!
# Shows on a web page

The page fetches the pictures that do not stand in the project, measures time by its own clock, and
shows the canvas enlarged.
-/

namespace SceneScript

namespace ClickOutcome

/-- A choice is coded by its place, as far as that fits, the other outcomes by negative numbers. -/
def code : ClickOutcome → Int
  | ignored => -3
  | missed => -2
  | advanced => -1
  | chose choice => min choice.toNat Int32.maxValue.toInt

end ClickOutcome

structure PageShow where
  player : Player
  store : AssetStore
  /-- The pictures to fetch: the handle of each, and where it is. -/
  external : List (String × String)

namespace PageShow

/-- The place on the canvas under a place on the page. -/
def canvasPlace (place : Binary) (scale : UInt32) : Int32 :=
  let single := Binary.Format.single
  let enlargement := single.nearest (max scale.toNat 1 : Nat)
  let place := match place with
    | .finite value => single.round (value / enlargement)
    | place => place
  .ofInt (place.floorWithin Int32.minValue.toInt Int32.maxValue.toInt)

/-- Pictures that stand in the project are there from the start, the others come later. -/
def ofProject (decode : Decoder) (project : Project) : PageShow :=
  let (store, references) := AssetStore.loadEmbedded decode {} project
  let external := references.filterMap fun reference =>
    (reference.imageSource? project).map (reference.handle, ·)
  { player := .new project .default
    store := external.foldl (fun store (handle, _) => store.set handle .pending) store
    external }

def ofText (decode : Decoder) (text : String) : Except ShowFault PageShow :=
  match Project.ofText text with
  | .ok project => .ok (ofProject decode project)
  | .error fault => .error (.project fault)

/-- The pictures to fetch, as JSON. -/
def externalText (page : PageShow) : String :=
  (Json.arr (page.external.map fun (handle, source) => .arr [.str handle, .str source])).compact

/-- Takes a picture that the page has fetched. -/
def load (decode : Decoder) (page : PageShow) (handle : String) (bytes : List UInt8) : PageShow :=
  { page with store := page.store.load decode handle bytes }

/-- Gives up a picture. -/
def fail (page : PageShow) (handle message : String) : PageShow :=
  { page with store := page.store.set handle (.failed message) }

def start (page : PageShow) (now : Duration) : PageShow × Except ShowFault Unit :=
  let (player, result) := page.player.start page.store.catalogue now
  ({ page with player }, result)

/-- Takes a click at a place on the page. -/
def click (page : PageShow) (x y : Binary) (scale : UInt32) (now : Duration) :
    PageShow × Except ShowFault ClickOutcome :=
  let (player, result) :=
    page.player.click (canvasPlace x scale) (canvasPlace y scale) page.store.catalogue now
  ({ page with player }, result)

def frame (page : PageShow) (now : Duration) : PageShow × Except ShowFault (Option Bitmap) :=
  let (player, result) := page.player.frame page.store.catalogue now
  ({ page with player }, result)

/-- Takes the effects, as JSON. -/
def takeEffects (page : PageShow) : PageShow × String :=
  let (player, effects) := page.player.takeEffects
  ({ page with player }, (Json.arr (effects.map Effect.toJson)).compact)

end PageShow
end SceneScript
