import SceneScript.Asset.DataUrl
import SceneScript.Asset.Reference
/-!
# Stores of pictures

A store keeps one state for each handle. How bytes become a picture is given from outside.
-/

namespace SceneScript

/-- Turns bytes into a picture, unless they are none. -/
abbrev Decoder := List UInt8 → Option Bitmap

/-- Each handle occurs once. -/
structure AssetStore where
  slots : List (String × AssetState) := []
  deriving DecidableEq, Inhabited

namespace AssetStore

def notRegistered : String := "资源未注册"

def undecodable : String := "The image format could not be determined"

/-- A handle without a state has failed. -/
def catalogue (store : AssetStore) : Catalogue := fun handle =>
  (store.slots.lookup handle).getD (.failed notRegistered)

def put (handle : String) (state : AssetState) :
    List (String × AssetState) → List (String × AssetState)
  | [] => [(handle, state)]
  | slot :: rest =>
    if slot.1 = handle then (handle, state) :: rest else slot :: put handle state rest

def set (store : AssetStore) (handle : String) (state : AssetState) : AssetStore :=
  ⟨put handle state store.slots⟩

def size (store : AssetStore) : Nat := store.slots.length

/-- The state that bytes bring a handle to. -/
def decoded (decode : Decoder) (bytes : List UInt8) : AssetState :=
  match decode bytes with
  | some image => .ready image
  | none => .failed undecodable

def load (decode : Decoder) (store : AssetStore) (handle : String) (bytes : List UInt8) :
    AssetStore :=
  store.set handle (decoded decode bytes)

/-- Loads a picture that stands in the project, or adds the reference to those that come from
outside. -/
def loadReference (decode : Decoder) (project : Project)
    (state : AssetStore × List AssetReference) (reference : AssetReference) :
    AssetStore × List AssetReference :=
  let (store, external) := state
  match reference.imageSource? project with
  | none => (store, external)
  | some source =>
    match DataUrl.bytes? reference.handle source with
    | .ok (some bytes) => (store.load decode reference.handle bytes, external)
    | .ok none => (store, external ++ [reference])
    | .error fault => (store.set reference.handle (.failed fault.message), external)

/-- Loads the pictures that stand in the project, and lists those that come from outside. -/
def loadEmbedded (decode : Decoder) (store : AssetStore) (project : Project) :
    AssetStore × List AssetReference :=
  project.assetReferences.foldl (loadReference decode project) (store, [])

end AssetStore
end SceneScript
