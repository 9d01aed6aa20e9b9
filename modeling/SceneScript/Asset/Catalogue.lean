import SceneScript.Picture.Bitmap
/-!
# Catalogues of pictures

Pictures arrive one by one. A catalogue tells for each handle how far its picture has come.
-/

namespace SceneScript

inductive AssetState where
  | pending
  | ready (image : Bitmap)
  | failed (message : String)
  deriving DecidableEq, Inhabited

abbrev Catalogue := String → AssetState

/-- A picture that cannot be used as it should be. It never stops the story. -/
inductive AssetFault where
  | malformedSkin (handle : String) (width height : UInt32)
  | loadFailure (handle message : String)
  deriving DecidableEq, Repr, Inhabited

/-- The side of a skin. -/
def skinSize : UInt32 := 16

def AssetFault.message : AssetFault → String
  | malformedSkin handle width height =>
    s!"九宫格素材 '{handle}' 尺寸为 {width}×{height}，期望 {skinSize}×{skinSize}"
  | loadFailure handle cause => s!"资源 '{handle}' 加载失败: {cause}"

def Bitmap.isSkin (image : Bitmap) : Bool := image.width = skinSize && image.height = skinSize

end SceneScript
