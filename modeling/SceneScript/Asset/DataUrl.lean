import SceneScript.Asset.Catalogue
import SceneScript.Text.Base64
/-!
# Data URLs

A picture may stand in the project itself, as `data:…;base64,` and its bytes.
-/

namespace SceneScript

namespace DataUrl

/-- What follows the first occurrence of a mark. -/
def after (mark : List Char) : List Char → Option (List Char)
  | [] => if mark.isEmpty then some [] else none
  | c :: rest =>
    if mark.isPrefixOf (c :: rest) then some ((c :: rest).drop mark.length) else after mark rest

def scheme : List Char := "data:".toList

def encodingMark : List Char := ";base64,".toList

def utf8 (text : List Char) : List UInt8 := (String.ofList text).toUTF8.toList

/-- The bytes of a data URL, and nothing for any other source. -/
def bytes? (handle source : String) : Except AssetFault (Option (List UInt8)) :=
  let source := source.toList
  if scheme.isPrefixOf source then
    match after encodingMark (source.drop scheme.length) with
    | none => .error (.loadFailure handle "data URL 不是 base64 编码")
    | some payload =>
      match Base64.decode (utf8 payload) with
      | .ok bytes => .ok (some bytes)
      | .error error => .error (.loadFailure handle error.message)
  else .ok none

end DataUrl
end SceneScript
