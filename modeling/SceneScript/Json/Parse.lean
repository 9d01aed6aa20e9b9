import SceneScript.Json.Token
/-!
# From tokens to trees

Containers that are still open wait on a list, so a text may nest as deep as it likes; how deep a
tree may be read is for its readers to say.
-/

namespace SceneScript

/-- A container that is still open, its contents latest first. The key of the member to come is
`none` if it spells no text. -/
inductive OpenJson where
  | arr (items : List Json)
  | obj (members : List (Option String × Json)) (key : Option String)
  deriving Inhabited

/-- What the next token may be. -/
inductive JsonExpectation where
  | value
  | firstItem
  | firstKey
  | key
  | colon
  | separator
  | finished (tree : Json)
  deriving Inhabited

structure JsonBuilder where
  expected : JsonExpectation
  containers : List OpenJson
  deriving Inhabited

namespace JsonBuilder

def start : JsonBuilder := ⟨.value, []⟩

/-- An object with a key that spells no text cannot be read. -/
def closeObject (members : List (Option String × Json)) : Json :=
  match members.mapM fun (key, value) => key.map (·, value) with
  | some members => .obj members.reverse
  | none => .unreadable

/-- A finished tree goes into the innermost container. -/
def finish (tree : Json) : List OpenJson → Option JsonBuilder
  | [] => some ⟨.finished tree, []⟩
  | .arr items :: outer => some ⟨.separator, .arr (tree :: items) :: outer⟩
  | .obj members key :: outer => some ⟨.separator, .obj ((key, tree) :: members) none :: outer⟩

def value? (containers : List OpenJson) : Token → Option JsonBuilder
  | .openArray => some ⟨.firstItem, .arr [] :: containers⟩
  | .openObject => some ⟨.firstKey, .obj [] none :: containers⟩
  | .text (some text) => finish (.str text) containers
  | .text none => finish .unreadable containers
  | .atom tree => finish tree containers
  | _ => none

def key? (containers : List OpenJson) (token : Token) : Option JsonBuilder :=
  match containers, token with
  | .obj members _ :: outer, .text key => some ⟨.colon, .obj members key :: outer⟩
  | _, _ => none

def step (builder : JsonBuilder) (token : Token) : Option JsonBuilder :=
  match builder.expected, builder.containers, token with
  | .value, containers, token => value? containers token
  | .firstItem, .arr _ :: outer, .closeArray => finish (.arr []) outer
  | .firstItem, containers, token => value? containers token
  | .firstKey, .obj _ _ :: outer, .closeObject => finish (.obj []) outer
  | .firstKey, containers, token => key? containers token
  | .key, containers, token => key? containers token
  | .colon, containers, .colon => some ⟨.value, containers⟩
  | .separator, .arr items :: outer, .closeArray => finish (.arr items.reverse) outer
  | .separator, .arr items :: outer, .comma => some ⟨.value, .arr items :: outer⟩
  | .separator, .obj members _ :: outer, .closeObject => finish (closeObject members) outer
  | .separator, .obj members key :: outer, .comma => some ⟨.key, .obj members key :: outer⟩
  | _, _, _ => none

end JsonBuilder

namespace Json

def ofTokens? (tokens : List Token) : Option Json := do
  let builder ← tokens.foldlM JsonBuilder.step JsonBuilder.start
  match builder.expected with
  | .finished tree => some tree
  | _ => none

/-- The tree of a JSON text. -/
def parse? (text : String) : Option Json := (Token.scan? text.toList).bind ofTokens?

end Json
end SceneScript
