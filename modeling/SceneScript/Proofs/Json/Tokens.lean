import SceneScript.Json.Parse

/-! # The tokens of a tree

Both layouts of a tree spell the same tokens, and from these the tree is built again.
-/

namespace SceneScript

namespace Json

mutual

def tokens : Json → List Token
  | .arr [] => [.openArray, .closeArray]
  | .arr (item :: rest) => .openArray :: (item.tokens ++ itemTokens rest ++ [.closeArray])
  | .obj [] => [.openObject, .closeObject]
  | .obj ((key, value) :: rest) =>
    .openObject :: .text (some key) :: .colon ::
      (value.tokens ++ memberTokens rest ++ [.closeObject])
  | .str value => [.text (some value)]
  | tree => [.atom tree]

/-- The tokens behind the first item of an array. -/
def itemTokens : List Json → List Token
  | [] => []
  | item :: rest => .comma :: (item.tokens ++ itemTokens rest)

/-- The tokens behind the first member of an object. -/
def memberTokens : List (String × Json) → List Token
  | [] => []
  | (key, value) :: rest =>
    .comma :: .text (some key) :: .colon :: (value.tokens ++ memberTokens rest)

end

end Json

namespace JsonBuilder

/-! ## Building -/

/-- Takes several tokens. -/
def run (builder : JsonBuilder) (tokens : List Token) : Option JsonBuilder :=
  tokens.foldlM step builder

@[simp] theorem run_nil (builder : JsonBuilder) : builder.run [] = some builder := rfl

@[simp] theorem run_cons (builder : JsonBuilder) (token : Token) (tokens : List Token) :
    builder.run (token :: tokens) = (builder.step token).bind (·.run tokens) := rfl

@[simp] theorem run_append (builder : JsonBuilder) (tokens later : List Token) :
    builder.run (tokens ++ later) = (builder.run tokens).bind (·.run later) :=
  List.foldlM_append

/-- A member whose key spells a text. -/
def keyed (member : String × Json) : Option String × Json := (some member.1, member.2)

theorem mapM_keyed {f : Option String × Json → Option (String × Json)}
    (h : ∀ member, f (keyed member) = some member) (members : List (String × Json)) :
    (members.map keyed).mapM f = some members := by
  induction members with
  | nil => rfl
  | cons member rest ih =>
      rw [List.map_cons, List.mapM_cons, h, ih]
      rfl

theorem closeObject_keyed (members : List (String × Json)) :
    closeObject (members.map keyed).reverse = .obj members := by
  unfold closeObject
  rw [← List.map_reverse, mapM_keyed]
  · exact congrArg Json.obj (List.reverse_reverse members)
  · exact fun _ => rfl

/-- A tree does not begin with the end of a list, so the first item is read like any value. -/
theorem run_firstItem (tree : Json) (outer : List OpenJson) :
    run ⟨.firstItem, .arr [] :: outer⟩ tree.tokens =
      run ⟨.value, .arr [] :: outer⟩ tree.tokens := by
  cases tree with
  | arr items => cases items <;> rfl
  | obj members =>
      cases members with
      | nil => rfl
      | cons member rest => rfl
  | _ => rfl

mutual

/-- From its tokens a tree is built and put into the innermost container. -/
theorem run_tokens (tree : Json) (containers : List OpenJson) :
    run ⟨.value, containers⟩ tree.tokens = finish tree containers := by
  cases tree with
  | arr items =>
      cases items with
      | nil => simp [Json.tokens, step, value?]
      | cons item rest =>
          simp [Json.tokens, step, value?, run_firstItem, run_tokens item, finish,
            run_itemTokens rest]
  | obj members =>
      cases members with
      | nil => simp [Json.tokens, step, value?]
      | cons member rest =>
          obtain ⟨key, value⟩ := member
          have hclose : closeObject ((rest.map keyed).reverse ++ [(some key, value)]) =
              .obj ((key, value) :: rest) := by
            rw [← closeObject_keyed, List.map_cons, List.reverse_cons, keyed]
          simp [Json.tokens, step, value?, key?, run_tokens value, finish, run_memberTokens rest,
            hclose]
  | _ => simp [Json.tokens, step, value?]

theorem run_itemTokens (rest : List Json) (items : List Json) (outer : List OpenJson) :
    run ⟨.separator, .arr items :: outer⟩ (Json.itemTokens rest) =
      some ⟨.separator, .arr (rest.reverse ++ items) :: outer⟩ := by
  cases rest with
  | nil => rfl
  | cons item rest =>
      simp [Json.itemTokens, step, run_tokens item, finish, run_itemTokens rest]

theorem run_memberTokens (rest : List (String × Json)) (members : List (Option String × Json))
    (outer : List OpenJson) :
    run ⟨.separator, .obj members none :: outer⟩ (Json.memberTokens rest) =
      some ⟨.separator, .obj ((rest.map keyed).reverse ++ members) none :: outer⟩ := by
  cases rest with
  | nil => rfl
  | cons member rest =>
      obtain ⟨key, value⟩ := member
      simp [Json.memberTokens, step, key?, run_tokens value, finish, run_memberTokens rest, keyed]

end

end JsonBuilder

theorem Json.ofTokens?_tokens (tree : Json) : ofTokens? tree.tokens = some tree := by
  have hrun : tree.tokens.foldlM JsonBuilder.step JsonBuilder.start = some ⟨.finished tree, []⟩ :=
    JsonBuilder.run_tokens tree []
  simp [ofTokens?, hrun]

end SceneScript
