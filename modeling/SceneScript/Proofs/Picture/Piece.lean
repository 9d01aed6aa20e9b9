import SceneScript.Picture.Layout

/-! # Calls of the parts of a drawing

What the calls of a part are like follows from the few forms that they can have: boxes are filled or
take the skin that they ask for, pictures are those of the scene, or else places are filled.
-/

namespace SceneScript.Layout

/-- All calls of the part have the property. -/
def Piece.All (holds : DrawCall → Prop) (part : Piece) : Prop := ∀ call ∈ part.calls, holds call

variable {holds : DrawCall → Prop} {part other : Piece}

@[simp] theorem Piece.calls_append (part other : Piece) :
    (part ++ other).calls = part.calls ++ other.calls := rfl

theorem all_empty : Piece.All holds {} := nofun

theorem all_single {call : DrawCall} {degraded : List AssetFault} (h : holds call) :
    Piece.All holds ⟨[call], degraded⟩ := by
  intro call' hcall
  rw [List.mem_singleton.mp hcall]
  exact h

theorem Piece.All.append (h : part.All holds) (h' : other.All holds) :
    (part ++ other).All holds := by
  intro call hcall
  rcases List.mem_append.mp hcall with hcall | hcall
  · exact h call hcall
  · exact h' call hcall

section Parts

variable (catalogue : Catalogue) (font : Font)

/-- A box is one call, with its skin or in a plain colour. -/
theorem calls_skinnedBox (layer : Layer) (skin : Option String) (box : Rect) (plain : Color) :
    (∃ handle, skin = some handle ∧
      (skinnedBox catalogue layer skin box plain).calls = [⟨layer, .skin handle box⟩]) ∨
    (skinnedBox catalogue layer skin box plain).calls = [⟨layer, .fill box plain⟩] := by
  unfold skinnedBox
  cases skin with
  | none => exact .inr rfl
  | some handle =>
      dsimp only
      split
      · exact .inl ⟨handle, rfl, rfl⟩
      · exact .inr rfl
      · split
        · exact .inl ⟨handle, rfl, rfl⟩
        · exact .inr rfl

theorem all_skinnedBox {layer : Layer} {skin : Option String} {box : Rect} {plain : Color}
    (hfill : holds ⟨layer, .fill box plain⟩)
    (hskin : ∀ handle, skin = some handle → holds ⟨layer, .skin handle box⟩) :
    (skinnedBox catalogue layer skin box plain).All holds := by
  intro call hcall
  rcases calls_skinnedBox catalogue layer skin box plain with ⟨handle, hhandle, heq⟩ | heq
  · rw [heq] at hcall
    rw [List.mem_singleton.mp hcall]
    exact hskin handle hhandle
  · rw [heq] at hcall
    rw [List.mem_singleton.mp hcall]
    exact hfill

theorem all_background {scene : Scene} (shown : UInt8)
    (hfill : ∀ rect color, holds ⟨.background, .fill rect color⟩)
    (himage : ∀ handle source target opacity, scene.backgroundId = some handle →
      holds ⟨.background, .image handle source target opacity⟩) :
    (background catalogue scene shown).All holds := by
  apply (all_single (hfill ..)).append
  split
  · exact all_empty
  · unfold backgroundPicture
    dsimp only
    split
    · exact all_single (hfill ..)
    · next handle hid =>
        split
        · exact all_single (himage _ _ _ _ hid)
        · exact all_single (himage _ _ _ _ hid)
        · exact all_single (hfill ..)

theorem all_character {scene : Scene} (animation : Option FrameAnimation) (clockMs : UInt64)
    (shown : UInt8) (hfill : ∀ rect color, holds ⟨.character, .fill rect color⟩)
    (himage : ∀ handle source target opacity, scene.characterId = some handle →
      holds ⟨.character, .image handle source target opacity⟩) :
    (character catalogue scene animation clockMs shown).All holds := by
  unfold character
  split
  · exact all_empty
  · next handle hid =>
      split
      · exact all_empty
      · unfold characterPicture
        dsimp only
        split
        · exact all_single (himage _ _ _ _ hid)
        · exact all_single (himage _ _ _ _ hid)
        · exact all_single (hfill ..)

theorem all_name {skin : Option String} (speaker : String)
    (hfill : ∀ rect color, holds ⟨.nameBox, .fill rect color⟩)
    (hskin : ∀ handle rect, skin = some handle → holds ⟨.nameBox, .skin handle rect⟩)
    (htext : ∀ line x y color, holds ⟨.nameBox, .text line x y color⟩) :
    (name catalogue font skin speaker).All holds := by
  unfold name
  split
  · exact all_empty
  · apply (all_skinnedBox catalogue (hfill ..) _).append (all_single (htext ..))
    intro handle hhandle
    exact hskin handle _ hhandle

theorem all_message (lines : List String)
    (htext : ∀ line x y color, holds ⟨.text, .text line x y color⟩) :
    (message font lines).All holds := by
  intro call hcall
  obtain ⟨line, -, rfl⟩ := List.mem_map.mp hcall
  exact htext ..

theorem all_arrow (hasFollowingContent : Bool)
    (harrow : ∀ x y color, holds ⟨.advanceArrow, .arrow x y color⟩) :
    (arrow hasFollowingContent).All holds := by
  unfold arrow
  split
  · exact all_single (harrow ..)
  · exact all_empty

theorem all_sceneIndex (scene : Index)
    (hfill : ∀ rect color, holds ⟨.sceneIndex, .fill rect color⟩)
    (htext : ∀ line x y color, holds ⟨.sceneIndex, .text line x y color⟩) :
    (sceneIndex font scene).All holds :=
  (all_single (hfill ..)).append (all_single (htext ..))

end Parts

end SceneScript.Layout
