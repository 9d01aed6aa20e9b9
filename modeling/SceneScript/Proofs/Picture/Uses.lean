import Mathlib.Data.List.Forall2
import SceneScript.Proofs.Picture.Piece

/-! # Uses of pictures

Laying out a moment looks up one picture after the other. With all of them still to come each is drawn
in its place, so that drawing shows what is wanted. Any other catalogue gives the same drawing call by
call, but for the pictures that cannot be used: an area is filled for each of them, and its fault is
told.
-/

namespace SceneScript

/-! ## One use -/

/-- A picture is drawn as it is, or cut into the parts of a skin. -/
inductive PictureForm where
  | whole | skin
  deriving DecidableEq, Repr

/-- A picture that is looked up for a layer. -/
structure PictureUse where
  layer : Layer
  form : PictureForm
  handle : String
  deriving DecidableEq, Repr

/-- Why the picture cannot be used. Of one that may still come nothing is known. -/
def PictureUse.fault? (catalogue : Catalogue) (use : PictureUse) : Option AssetFault :=
  match catalogue use.handle, use.form with
  | .pending, _ => none
  | .failed message, _ => some (.loadFailure use.handle message)
  | .ready _, .whole => none
  | .ready image, .skin =>
    if image.isSkin then none else some (.malformedSkin use.handle image.width image.height)

/-- The picture that a call draws. -/
def DrawCall.use? (call : DrawCall) : Option PictureUse :=
  match call.op with
  | .image handle .. => some ⟨call.layer, .whole, handle⟩
  | .skin handle _ => some ⟨call.layer, .skin, handle⟩
  | _ => none

/-- The call that is drawn does what was wanted, as far as the picture can be used: otherwise a place
is filled on the same layer. -/
def DrawCall.Serves (catalogue : Catalogue) (wanted drawn : DrawCall) : Prop :=
  match wanted.use? with
  | none => drawn = wanted
  | some use =>
    match use.fault? catalogue with
    | none => drawn.use? = some use
    | some _ => drawn.layer = use.layer ∧ ∃ rect color, drawn.op = .fill rect color

/-- All pictures are still to come. -/
def Catalogue.awaited : Catalogue := fun _ => .pending

theorem PictureUse.exists_of_fault?_eq_none {catalogue : Catalogue} {use : PictureUse}
    (h : use.fault? catalogue = none) (hpending : catalogue use.handle ≠ .pending) :
    ∃ picture, catalogue use.handle = .ready picture ∧ (use.form = .skin → picture.isSkin) := by
  unfold fault? at h
  cases hstate : catalogue use.handle with
  | pending => exact absurd hstate hpending
  | failed message => simp [hstate] at h
  | ready picture =>
      refine ⟨picture, rfl, ?_⟩
      intro hform
      simpa [hstate, hform] using h

theorem DrawCall.Serves.fault?_eq_none {catalogue : Catalogue} {wanted drawn : DrawCall}
    (h : wanted.Serves catalogue drawn) {use : PictureUse} (huse : drawn.use? = some use) :
    use.fault? catalogue = none := by
  unfold Serves at h
  cases hwanted : wanted.use? with
  | none =>
      rw [hwanted] at h
      rw [h, hwanted] at huse
      cases huse
  | some asked =>
      rw [hwanted] at h
      cases hfault : asked.fault? catalogue with
      | none =>
          simp only [hfault] at h
          rw [h] at huse
          cases huse
          exact hfault
      | some fault =>
          simp only [hfault] at h
          obtain ⟨-, rect, color, hop⟩ := h
          rw [use?, hop] at huse
          cases huse

theorem Bitmap.isSkin_iff {image : Bitmap} : image.isSkin ↔ image.width = 16 ∧ image.height = 16 := by
  rw [isSkin, Bool.and_eq_true, decide_eq_true_iff, decide_eq_true_iff]
  rfl

/-- The picture that an operation needs is still to come or there, a skin in the right size. -/
def DrawOp.Usable (catalogue : Catalogue) : DrawOp → Prop
  | .image handle .. =>
    catalogue handle = .pending ∨ ∃ picture, catalogue handle = .ready picture
  | .skin handle _ =>
    catalogue handle = .pending ∨ ∃ picture, catalogue handle = .ready picture ∧
      picture.width = 16 ∧ picture.height = 16
  | _ => True

theorem DrawCall.Serves.usable {catalogue : Catalogue} {wanted drawn : DrawCall}
    (h : wanted.Serves catalogue drawn) : drawn.op.Usable catalogue := by
  obtain ⟨layer, op⟩ := drawn
  cases op with
  | image handle source target opacity =>
      have hfault := h.fault?_eq_none rfl
      by_cases hpending : catalogue handle = .pending
      · exact .inl hpending
      · obtain ⟨picture, hready, -⟩ := PictureUse.exists_of_fault?_eq_none hfault hpending
        exact .inr ⟨picture, hready⟩
  | skin handle target =>
      have hfault := h.fault?_eq_none rfl
      by_cases hpending : catalogue handle = .pending
      · exact .inl hpending
      · obtain ⟨picture, hready, hskin⟩ := PictureUse.exists_of_fault?_eq_none hfault hpending
        exact .inr ⟨picture, hready, Bitmap.isSkin_iff.mp (hskin rfl)⟩
  | fill _ _ | text _ _ _ _ | arrow _ _ _ => trivial

theorem DrawCall.usable_of_serves {catalogue : Catalogue} {wanted drawn : List DrawCall}
    (h : List.Forall₂ (Serves catalogue) wanted drawn) : ∀ call ∈ drawn, call.op.Usable catalogue := by
  induction h with
  | nil => nofun
  | cons hfirst _ ih => exact List.forall_mem_cons.mpr ⟨hfirst.usable, ih⟩

namespace Layout

/-- The uses of a picture that may not be given. -/
def uses (layer : Layer) (form : PictureForm) (handle : Option String) : List PictureUse :=
  handle.toList.map (⟨layer, form, ·⟩)

/-- The part looks up pictures for these uses, and serves each of them. -/
structure Serves (catalogue : Catalogue) (uses : List PictureUse) (part : Catalogue → Piece) :
    Prop where
  uses_eq : (part .awaited).calls.filterMap DrawCall.use? = uses
  calls : List.Forall₂ (DrawCall.Serves catalogue) (part .awaited).calls (part catalogue).calls
  degraded_eq : (part catalogue).degraded = uses.filterMap (PictureUse.fault? catalogue)

section Pieces

variable {catalogue : Catalogue}

theorem serves_plain {part : Piece} (h : part.All (·.use? = none)) (hdegraded : part.degraded = []) :
    Serves catalogue [] fun _ => part where
  uses_eq := List.filterMap_eq_nil_iff.mpr h
  calls := by
    apply List.forall₂_same.mpr
    intro call hcall
    rw [DrawCall.Serves, h call hcall]
  degraded_eq := hdegraded

theorem Serves.append {uses more : List PictureUse} {first second : Catalogue → Piece}
    (h : Serves catalogue uses first) (h' : Serves catalogue more second) :
    Serves catalogue (uses ++ more) fun catalogue => first catalogue ++ second catalogue where
  uses_eq := by rw [Piece.calls_append, List.filterMap_append, h.uses_eq, h'.uses_eq]
  calls := List.rel_append h.calls h'.calls
  degraded_eq := by
    rw [List.filterMap_append, ← h.degraded_eq, ← h'.degraded_eq]
    rfl

theorem serves_join {α : Type} (items : List α) {uses : List PictureUse}
    {each : Catalogue → α → Piece}
    (h : ∀ item, Serves catalogue uses fun catalogue => each catalogue item) :
    Serves catalogue (items.flatMap fun _ => uses) fun catalogue =>
      Piece.join (items.map (each catalogue)) := by
  induction items with
  | nil => exact serves_plain all_empty rfl
  | cons item rest ih => exact (h item).append ih

/-- A part that is one call for one picture. -/
theorem serves_single {use : PictureUse} {wanted : DrawCall} {part : Catalogue → Piece}
    (hwanted : (part .awaited).calls = [wanted]) (huse : wanted.use? = some use)
    (hpart : match use.fault? catalogue with
      | none => ∃ drawn, part catalogue = ⟨[drawn], []⟩ ∧ drawn.use? = some use
      | some fault => ∃ rect color, part catalogue = ⟨[⟨use.layer, .fill rect color⟩], [fault]⟩) :
    Serves catalogue [use] part := by
  have huses : (part .awaited).calls.filterMap DrawCall.use? = [use] := by
    simp [hwanted, huse]
  cases hfault : use.fault? catalogue with
  | none =>
      rw [hfault] at hpart
      obtain ⟨drawn, hdrawn, hsame⟩ := hpart
      have hserves : wanted.Serves catalogue drawn := by
        simpa [DrawCall.Serves, huse, hfault] using hsame
      refine ⟨huses, ?_, ?_⟩
      · rw [hwanted, hdrawn]
        exact .cons hserves .nil
      · simp [hdrawn, hfault]
  | some fault =>
      rw [hfault] at hpart
      obtain ⟨rect, color, hdrawn⟩ := hpart
      have hserves : wanted.Serves catalogue ⟨use.layer, .fill rect color⟩ := by
        simp [DrawCall.Serves, huse, hfault]
      refine ⟨huses, ?_, ?_⟩
      · rw [hwanted, hdrawn]
        exact .cons hserves .nil
      · simp [hdrawn, hfault]

/-- A line of text looks up no picture. -/
theorem Serves.append_text {uses : List PictureUse} {part : Catalogue → Piece}
    (h : Serves catalogue uses part) (layer : Layer) (line : String) (x y : Int32) (color : Color) :
    Serves catalogue uses fun catalogue =>
      part catalogue ++ Piece.ofOp layer (.text line x y color) := by
  have htext : Serves catalogue [] fun _ => Piece.ofOp layer (.text line x y color) :=
    serves_plain (all_single rfl) rfl
  have hboth := h.append htext
  rw [List.append_nil] at hboth
  exact hboth

variable (catalogue : Catalogue) (font : Font)

theorem serves_skinnedBox (layer : Layer) (skin : Option String) (box : Rect) (plain : Color) :
    Serves catalogue (uses layer .skin skin) fun catalogue =>
      skinnedBox catalogue layer skin box plain := by
  cases skin with
  | none => exact serves_plain (all_single rfl) rfl
  | some handle =>
      refine serves_single rfl rfl ?_
      simp only [PictureUse.fault?, skinnedBox]
      cases catalogue handle with
      | pending => exact ⟨_, rfl, rfl⟩
      | failed message => exact ⟨_, _, rfl⟩
      | ready image =>
          cases hskin : image.isSkin with
          | true => simp only [hskin, if_true]; exact ⟨_, rfl, rfl⟩
          | false => simp only [hskin, if_false, Bool.false_eq_true]; exact ⟨_, _, rfl⟩

theorem serves_backgroundPicture (scene : Scene) (shown : UInt8) :
    Serves catalogue (uses .background .whole scene.backgroundId) fun catalogue =>
      backgroundPicture catalogue scene shown := by
  unfold backgroundPicture
  cases scene.backgroundId with
  | none => exact serves_plain (all_single rfl) rfl
  | some handle =>
      refine serves_single rfl rfl ?_
      simp only [PictureUse.fault?]
      cases catalogue handle with
      | pending => exact ⟨_, rfl, rfl⟩
      | failed message => exact ⟨_, _, rfl⟩
      | ready image => exact ⟨_, rfl, rfl⟩

theorem serves_background (scene : Scene) (shown : UInt8) :
    Serves catalogue (if shown = 0 then [] else uses .background .whole scene.backgroundId)
      fun catalogue => background catalogue scene shown := by
  have hground : Serves catalogue [] fun _ => Piece.ofOp .background (.fill canvas .black) :=
    serves_plain (all_single rfl) rfl
  have hpicture : Serves catalogue
      (if shown = 0 then [] else uses .background .whole scene.backgroundId)
      fun catalogue => if shown = 0 then {} else backgroundPicture catalogue scene shown := by
    split
    · exact serves_plain all_empty rfl
    · exact serves_backgroundPicture catalogue scene shown
  exact hground.append hpicture

theorem serves_character (scene : Scene) (animation : Option FrameAnimation) (clockMs : UInt64)
    (shown : UInt8) :
    Serves catalogue (if shown = 0 then [] else uses .character .whole scene.characterId)
      fun catalogue => character catalogue scene animation clockMs shown := by
  unfold character
  cases scene.characterId with
  | none =>
      rw [show uses .character .whole none = [] from rfl, ite_self]
      exact serves_plain all_empty rfl
  | some handle =>
      dsimp only
      split
      · exact serves_plain all_empty rfl
      · refine serves_single rfl rfl ?_
        simp only [PictureUse.fault?, characterPicture]
        cases catalogue handle with
        | pending => exact ⟨_, rfl, rfl⟩
        | failed message => exact ⟨_, _, rfl⟩
        | ready image => exact ⟨_, rfl, rfl⟩

theorem serves_name (skin : Option String) (speaker : String) :
    Serves catalogue (if speaker = "" then [] else uses .nameBox .skin skin) fun catalogue =>
      name catalogue font skin speaker := by
  unfold name
  by_cases hspeaker : speaker = ""
  · simp only [if_pos hspeaker]
    exact serves_plain all_empty rfl
  · simp only [if_neg hspeaker]
    exact (serves_skinnedBox catalogue ..).append_text ..

theorem serves_choice (skin : Option String) (row : Rect) (text : String) :
    Serves catalogue (uses .choices .skin skin) fun catalogue =>
      choice catalogue font skin row text :=
  (serves_skinnedBox catalogue ..).append_text ..

/-- The pictures that a dialogue looks up: its own skin, that of the name if there is one, and one for
each choice. -/
def dialogueUses (settings : Settings) (speaker : String) (choices : List Choice) :
    List PictureUse :=
  uses .messageBox .skin settings.messageBoxImage
    ++ (if speaker = "" then [] else uses .nameBox .skin settings.nameBoxImage)
    ++ choices.flatMap fun _ => uses .choices .skin settings.choiceBoxImage

theorem map_fst_choiceRows (font : Font) (text : String) (choices : List Choice) :
    (choiceRows font text choices).map (·.1) = choices := by
  rw [choiceRows, List.map_map]
  exact List.zipIdx_map_fst 0 choices

theorem serves_dialogue (settings : Settings) (hasFollowingContent : Bool) (speaker text : String)
    (choices : List Choice) :
    Serves catalogue (dialogueUses settings speaker choices) fun catalogue =>
      dialogue catalogue font settings hasFollowingContent speaker text choices := by
  have hmessage : Serves catalogue [] fun _ => message font (Wrap.lines font textWidth text) :=
    serves_plain (all_message font _ fun _ _ _ _ => rfl) rfl
  have hboxes := ((serves_skinnedBox catalogue .messageBox settings.messageBoxImage messageBox
    boxFill).append (serves_name catalogue font settings.nameBoxImage speaker)).append hmessage
  rw [List.append_nil] at hboxes
  apply hboxes.append
  cases choices with
  | nil =>
      apply serves_plain (all_arrow hasFollowingContent fun _ _ _ => rfl)
      unfold arrow
      split <;> rfl
  | cons first rest =>
      have hrows := serves_join (choiceRows font text (first :: rest)) fun row =>
        serves_choice catalogue font settings.choiceBoxImage row.2 row.1.text
      rw [← List.flatMap_map Prod.fst fun _ => uses .choices .skin settings.choiceBoxImage,
        map_fst_choiceRows] at hrows
      exact hrows

end Pieces
end Layout

/-! ## Moments -/

namespace Shot

open Layout

/-- The pictures that laying out a moment looks up, in order: nothing is looked up for what is hidden,
and for a dialogue only the skins of the boxes that it has. -/
def uses (shot : Shot) (scene : Scene) : List PictureUse :=
  (if opacity shot.stage.backgroundVisible shot.view.backgroundOpacity = 0 then []
    else Layout.uses .background .whole scene.backgroundId)
    ++ (if opacity shot.stage.characterVisible shot.view.characterOpacity = 0 then []
      else Layout.uses .character .whole scene.characterId)
    ++ match shot.dialogue? with
      | some (speaker, _, choices) => dialogueUses shot.project.settings speaker choices
      | none => []

/-- The calls that are made as long as all pictures are still to come. -/
def wanted (shot : Shot) (font : Font) (scene : Scene) : List DrawCall :=
  (shot.parts .awaited font scene).calls

theorem serves_parts (shot : Shot) (catalogue : Catalogue) (font : Font) (scene : Scene) :
    Serves catalogue (shot.uses scene) fun catalogue => shot.parts catalogue font scene := by
  have hstage := (serves_background catalogue scene
    (opacity shot.stage.backgroundVisible shot.view.backgroundOpacity)).append
      (serves_character catalogue scene shot.stage.animation shot.view.clockMs
        (opacity shot.stage.characterVisible shot.view.characterOpacity))
  have hdialogue : Serves catalogue
      (match shot.dialogue? with
        | some (speaker, _, choices) => dialogueUses shot.project.settings speaker choices
        | none => [])
      fun catalogue =>
        match shot.dialogue? with
        | some (speaker, text, choices) =>
          dialogue catalogue font shot.project.settings shot.hasFollowingContent speaker text choices
        | none => {} := by
    cases shot.dialogue? with
    | none => exact serves_plain all_empty rfl
    | some said => exact serves_dialogue ..
  have hindex : Serves catalogue [] fun _ =>
      if shot.view.showSceneIndex then sceneIndex font shot.scene else {} := by
    split
    · exact serves_plain (all_sceneIndex font _ (fun _ _ => rfl) fun _ _ _ _ => rfl) rfl
    · exact serves_plain all_empty rfl
  have hall := (hstage.append hdialogue).append hindex
  rw [List.append_nil] at hall
  exact hall

end Shot

end SceneScript
