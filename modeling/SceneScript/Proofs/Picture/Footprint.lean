import Mathlib.Data.List.Basic
import SceneScript.Picture.Render
import SceneScript.Proofs.Asset.Store
import SceneScript.Proofs.Picture.Piece
import SceneScript.Proofs.Run.Execution

/-! # The pictures that a drawing asks for

Laying out a moment, staging it and rendering it only ask for pictures that the project uses. So
catalogues that agree on these lead to the same drawing and the same image.
-/

namespace SceneScript

/-- The catalogues tell the same about the known handles. -/
def Catalogue.AgreeOn (known : String → Prop) (catalogue other : Catalogue) : Prop :=
  ∀ handle, known handle → other handle = catalogue handle

/-- All pictures that the operation needs are known. -/
def DrawOp.Draws (known : String → Prop) (op : DrawOp) : Prop :=
  ∀ handle, op.handle? = some handle → known handle

namespace Layout

/-- The part asks for known pictures only. -/
structure Within (known : String → Prop) (part : Catalogue → Piece) : Prop where
  congr : ∀ {catalogue other : Catalogue}, catalogue.AgreeOn known other →
    part other = part catalogue
  draws : ∀ catalogue, (part catalogue).All (·.op.Draws known)

section Pieces

variable {known : String → Prop} {font : Font}

theorem draws_handle {handle : String} {op : DrawOp} (hop : op.handle? = some handle)
    (hknown : known handle) : op.Draws known := by
  intro asked hasked
  cases hop.symm.trans hasked
  exact hknown

/-- A part that is made without pictures. -/
theorem within_plain {part : Piece} (h : part.All (·.op.Draws known)) :
    Within known fun _ => part :=
  ⟨fun _ => rfl, fun _ => h⟩

variable {first second : Catalogue → Piece}

theorem Within.append (h : Within known first) (h' : Within known second) :
    Within known fun catalogue => first catalogue ++ second catalogue := by
  refine ⟨?_, fun catalogue => (h.draws catalogue).append (h'.draws catalogue)⟩
  intro catalogue other hagree
  simp only [h.congr hagree, h'.congr hagree]

theorem within_join {α : Type} (items : List α) {each : Catalogue → α → Piece}
    (h : ∀ item, Within known fun catalogue => each catalogue item) :
    Within known fun catalogue => Piece.join (items.map (each catalogue)) := by
  induction items with
  | nil => exact within_plain all_empty
  | cons item rest ih => exact (h item).append ih

theorem within_skinnedBox {skin : Option String} (layer : Layer) (box : Rect) (plain : Color)
    (hskin : ∀ handle, skin = some handle → known handle) :
    Within known fun catalogue => skinnedBox catalogue layer skin box plain := by
  constructor
  · intro catalogue other hagree
    cases skin with
    | none => rfl
    | some handle => simp only [skinnedBox, hagree handle (hskin handle rfl)]
  · intro catalogue
    refine all_skinnedBox catalogue nofun ?_
    intro handle hhandle
    exact draws_handle rfl (hskin handle hhandle)

theorem within_background {scene : Scene} (shown : UInt8)
    (hscene : ∀ handle, scene.backgroundId = some handle → known handle) :
    Within known fun catalogue => background catalogue scene shown := by
  constructor
  · intro catalogue other hagree
    have hpicture : backgroundPicture other scene shown =
        backgroundPicture catalogue scene shown := by
      unfold backgroundPicture
      cases hid : scene.backgroundId with
      | none => rfl
      | some handle => simp only [hagree handle (hscene handle hid)]
    simp only [background, hpicture]
  · intro catalogue
    refine all_background catalogue shown (fun _ _ => nofun) ?_
    intro handle _ _ _ hid
    exact draws_handle rfl (hscene handle hid)

theorem within_character {scene : Scene} (animation : Option FrameAnimation) (clockMs : UInt64)
    (shown : UInt8) (hscene : ∀ handle, scene.characterId = some handle → known handle) :
    Within known fun catalogue => character catalogue scene animation clockMs shown := by
  constructor
  · intro catalogue other hagree
    unfold character
    cases hid : scene.characterId with
    | none => rfl
    | some handle => simp only [characterPicture, hagree handle (hscene handle hid)]
  · intro catalogue
    refine all_character catalogue animation clockMs shown (fun _ _ => nofun) ?_
    intro handle _ _ _ hid
    exact draws_handle rfl (hscene handle hid)

theorem draws_text (layer : Layer) (line : String) (x y : Int32) (color : Color) :
    (Piece.ofOp layer (.text line x y color)).All (·.op.Draws known) :=
  all_single nofun

theorem within_name {skin : Option String} (speaker : String)
    (hskin : ∀ handle, skin = some handle → known handle) :
    Within known fun catalogue => name catalogue font skin speaker := by
  unfold name
  split
  · exact within_plain all_empty
  · exact (within_skinnedBox _ _ _ hskin).append (within_plain (draws_text _ _ _ _ _))

theorem within_choice {skin : Option String} (row : Rect) (text : String)
    (hskin : ∀ handle, skin = some handle → known handle) :
    Within known fun catalogue => choice catalogue font skin row text :=
  (within_skinnedBox _ _ _ hskin).append (within_plain (draws_text _ _ _ _ _))

/-- The skins of the settings are known. -/
def SkinsKnown (known : String → Prop) (settings : Settings) : Prop :=
  ∀ skin ∈ [settings.messageBoxImage, settings.nameBoxImage, settings.choiceBoxImage],
    ∀ handle, skin = some handle → known handle

theorem within_dialogue {settings : Settings} (hskins : SkinsKnown known settings)
    (hasFollowingContent : Bool) (speaker text : String) (choices : List Choice) :
    Within known fun catalogue =>
      dialogue catalogue font settings hasFollowingContent speaker text choices := by
  have hmessage := hskins settings.messageBoxImage (by simp)
  have hname := hskins settings.nameBoxImage (by simp)
  have hchoice := hskins settings.choiceBoxImage (by simp)
  have hlines : (message font (Wrap.lines font textWidth text)).All (·.op.Draws known) :=
    all_message font _ fun _ _ _ _ => nofun
  apply Within.append
  · exact ((within_skinnedBox _ _ _ hmessage).append (within_name speaker hname)).append
      (within_plain hlines)
  · split
    · exact within_plain (all_arrow _ fun _ _ _ => nofun)
    · apply within_join
      intro answer
      exact within_choice answer.2 answer.1.text hchoice

end Pieces

end Layout

/-! ## Moments -/

variable {shot : Shot} {catalogue other : Catalogue} {font : Font} {drawing : Drawing}

theorem Shot.within_parts {scene : Scene} (hscene : scene ∈ shot.project.scenes) (font : Font) :
    Layout.Within shot.project.UsesImage fun catalogue => shot.parts catalogue font scene := by
  have hskins : Layout.SkinsKnown shot.project.UsesImage shot.project.settings := by
    intro skin hskin handle hhandle
    exact Project.usesImage_skin hskin hhandle
  unfold parts
  apply Layout.Within.append
  · apply Layout.Within.append
    · apply Layout.Within.append
      · apply Layout.within_background
        intro handle hid
        exact Project.usesImage_background hscene hid
      · apply Layout.within_character
        intro handle hid
        exact Project.usesImage_character hscene hid
    · split
      · exact Layout.within_dialogue hskins _ _ _ _
      · exact Layout.within_plain Layout.all_empty
  · split
    · exact Layout.within_plain
        (Layout.all_sceneIndex font _ (fun _ _ => nofun) fun _ _ _ _ => nofun)
    · exact Layout.within_plain Layout.all_empty

theorem Project.mem_scenes_of_sceneAt {project : Project} {index : Index} {scene : Scene}
    (h : project.sceneAt index = .ok scene) : scene ∈ project.scenes :=
  Index.mem_of_of? (sceneAt_eq_ok.mp h)

theorem Shot.layout_congr (h : catalogue.AgreeOn shot.project.UsesImage other) (font : Font) :
    shot.layout other font = shot.layout catalogue font := by
  unfold layout
  cases hscene : shot.project.sceneAt shot.scene with
  | error fault => rfl
  | ok scene =>
      have hmem := Project.mem_scenes_of_sceneAt hscene
      have hparts : shot.parts other font scene = shot.parts catalogue font scene :=
        (shot.within_parts hmem font).congr h
      simp only [bind, Except.bind, hparts]

/-- All pictures that the drawing needs are known. -/
def Drawing.Draws (known : String → Prop) (drawing : Drawing) : Prop :=
  ∀ call ∈ drawing.calls, call.op.Draws known

theorem Shot.draws_of_layout (h : shot.layout catalogue font = .ok drawing) :
    drawing.Draws shot.project.UsesImage := by
  unfold layout at h
  obtain ⟨scene, hscene, hdrawing⟩ := bind_eq_ok.mp h
  have hmem := Project.mem_scenes_of_sceneAt hscene
  rw [← pure_eq_ok.mp hdrawing]
  exact (shot.within_parts hmem font).draws catalogue

/-! ## Images -/

variable {known : String → Prop}

theorem Render.op_congr (h : catalogue.AgreeOn known other) {op : DrawOp} (hdraws : op.Draws known)
    (font : Font) (canvas : Bitmap) :
    Render.op other font canvas op = Render.op catalogue font canvas op := by
  cases op with
  | image handle source target opacity => simp only [Render.op, h handle (hdraws handle rfl)]
  | skin handle target => simp only [Render.op, h handle (hdraws handle rfl)]
  | fill rect color => rfl
  | text line x y color => rfl
  | arrow x y color => rfl

theorem Drawing.render_congr (h : catalogue.AgreeOn known other) (hdraws : drawing.Draws known)
    (font : Font) : drawing.render other font = drawing.render catalogue font := by
  unfold render
  apply List.foldl_ext
  intro canvas call hcall
  exact Render.op_congr h (hdraws call hcall) font canvas

theorem Staging.isPending_congr (h : catalogue.AgreeOn known other) {call : DrawCall}
    (hdraws : call.op.Draws known) :
    Staging.isPending other call = Staging.isPending catalogue call := by
  unfold isPending
  cases hhandle : call.op.handle? with
  | none => rfl
  | some handle => simp only [h handle (hdraws handle hhandle)]

theorem findSome?_congr {α β : Type} {f g : α → Option β} {items : List α}
    (h : ∀ item ∈ items, g item = f item) : items.findSome? g = items.findSome? f := by
  induction items with
  | nil => rfl
  | cons item rest ih =>
      have hrest := ih fun other hother => h other (List.mem_cons_of_mem _ hother)
      rw [List.findSome?_cons, List.findSome?_cons, h item (List.mem_cons_self ..), hrest]

theorem Drawing.staging_congr (h : catalogue.AgreeOn known other) (hdraws : drawing.Draws known) :
    drawing.staging other = drawing.staging catalogue := by
  unfold staging
  rw [findSome?_congr]
  intro call hcall
  rw [Staging.isPending_congr h (hdraws call hcall)]

/-- Without pending pictures a drawing waits for nothing. -/
theorem Drawing.staging_of_settled (h : ∀ handle, catalogue handle ≠ .pending)
    (drawing : Drawing) : drawing.staging catalogue = .ready := by
  have hnone : drawing.calls.findSome? (fun call =>
      (Staging.isPending catalogue call).map (call.layer, ·)) = none := by
    apply List.findSome?_eq_none_iff.mpr
    intro call _
    unfold Staging.isPending
    split
    · next handle _ =>
        split
        · next hpending => exact absurd hpending (h handle)
        · rfl
    · rfl
  unfold staging
  rw [hnone]

end SceneScript
