import SceneScript.Picture.Render
import SceneScript.Proofs.Picture.Uses
import SceneScript.Proofs.Sequence

/-! # Pictures that are awaited

The calls of a drawing go up the layers, so the first picture that is still to come holds up the lowest
of the layers that wait. Once none is awaited, every call is carried out when the drawing is rendered.
-/

namespace SceneScript

/-! ## Layers -/

namespace Layout

/-- The calls of the part go up the layers, between two bounds. -/
structure Rises (low high : Nat) (part : Piece) : Prop where
  bounds : part.All fun call => low ≤ call.layer.rank ∧ call.layer.rank ≤ high
  sorted : part.calls.Pairwise fun call next => call.layer.rank ≤ next.layer.rank

variable {part other : Piece} {low middle high : Nat} {layer : Layer}

theorem rises_empty : Rises low high {} := ⟨all_empty, .nil⟩

/-- All calls are on one layer. -/
theorem Piece.All.rises (h : part.All (·.layer = layer)) (hlow : low ≤ layer.rank)
    (hhigh : layer.rank ≤ high) : Rises low high part where
  bounds := by
    intro call hcall
    rw [h call hcall]
    exact ⟨hlow, hhigh⟩
  sorted := by
    apply List.pairwise_of_forall_mem_list
    intro call hcall next hnext
    have hsame : call.layer = next.layer := (h call hcall).trans (h next hnext).symm
    exact Nat.le_of_eq (congrArg Layer.rank hsame)

theorem Rises.append (h : Rises low middle part) (h' : Rises middle high other)
    (hlow : low ≤ middle) (hhigh : middle ≤ high) : Rises low high (part ++ other) where
  bounds := by
    apply Piece.All.append
    · intro call hcall
      have hbounds := h.bounds call hcall
      exact ⟨hbounds.1, Nat.le_trans hbounds.2 hhigh⟩
    · intro call hcall
      have hbounds := h'.bounds call hcall
      exact ⟨Nat.le_trans hlow hbounds.1, hbounds.2⟩
  sorted := by
    rw [Piece.calls_append, List.pairwise_append]
    refine ⟨h.sorted, h'.sorted, ?_⟩
    intro call hcall next hnext
    exact Nat.le_trans (h.bounds call hcall).2 (h'.bounds next hnext).1

theorem all_join {α : Type} {holds : DrawCall → Prop} {each : α → Piece} (items : List α)
    (h : ∀ item ∈ items, (each item).All holds) : (Piece.join (items.map each)).All holds := by
  induction items with
  | nil => exact all_empty
  | cons item rest ih =>
      have hrest := ih fun other hother => h other (List.mem_cons_of_mem _ hother)
      exact (h item List.mem_cons_self).append hrest

theorem all_choice (catalogue : Catalogue) (font : Font) (skin : Option String) (row : Rect)
    (text : String) : (choice catalogue font skin row text).All (·.layer = .choices) := by
  have hbox : (skinnedBox catalogue .choices skin row choiceFill).All (·.layer = .choices) :=
    all_skinnedBox catalogue rfl fun _ _ => rfl
  exact hbox.append (all_single rfl)

theorem rises_dialogue (catalogue : Catalogue) (font : Font) (settings : Settings)
    (hasFollowingContent : Bool) (speaker text : String) (choices : List Choice) :
    Rises 1 6 (dialogue catalogue font settings hasFollowingContent speaker text choices) := by
  have hbox : (skinnedBox catalogue .messageBox settings.messageBoxImage messageBox boxFill).All
      (·.layer = .messageBox) := all_skinnedBox catalogue rfl fun _ _ => rfl
  have hname : (name catalogue font settings.nameBoxImage speaker).All (·.layer = .nameBox) :=
    all_name catalogue font speaker (fun _ _ => rfl) (fun _ _ _ => rfl) fun _ _ _ _ => rfl
  have hmessage : (message font (Wrap.lines font textWidth text)).All (·.layer = .text) :=
    all_message font _ fun _ _ _ _ => rfl
  have harrow : (arrow hasFollowingContent).All (·.layer = .advanceArrow) :=
    all_arrow hasFollowingContent fun _ _ _ => rfl
  have hchoices := all_join (choiceRows font text choices) fun row _ =>
    all_choice catalogue font settings.choiceBoxImage row.2 row.1.text
  have hboxes : Rises 1 4 (skinnedBox catalogue .messageBox settings.messageBoxImage messageBox
      boxFill ++ name catalogue font settings.nameBoxImage speaker
        ++ message font (Wrap.lines font textWidth text)) := by
    have hfirst : Rises 1 2 _ := hbox.rises (by decide) (by decide)
    have hsecond : Rises 2 3 _ := hname.rises (by decide) (by decide)
    have hthird : Rises 3 4 _ := hmessage.rises (by decide) (by decide)
    exact (hfirst.append hsecond (by decide) (by decide)).append hthird (by decide) (by decide)
  refine hboxes.append ?_ (by decide) (by decide)
  split
  · exact harrow.rises (by decide) (by decide)
  · exact hchoices.rises (by decide) (by decide)

end Layout

open Layout in
theorem Shot.rises_parts (shot : Shot) (catalogue : Catalogue) (font : Font) (scene : Scene) :
    Rises 0 7 (shot.parts catalogue font scene) := by
  have hbackground (shown : UInt8) : Rises 0 0 (background catalogue scene shown) :=
    (all_background catalogue shown (fun _ _ => rfl) fun _ _ _ _ _ => rfl).rises
      (by decide) (by decide)
  have hcharacter (animation : Option FrameAnimation) (clockMs : UInt64) (shown : UInt8) :
      Rises 0 1 (character catalogue scene animation clockMs shown) :=
    (all_character catalogue animation clockMs shown (fun _ _ => rfl)
      fun _ _ _ _ _ => rfl).rises (by decide) (by decide)
  have hindex : Rises 6 7 (if shot.view.showSceneIndex then sceneIndex font shot.scene else {}) := by
    split
    · exact (all_sceneIndex font _ (fun _ _ => rfl) fun _ _ _ _ => rfl).rises (by decide) (by decide)
    · exact rises_empty
  have hstage := (hbackground (opacity shot.stage.backgroundVisible
    shot.view.backgroundOpacity)).append (hcharacter shot.stage.animation shot.view.clockMs
      (opacity shot.stage.characterVisible shot.view.characterOpacity)) (by decide) (by decide)
  refine (hstage.append ?_ (by decide) (by decide)).append hindex (by decide) (by decide)
  cases shot.dialogue? with
  | none => exact rises_empty
  | some said => exact rises_dialogue ..

/-! ## Staging -/

/-- The picture of the call is still to come. -/
def DrawCall.Pending (catalogue : Catalogue) (call : DrawCall) (handle : String) : Prop :=
  call.op.handle? = some handle ∧ catalogue handle = .pending

theorem Staging.isPending_eq_some {catalogue : Catalogue} {call : DrawCall} {handle : String} :
    isPending catalogue call = some handle ↔ call.Pending catalogue handle := by
  unfold isPending DrawCall.Pending
  cases call.op.handle? with
  | none => simp
  | some asked =>
      simp only [Option.some.injEq]
      constructor
      · intro h
        split at h
        · cases h
          exact ⟨rfl, ‹_›⟩
        · cases h
      · rintro ⟨rfl, hpending⟩
        rw [hpending]
        rfl

/-- Along the layers, the first picture to come is on the lowest of the layers that wait. -/
theorem Drawing.staging_of_sorted (drawing : Drawing) (catalogue : Catalogue)
    (hsorted : drawing.calls.Pairwise fun call next => call.layer.rank ≤ next.layer.rank) :
    match drawing.staging catalogue with
    | .waiting layer handle =>
      (∃ call ∈ drawing.calls, call.layer = layer ∧ call.Pending catalogue handle) ∧
        ∀ call ∈ drawing.calls, ∀ other, call.Pending catalogue other →
          layer.rank ≤ call.layer.rank
    | .ready => ∀ call ∈ drawing.calls, ∀ handle, ¬call.Pending catalogue handle := by
  unfold staging
  cases hfind : drawing.calls.findSome? fun call =>
      (Staging.isPending catalogue call).map (call.layer, ·) with
  | none =>
      intro call hcall handle hpending
      have hnone := List.findSome?_eq_none_iff.mp hfind call hcall
      rw [Staging.isPending_eq_some.mpr hpending] at hnone
      cases hnone
  | some first =>
      obtain ⟨before, call, after, hcalls, hfirst, hbefore⟩ := List.findSome?_eq_some_iff.mp hfind
      obtain ⟨handle, hpending, rfl⟩ := Option.map_eq_some_iff.mp hfirst
      refine ⟨⟨call, ?_, rfl, Staging.isPending_eq_some.mp hpending⟩, ?_⟩
      · rw [hcalls]
        exact List.mem_append_right _ (List.mem_cons_self ..)
      · intro later hlater other hother
        rw [hcalls] at hlater hsorted
        -- Nothing is awaited before the first call, and behind it no layer is lower.
        rcases List.mem_append.mp hlater with hlater | hlater
        · have hnone := hbefore later hlater
          rw [Staging.isPending_eq_some.mpr hother] at hnone
          cases hnone
        · rcases List.mem_cons.mp hlater with rfl | hlater
          · exact Nat.le_refl _
          · exact (List.pairwise_cons.mp (List.pairwise_append.mp hsorted).2.1).1 later hlater

/-! ## Rendering -/

namespace Render

variable (catalogue : Catalogue) (font : Font)

/-- The operation is carried out on the canvas. There is no rule for a picture that cannot be
used. -/
inductive Carries (canvas : Bitmap) : DrawOp → Bitmap → Prop where
  | fill (rect : Rect) (color : Color) : Carries canvas (.fill rect color) (fill canvas rect color)
  | image {handle : String} {picture : Bitmap} (source target : Rect) (opacity : UInt8)
      (hready : catalogue handle = .ready picture) :
      Carries canvas (.image handle source target opacity)
        (blit canvas picture source target opacity)
  | skin {handle : String} {picture : Bitmap} (target : Rect)
      (hready : catalogue handle = .ready picture) (hskin : picture.isSkin) :
      Carries canvas (.skin handle target)
        ((Skin.slices target).foldl
          (fun canvas slice => blit canvas picture slice.1 slice.2 255) canvas)
  | text (line : String) (x y : Int32) (color : Color) :
      Carries canvas (.text line x y color) (text font y color canvas x line.toList)
  | arrow (x y : Int32) (color : Color) :
      Carries canvas (.arrow x y color)
        ((arrowRows x y).foldl (fun canvas row => fill canvas row color) canvas)

/-- All calls are carried out, one after the other. -/
inductive CarriesAll : List DrawCall → Bitmap → Bitmap → Prop where
  | nil (canvas : Bitmap) : CarriesAll [] canvas canvas
  | cons {call : DrawCall} {rest : List DrawCall} {canvas next last : Bitmap}
      (h : Carries catalogue font canvas call.op next) (hrest : CarriesAll rest next last) :
      CarriesAll (call :: rest) canvas last

variable {catalogue font}

theorem carries_op {op : DrawOp} (husable : op.Usable catalogue)
    (hcome : ∀ handle, op.handle? = some handle → catalogue handle ≠ .pending) (canvas : Bitmap) :
    Carries catalogue font canvas op (Render.op catalogue font canvas op) := by
  cases op with
  | fill rect color => exact .fill rect color
  | image handle source target opacity =>
      obtain hpending | ⟨picture, hready⟩ := husable
      · exact absurd hpending (hcome handle rfl)
      · simp only [Render.op, hready]
        exact .image source target opacity hready
  | skin handle target =>
      obtain hpending | ⟨picture, hready, hsize⟩ := husable
      · exact absurd hpending (hcome handle rfl)
      · have hskin := Bitmap.isSkin_iff.mpr hsize
        simp only [Render.op, hready, hskin, if_true]
        exact .skin target hready hskin
  | text line x y color => exact .text line x y color
  | arrow x y color => exact .arrow x y color

theorem carriesAll_foldl {calls : List DrawCall} (husable : ∀ call ∈ calls, call.op.Usable catalogue)
    (hcome : ∀ call ∈ calls, ∀ handle, ¬call.Pending catalogue handle) (canvas : Bitmap) :
    CarriesAll catalogue font calls canvas
      (calls.foldl (fun canvas call => op catalogue font canvas call.op) canvas) := by
  induction calls generalizing canvas with
  | nil => exact .nil canvas
  | cons call rest ih =>
      rw [List.forall_mem_cons] at husable hcome
      have hfirst : Carries catalogue font canvas call.op (op catalogue font canvas call.op) := by
        apply carries_op husable.1
        intro handle hhandle hpending
        exact hcome.1 handle ⟨hhandle, hpending⟩
      exact .cons hfirst (ih husable.2 hcome.2 _)

end Render

/-! ## Drawings of moments -/

/-- What laying out, staging and rendering make of a moment. -/
structure Shot.Agrees (shot : Shot) (scene : Scene) (catalogue : Catalogue) (font : Font)
    (drawing : Drawing) : Prop where
  sorted : drawing.calls.Pairwise fun call next => call.layer.rank ≤ next.layer.rank
  usable : ∀ call ∈ drawing.calls, call.op.Usable catalogue
  wanted_uses : (shot.wanted font scene).filterMap DrawCall.use? = shot.uses scene
  serves : List.Forall₂ (DrawCall.Serves catalogue) (shot.wanted font scene) drawing.calls
  degraded_eq : drawing.degraded = (shot.uses scene).filterMap (PictureUse.fault? catalogue)
  staged : match drawing.staging catalogue with
    | .waiting layer handle =>
      (∃ call ∈ drawing.calls, call.layer = layer ∧ call.Pending catalogue handle) ∧
        ∀ call ∈ drawing.calls, ∀ other, call.Pending catalogue other →
          layer.rank ≤ call.layer.rank
    | .ready =>
      (∀ call ∈ drawing.calls, ∀ handle, ¬call.Pending catalogue handle) ∧
        Render.CarriesAll catalogue font drawing.calls
          (.filled drawing.width drawing.height .black) (drawing.render catalogue font)

/-- A moment can be laid out whatever has become of its pictures. The calls go up the layers; each use
of a picture that cannot be used is told of and replaced by a plain area; and the drawing waits for
the lowest layer whose picture is still to come, or else nothing is left out when it is rendered. -/
theorem Shot.exists_layout_agrees {shot : Shot} {scene : Scene}
    (hscene : shot.project.sceneAt shot.scene = .ok scene) (catalogue : Catalogue) (font : Font) :
    ∃ drawing, shot.layout catalogue font = .ok drawing ∧
      shot.Agrees scene catalogue font drawing := by
  have hserves := shot.serves_parts catalogue font scene
  have hsorted := (shot.rises_parts catalogue font scene).sorted
  have husable := DrawCall.usable_of_serves hserves.calls
  obtain ⟨drawing, hlayout, hcalls, hdegraded⟩ : ∃ drawing, shot.layout catalogue font = .ok drawing ∧
      drawing.calls = (shot.parts catalogue font scene).calls ∧
        drawing.degraded = (shot.parts catalogue font scene).degraded := by
    unfold layout
    rw [hscene]
    exact ⟨_, rfl, rfl, rfl⟩
  rw [← hcalls] at hsorted husable
  refine ⟨drawing, hlayout, hsorted, husable, hserves.uses_eq, ?_, ?_, ?_⟩
  · rw [hcalls]
    exact hserves.calls
  · rw [hdegraded]
    exact hserves.degraded_eq
  · have hstaging := drawing.staging_of_sorted catalogue hsorted
    cases hstaged : drawing.staging catalogue with
    | waiting layer handle =>
        rw [hstaged] at hstaging
        exact hstaging
    | ready =>
        rw [hstaged] at hstaging
        exact ⟨hstaging, Render.carriesAll_foldl husable hstaging _⟩

/-- A hall whose background cannot be loaded, with a character that is still to come. -/
def hall : Scene := { id := "hall", backgroundId := some "wall", characterId := some "fox" }

/-- Two answers in boxes with a skin of the wrong size, in a box with a skin still to come. -/
def hallTalk : Shot where
  project := {
    scenes := [hall]
    settings := { messageBoxImage := some "paper", choiceBoxImage := some "wood" } }
  scene := 0
  active := some (.dialogue "1" "" "Stay?" [{ text := "Yes" }, { text := "No" }])
  stage := {}
  view := {}
  hasFollowingContent := false

def hallPictures : Catalogue
  | "wall" => .failed "404"
  | "wood" => .ready (.filled 8 16 .black)
  | _ => .pending

theorem exists_layout_agrees_hallTalk :
    hallTalk.project.sceneAt hallTalk.scene = .ok hall ∧
      ∃ drawing, hallTalk.layout hallPictures .default = .ok drawing ∧
        hallTalk.Agrees hall hallPictures .default drawing ∧
        drawing.degraded =
          [.loadFailure "wall" "404", .malformedSkin "wood" 8 16, .malformedSkin "wood" 8 16] ∧
        drawing.staging hallPictures = .waiting .character "fox" := by
  have hscene : hallTalk.project.sceneAt hallTalk.scene = .ok hall := rfl
  obtain ⟨drawing, hlayout, hagrees⟩ := Shot.exists_layout_agrees hscene hallPictures .default
  have hstaging : (hallTalk.layout hallPictures .default).map (·.staging hallPictures) =
      .ok (.waiting .character "fox") := rfl
  rw [hlayout] at hstaging
  refine ⟨hscene, drawing, hlayout, hagrees, ?_, Except.ok.inj hstaging⟩
  rw [hagrees.degraded_eq]
  rfl

end SceneScript
