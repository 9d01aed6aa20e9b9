import SceneScript.Proofs.Picture.Area
import SceneScript.Proofs.Picture.Piece
import SceneScript.Proofs.Sequence

/-! # Rows of choices

The boxes that take clicks are the boxes that are drawn on the layer of the choices, one for each
choice and none over another, so that a point picks a choice exactly if it lies in its row.
-/

namespace SceneScript

/-! ## Boxes on a layer -/

/-- The rectangle of a box, with its skin or in a plain colour. -/
def DrawOp.box? : DrawOp → Option Rect
  | .fill rect _ => some rect
  | .skin _ rect => some rect
  | _ => none

namespace Layout

/-- The boxes that the part draws on the layer of the choices. -/
def Piece.choiceBoxes (part : Piece) : List Rect :=
  ((part.calls.filter (·.layer == .choices)).map (·.op)).filterMap DrawOp.box?

section Pieces

variable {layer : Layer} {part other : Piece} {catalogue : Catalogue} {font : Font}

@[simp] theorem Piece.choiceBoxes_append (part other : Piece) :
    (part ++ other).choiceBoxes = part.choiceBoxes ++ other.choiceBoxes := by
  simp [choiceBoxes]

theorem Piece.choiceBoxes_join (parts : List Piece) :
    (Piece.join parts).choiceBoxes = parts.flatMap Piece.choiceBoxes := by
  induction parts with
  | nil => rfl
  | cons part rest ih =>
      have hjoin : Piece.join (part :: rest) = part ++ Piece.join rest := rfl
      rw [hjoin, choiceBoxes_append, ih, List.flatMap_cons]

/-- What is drawn on other layers leaves no boxes on the layer of the choices. -/
theorem Piece.All.choiceBoxes (h : part.All (·.layer = layer)) (hlayer : layer ≠ .choices) :
    part.choiceBoxes = [] := by
  have hnone : part.calls.filter (·.layer == .choices) = [] := by
    apply List.filter_eq_nil_iff.mpr
    intro call hcall
    rw [h call hcall]
    simpa using hlayer
  rw [Piece.choiceBoxes, hnone]
  rfl

theorem choiceBoxes_skinnedBox (catalogue : Catalogue) (skin : Option String) (box : Rect)
    (plain : Color) : (skinnedBox catalogue .choices skin box plain).choiceBoxes = [box] := by
  unfold Piece.choiceBoxes
  rcases calls_skinnedBox catalogue .choices skin box plain with ⟨handle, -, hcalls⟩ | hcalls
  · rw [hcalls]
    rfl
  · rw [hcalls]
    rfl

/-- A choice is drawn with one box, its row. -/
theorem choiceBoxes_choice (skin : Option String) (row : Rect) (text : String) :
    (choice catalogue font skin row text).choiceBoxes = [row] := by
  have htext (line : String) (x y : Int32) (color : Color) :
      (Piece.ofOp .choices (.text line x y color)).choiceBoxes = [] := rfl
  rw [choice, Piece.choiceBoxes_append, htext, List.append_nil, choiceBoxes_skinnedBox]

end Pieces

/-! ## Rows -/

/-- The rows of the choices of a dialogue. -/
def rows (font : Font) (text : String) (choices : List Choice) : List Rect :=
  (choiceRows font text choices).map (·.2)

/-- The exact place of a row. -/
def rowArea (font : Font) (lines choices index : Nat) : Area :=
  let (height, space) := rowMetrics choices
  ⟨textX.toInt,
    textY.toInt + lines * font.lineHeight.toNat + 2 + index * (height.toNat + space.toNat),
    textWidth.toNat, height.toNat⟩

/-- All edges of the rows are words. -/
def RowsFit (font : Font) (text : String) (choices : List Choice) : Prop :=
  ∀ index < choices.length,
    (rowArea font (Wrap.lines font textWidth text).length choices.length index).Fits

instance (font : Font) (text : String) (choices : List Choice) :
    Decidable (RowsFit font text choices) :=
  inferInstanceAs (Decidable (∀ index < choices.length, _))

section Rows

variable {font : Font} {text : String} {choices : List Choice} {lines count index : Nat}

/-- A row has its exact place as long as its edges are words. -/
theorem area_choiceRow (h : (rowArea font lines count index).Fits) :
    (choiceRow font lines count index).area = rowArea font lines count index := by
  have hmetrics : ((rowMetrics count).1 + (rowMetrics count).2).toNat =
      (rowMetrics count).1.toNat + (rowMetrics count).2.toNat := by
    unfold rowMetrics
    split <;> rfl
  have hy : (choiceRow font lines count index).y = .ofInt (rowArea font lines count index).y := by
    simp only [choiceRow, rowArea, lineY, toInt32_eq_ofInt, hmetrics]
    push_cast
    simp only [Int32.ofInt_add, Int32.ofInt_mul, Int32.ofInt_eq_ofNat, Int32.ofInt_toInt]
    rfl
  obtain ⟨-, htop, hbottom⟩ := h
  have hlow : -2147483648 ≤ (rowArea font lines count index).y := htop
  have hhigh : (rowArea font lines count index).y + (rowArea font lines count index).height ≤
      2147483647 := hbottom
  rw [Rect.area, hy, Int32.toInt_ofInt_of_le (by omega) (by omega)]
  rfl

theorem rows_eq_map (font : Font) (text : String) (choices : List Choice) :
    rows font text choices = (List.range choices.length).map
      (choiceRow font (Wrap.lines font textWidth text).length choices.length) := by
  apply List.ext_getElem?
  intro index
  simp only [rows, choiceRows, List.map_map, List.getElem?_map, List.getElem?_zipIdx, Nat.zero_add,
    Option.map_map]
  by_cases hindex : index < choices.length
  · simp [hindex]
  · simp [hindex]

@[simp] theorem length_rows (font : Font) (text : String) (choices : List Choice) :
    (rows font text choices).length = choices.length := by
  simp [rows_eq_map]

/-- The boxes that take clicks are the rows, numbered from zero. -/
theorem hits_eq_map (font : Font) (text : String) (choices : List Choice) :
    hits font text choices = (rows font text choices).zipIdx.map
      fun (row, index) => ⟨row, .ofNat index⟩ := by
  rw [hits, rows, List.zipIdx_map, List.map_map]
  rfl

/-- Each row ends above the later ones. -/
theorem rowArea_above (font : Font) (lines count : Nat) {first second : Nat} (h : first < second) :
    (rowArea font lines count first).y + (rowArea font lines count first).height ≤
      (rowArea font lines count second).y := by
  simp only [rowArea]
  generalize (rowMetrics count).1.toNat = height
  generalize (rowMetrics count).2.toNat = space
  have hpitch : ((first : Int) + 1) * (height + space) ≤ second * (height + space) :=
    Int.mul_le_mul_of_nonneg_right (by omega) (by omega)
  rw [Int.add_mul] at hpitch
  omega

theorem disjoint_rows (h : RowsFit font text choices) :
    (rows font text choices).Pairwise fun row other => row.area.Disjoint other.area := by
  rw [List.pairwise_iff_getElem]
  intro first second hfirst hsecond hlt x y hcovers hcovers'
  rw [length_rows] at hfirst hsecond
  simp only [rows_eq_map, List.getElem_map, List.getElem_range] at hcovers hcovers'
  rw [area_choiceRow (h first hfirst)] at hcovers
  rw [area_choiceRow (h second hsecond)] at hcovers'
  have habove := rowArea_above font (Wrap.lines font textWidth text).length choices.length hlt
  have hbefore := hcovers.2.2.2
  have hbehind := hcovers'.2.2.1
  omega

theorem fits_of_mem_rows (h : RowsFit font text choices) {row : Rect}
    (hrow : row ∈ rows font text choices) : row.area.Fits := by
  rw [rows_eq_map] at hrow
  obtain ⟨index, hindex, rfl⟩ := List.mem_map.mp hrow
  have hfits := h index (List.mem_range.mp hindex)
  rw [area_choiceRow hfits]
  exact hfits

/-- Rows that fit are few enough to be counted. -/
theorem length_lt_of_rowsFit (h : RowsFit font text choices) :
    choices.length < UInt64.size := by
  cases hlength : choices.length with
  | zero => decide
  | succ last =>
      obtain ⟨-, -, hbottom⟩ := h last (by omega)
      simp only [rowArea] at hbottom
      have hmax : Int32.maxValue.toInt = 2147483647 := rfl
      have htop : textY.toInt = 130 := rfl
      have hpitch : (1 : Int) ≤ (rowMetrics choices.length).1.toNat +
          (rowMetrics choices.length).2.toNat := by
        unfold rowMetrics
        split <;> decide
      have hrows : (last : Int) * 1 ≤ last * ((rowMetrics choices.length).1.toNat +
          (rowMetrics choices.length).2.toNat) :=
        Int.mul_le_mul_of_nonneg_left hpitch (by omega)
      have hlines : 0 ≤ ((Wrap.lines font textWidth text).length : Int) * font.lineHeight.toNat :=
        Int.mul_nonneg (by omega) (by omega)
      have hsize : UInt64.size = 18446744073709551616 := rfl
      omega

theorem mem_hits {box : HitBox} :
    box ∈ hits font text choices ↔
      ∃ index row, (rows font text choices)[index]? = some row ∧ box = ⟨row, .ofNat index⟩ := by
  rw [hits_eq_map, List.mem_map]
  constructor
  · rintro ⟨⟨row, index⟩, hmem, rfl⟩
    exact ⟨index, row, List.mem_zipIdx_iff_getElem?.mp hmem, rfl⟩
  · rintro ⟨index, row, hrow, rfl⟩
    exact ⟨(row, index), List.mem_zipIdx_iff_getElem?.mpr hrow, rfl⟩

end Rows

end Layout

/-! ## Clicks -/

/-- Of boxes that do not lie over each other, the one that contains the point is found. -/
theorem HitBox.test_eq_some_iff {boxes : List HitBox} {x y : Int32} {index : Index}
    (h : boxes.Pairwise fun box other =>
      box.rect.contains x y = true → other.rect.contains x y = false) :
    HitBox.test boxes x y = some index ↔
      ∃ box ∈ boxes, box.rect.contains x y = true ∧ box.choice = index := by
  induction boxes with
  | nil => simp [test]
  | cons box rest ih =>
      obtain ⟨hfirst, hrest⟩ := List.pairwise_cons.mp h
      by_cases hcontains : box.rect.contains x y = true
      · have hothers : ∀ other ∈ rest, ¬other.rect.contains x y = true := by
          intro other hother
          rw [hfirst other hother hcontains]
          exact Bool.false_ne_true
        simp only [test, List.find?_cons, hcontains, Option.map_some, Option.some.injEq,
          List.mem_cons]
        constructor
        · intro hchoice
          exact ⟨box, .inl rfl, hcontains, hchoice⟩
        · rintro ⟨other, rfl | hother, hpoint, hchoice⟩
          · exact hchoice
          · exact absurd hpoint (hothers other hother)
      · have htest : HitBox.test (box :: rest) x y = HitBox.test rest x y := by
          simp [test, hcontains]
        rw [htest, ih hrest]
        simp [hcontains]

/-! ## Drawings of dialogues -/

/-- The choices of the dialogue that waits, and none without one. -/
def Shot.choices (shot : Shot) : List Choice :=
  match shot.dialogue? with
  | some (_, _, choices) => choices
  | none => []

def Shot.text (shot : Shot) : String :=
  match shot.dialogue? with
  | some (_, text, _) => text
  | none => ""

open Layout in
theorem Layout.choiceBoxes_dialogue (catalogue : Catalogue) (font : Font) (settings : Settings)
    (hasFollowingContent : Bool) (speaker text : String) (choices : List Choice) :
    (dialogue catalogue font settings hasFollowingContent speaker text choices).choiceBoxes =
      rows font text choices := by
  have hlayer : (skinnedBox catalogue .messageBox settings.messageBoxImage messageBox boxFill).All
      (·.layer = .messageBox) := all_skinnedBox catalogue rfl fun _ _ => rfl
  have hbox := hlayer.choiceBoxes nofun
  have hname : (name catalogue font settings.nameBoxImage speaker).choiceBoxes = [] :=
    (all_name catalogue font speaker (fun _ _ => rfl) (fun _ _ _ => rfl)
      fun _ _ _ _ => rfl).choiceBoxes nofun
  have hmessage : (message font (Wrap.lines font textWidth text)).choiceBoxes = [] :=
    (all_message font _ fun _ _ _ _ => rfl).choiceBoxes nofun
  simp only [dialogue, Piece.choiceBoxes_append, hbox, hname, hmessage, List.nil_append]
  cases choices with
  | nil => exact (all_arrow hasFollowingContent fun _ _ _ => rfl).choiceBoxes nofun
  | cons first rest =>
      simp only [List.isEmpty_cons, Bool.false_eq_true, if_false, Piece.choiceBoxes_join]
      rw [List.flatMap_map]
      simp only [choiceBoxes_choice]
      exact List.map_eq_flatMap.symm

open Layout in
theorem Shot.choiceBoxes_parts (shot : Shot) (catalogue : Catalogue) (font : Font) (scene : Scene) :
    (shot.parts catalogue font scene).choiceBoxes = rows font shot.text shot.choices := by
  have hbackground (shown : UInt8) : (background catalogue scene shown).choiceBoxes = [] :=
    (all_background catalogue shown (fun _ _ => rfl) fun _ _ _ _ _ => rfl).choiceBoxes nofun
  have hcharacter (animation : Option FrameAnimation) (clockMs : UInt64) (shown : UInt8) :
      (character catalogue scene animation clockMs shown).choiceBoxes = [] :=
    (all_character catalogue animation clockMs shown (fun _ _ => rfl)
      fun _ _ _ _ _ => rfl).choiceBoxes nofun
  have hindex : (if shot.view.showSceneIndex then sceneIndex font shot.scene
      else {}).choiceBoxes = [] := by
    split
    · exact (all_sceneIndex font shot.scene (fun _ _ => rfl) fun _ _ _ _ => rfl).choiceBoxes nofun
    · rfl
  simp only [parts, Piece.choiceBoxes_append, hbackground, hcharacter, hindex, List.nil_append,
    List.append_nil, Shot.text, Shot.choices]
  cases shot.dialogue? with
  | none => rfl
  | some said => exact choiceBoxes_dialogue _ _ _ _ _ _ _

open Layout in
/-- A point picks a choice exactly if it lies in the row of that choice. -/
theorem Layout.test_hits_iff {font : Font} {text : String} {choices : List Choice}
    (h : RowsFit font text choices) {x y : Int32} {index : Index} :
    HitBox.test (hits font text choices) x y = some index ↔
      ∃ row, (rows font text choices)[index.toNat]? = some row ∧
        row.area.Covers x.toInt y.toInt := by
  have hapart : (hits font text choices).Pairwise fun box other =>
      box.rect.contains x y = true → other.rect.contains x y = false := by
    have hrects : (hits font text choices).map (·.rect) = rows font text choices := by
      rw [hits_eq_map, List.map_map]
      exact List.zipIdx_map_fst 0 _
    have hdisjoint := disjoint_rows h
    rw [← hrects, List.pairwise_map] at hdisjoint
    have hfit : ∀ box ∈ hits font text choices, box.rect.area.Fits := by
      intro box hbox
      apply fits_of_mem_rows h
      rw [← hrects]
      exact List.mem_map_of_mem hbox
    apply hdisjoint.imp_of_mem
    intro box other hbox hother hapart hcontains
    rw [Bool.eq_false_iff]
    intro hcontains'
    exact hapart _ _ ((Rect.contains_iff (hfit box hbox)).mp hcontains)
      ((Rect.contains_iff (hfit other hother)).mp hcontains')
  rw [HitBox.test_eq_some_iff hapart]
  constructor
  · rintro ⟨box, hbox, hcontains, rfl⟩
    obtain ⟨place, row, hrow, rfl⟩ := mem_hits.mp hbox
    have hplace : place < choices.length := by
      rw [← length_rows font text choices]
      exact (List.getElem?_eq_some_iff.mp hrow).1
    have hindex : (UInt64.ofNat place).toNat = place :=
      UInt64.toNat_ofNat_of_lt (Nat.lt_trans hplace (length_lt_of_rowsFit h))
    have hfits := fits_of_mem_rows h (List.mem_of_getElem? hrow)
    refine ⟨row, ?_, (Rect.contains_iff hfits).mp hcontains⟩
    rw [hindex]
    exact hrow
  · rintro ⟨row, hrow, hcovers⟩
    have hfits := fits_of_mem_rows h (List.mem_of_getElem? hrow)
    refine ⟨⟨row, index⟩, mem_hits.mpr ⟨index.toNat, row, hrow, ?_⟩,
      (Rect.contains_iff hfits).mpr hcovers, rfl⟩
    rw [UInt64.ofNat_toNat]

open Layout in
/-- The boxes that take clicks are the boxes drawn on the layer of the choices, one for each choice
and in their order. No point lies in two of them, and a point picks a choice exactly if it lies in
its box. Without choices no point picks anything. -/
theorem Shot.exists_layout_boxes {shot : Shot} {scene : Scene} {font : Font}
    (hscene : shot.project.sceneAt shot.scene = .ok scene)
    (hfits : RowsFit font shot.text shot.choices) (catalogue : Catalogue) :
    ∃ drawing boxes, shot.layout catalogue font = .ok drawing ∧
      boxes = (drawing.layerOps .choices).filterMap DrawOp.box? ∧
      boxes.length = shot.choices.length ∧
      drawing.hits = boxes.zipIdx.map (fun (row, index) => ⟨row, .ofNat index⟩) ∧
      (boxes.Pairwise fun row other => row.area.Disjoint other.area) ∧
      (∀ x y index, HitBox.test drawing.hits x y = some index ↔
        ∃ row, boxes[index.toNat]? = some row ∧ row.area.Covers x.toInt y.toInt) ∧
      (shot.choices = [] → drawing.hits = [] ∧ ∀ x y, HitBox.test drawing.hits x y = none) := by
  have hboxes := shot.choiceBoxes_parts catalogue font scene
  have hhits : (match shot.dialogue? with
      | some (_, text, choices) => hits font text choices
      | none => []) = hits font shot.text shot.choices := by
    unfold Shot.text Shot.choices
    cases shot.dialogue? <;> rfl
  have hlayout : shot.layout catalogue font = .ok {
      width := canvasWidth
      height := canvasHeight
      calls := (shot.parts catalogue font scene).calls
      hits := hits font shot.text shot.choices
      degraded := (shot.parts catalogue font scene).degraded } := by
    unfold Shot.layout
    rw [hscene, ← hhits]
    rfl
  refine ⟨_, rows font shot.text shot.choices, hlayout, hboxes.symm, length_rows _ _ _,
    hits_eq_map _ _ _, disjoint_rows hfits, fun x y index => test_hits_iff hfits, ?_⟩
  intro hnone
  have hempty : hits font shot.text shot.choices = [] := by
    rw [hnone]
    rfl
  refine ⟨hempty, ?_⟩
  intro x y
  rw [hempty]
  rfl

def pollRoom : Scene := { id := "room" }

/-- A question in two lines with four answers, which takes low rows. -/
def poll : Shot where
  project := { scenes := [pollRoom], settings := { choiceBoxImage := some "wood" } }
  scene := 0
  active := some (.dialogue "1" "Ann" "Where to?\nSay it" [
    { text := "North" }, { text := "East" }, { text := "South" }, { text := "West" }])
  stage := {}
  view := {}
  hasFollowingContent := true

/-- The skin of the boxes of choices has not come. -/
def pollPictures : Catalogue := fun _ => .pending

theorem exists_layout_boxes_poll :
    Layout.RowsFit .default poll.text poll.choices ∧
      ∃ drawing boxes, poll.layout pollPictures .default = .ok drawing ∧
        boxes = (drawing.layerOps .choices).filterMap DrawOp.box? ∧ boxes.length = 4 ∧
        ∀ x y index, HitBox.test drawing.hits x y = some index ↔
          ∃ row, boxes[index.toNat]? = some row ∧ row.area.Covers x.toInt y.toInt := by
  have hscene : poll.project.sceneAt poll.scene = .ok pollRoom := rfl
  have hfits : Layout.RowsFit .default poll.text poll.choices := by decide +kernel
  obtain ⟨drawing, boxes, hlayout, hboxes, hlength, -, -, htest, -⟩ :=
    Shot.exists_layout_boxes hscene hfits pollPictures
  exact ⟨hfits, drawing, boxes, hlayout, hboxes, hlength, htest⟩

end SceneScript
