import SceneScript.Proofs.Picture.ChoiceRows

/-! # Choices within reach

Rows of choices go down from the text and nothing stops them at the edge of the canvas. A choice can
be clicked exactly if its row begins on the canvas.
-/

namespace SceneScript

/-- Some pixel of the canvas picks the choice. -/
def Drawing.Offers (drawing : Drawing) (choice : Index) : Prop :=
  ∃ x y : Int32, Layout.canvas.area.Covers x.toInt y.toInt ∧
    HitBox.test drawing.hits x y = some choice

/-- The box of the choice begins at that height. -/
def Drawing.Begins (drawing : Drawing) (index top : Nat) : Prop :=
  ∃ row : Rect, drawing.hits[index]? = some ⟨row, .ofNat index⟩ ∧ row.y.toInt = top

namespace Layout

variable {font : Font} {text : String} {choices : List Choice} {lines count index : Nat}

/-! ## The first row that contains a point -/

theorem hits_eq_range (font : Font) (text : String) (choices : List Choice) :
    hits font text choices = (List.range choices.length).map fun index =>
      ⟨choiceRow font (Wrap.lines font textWidth text).length choices.length index,
        .ofNat index⟩ := by
  apply List.ext_getElem?
  intro index
  rw [hits_eq_map, rows_eq_map]
  by_cases hindex : index < choices.length
  · simp [hindex]
  · simp [hindex]

/-- All rows above one that has its exact place have theirs. -/
theorem fits_of_lt {first second : Nat} (h : first < second)
    (hfits : (rowArea font lines count second).Fits) : (rowArea font lines count first).Fits := by
  obtain ⟨hsides, -, hbottom⟩ := hfits
  refine ⟨hsides, ?_, ?_⟩
  · have hmin : Int32.minValue.toInt = -2147483648 := rfl
    have htop : textY.toInt = 130 := rfl
    simp only [rowArea]
    have hlines : 0 ≤ (lines : Int) * font.lineHeight.toNat :=
      Int.mul_nonneg (by omega) (by omega)
    have hrows : 0 ≤ (first : Int) * ((rowMetrics count).1.toNat + (rowMetrics count).2.toNat) :=
      Int.mul_nonneg (by omega) (by omega)
    omega
  · have habove := rowArea_above font lines count h
    omega

/-- No other row needs to have its exact place for a point of this one to pick its choice. -/
theorem test_hits_of_covers {x y : Int32} (hlines : (Wrap.lines font textWidth text).length = lines)
    (hindex : index < choices.length) (hfits : (rowArea font lines choices.length index).Fits)
    (hcovers : (rowArea font lines choices.length index).Covers x.toInt y.toInt) :
    HitBox.test (hits font text choices) x y = some (.ofNat index) := by
  have hcontains : (choiceRow font lines choices.length index).contains x y = true := by
    have harea := area_choiceRow hfits
    rw [Rect.contains_iff (by rwa [harea]), harea]
    exact hcovers
  have habove : ∀ earlier < index,
      (choiceRow font lines choices.length earlier).contains x y = false := by
    intro earlier hearlier
    have hfits' := fits_of_lt hearlier hfits
    have harea := area_choiceRow hfits'
    rw [Bool.eq_false_iff, Ne, Rect.contains_iff (by rwa [harea]), harea]
    intro hcovers'
    have hedge := rowArea_above font lines choices.length hearlier
    have hbelow := hcovers'.2.2.2
    have htop := hcovers.2.2.1
    omega
  have hfind : (List.range choices.length).find? (fun index =>
      (choiceRow font lines choices.length index).contains x y) = some index := by
    rw [List.find?_range_eq_some]
    refine ⟨hcontains, List.mem_range.mpr hindex, ?_⟩
    intro earlier hearlier
    rw [habove earlier hearlier, Bool.not_false]
  rw [HitBox.test, hits_eq_range, hlines, List.find?_map]
  simp only [Function.comp_def, hfind, Option.map_some]

/-! ## Rows in the default font -/

/-- Where the row of a choice begins, below so many lines of text. -/
def rowTop (lines choices index : Nat) : Nat :=
  132 + 12 * lines + (if choices ≤ 3 then 16 else 11) * index

theorem rowArea_default (lines choices index : Nat) :
    rowArea .default lines choices index =
      ⟨12, rowTop lines choices index, 232, if choices ≤ 3 then 14 else 10⟩ := by
  have htop : textY.toInt = 130 := rfl
  have hline : Font.default.lineHeight.toNat = 12 := rfl
  by_cases hfew : choices ≤ 3
  · have hplace : (130 : Int) + lines * (12 : Nat) + 2 + index * (16 : Nat) =
        (132 + 12 * lines + 16 * index : Nat) := by omega
    simp only [rowArea, rowMetrics, rowTop, if_pos hfew, htop, hline]
    rw [← hplace]
    rfl
  · have hplace : (130 : Int) + lines * (12 : Nat) + 2 + index * (11 : Nat) =
        (132 + 12 * lines + 11 * index : Nat) := by omega
    simp only [rowArea, rowMetrics, rowTop, if_neg hfew, htop, hline]
    rw [← hplace]
    rfl

theorem area_canvas : canvas.area = ⟨0, 0, 256, 192⟩ := rfl

theorem fits_of_rowTop_lt (h : rowTop lines count index < 192) :
    (rowArea .default lines count index).Fits := by
  have hmin : Int32.minValue.toInt = -2147483648 := rfl
  have hmax : Int32.maxValue.toInt = 2147483647 := rfl
  rw [rowArea_default]
  simp only [Area.Fits, hmin, hmax]
  split <;> omega

variable {drawing : Drawing}

theorem begins_of_fits (hhits : drawing.hits = hits .default text choices)
    (hindex : index < choices.length)
    (hfits : (rowArea .default (Wrap.lines .default textWidth text).length choices.length
      index).Fits) :
    drawing.Begins index
      (rowTop (Wrap.lines .default textWidth text).length choices.length index) := by
  refine ⟨choiceRow .default (Wrap.lines .default textWidth text).length choices.length index,
    ?_, ?_⟩
  · rw [hhits, hits_eq_range, List.getElem?_map, List.getElem?_range hindex, Option.map_some]
  · have harea := area_choiceRow hfits
    rw [rowArea_default] at harea
    exact congrArg Area.y harea

/-- The corner of a row that begins on the canvas is a pixel of the canvas. -/
theorem offers_of_rowTop_lt (hhits : drawing.hits = hits .default text choices)
    (hindex : index < choices.length)
    (htop : rowTop (Wrap.lines .default textWidth text).length choices.length index < 192) :
    drawing.Offers (.ofNat index) := by
  have hfits := fits_of_rowTop_lt htop
  generalize htops : rowTop (Wrap.lines .default textWidth text).length choices.length index = top
    at htop
  have hx : (12 : Int32).toInt = 12 := rfl
  have hy : (Int32.ofNat top).toInt = top := Int32.toInt_ofNat_of_lt (by omega)
  refine ⟨12, .ofNat top, ?_, ?_⟩
  · rw [area_canvas, hx, hy]
    simp only [Area.Covers]
    omega
  · rw [hhits]
    apply test_hits_of_covers rfl hindex hfits
    rw [rowArea_default, hx, hy, htops]
    simp only [Area.Covers]
    split <;> omega

/-- A pixel of a row lies no higher than the row begins. -/
theorem rowTop_lt_of_offers (hhits : drawing.hits = hits .default text choices)
    (hfits : RowsFit .default text choices) (hindex : index < choices.length)
    (hoffers : drawing.Offers (.ofNat index)) :
    rowTop (Wrap.lines .default textWidth text).length choices.length index < 192 := by
  obtain ⟨x, y, hcanvas, htest⟩ := hoffers
  rw [hhits, test_hits_iff hfits] at htest
  obtain ⟨row, hrow, hcovers⟩ := htest
  have hplace : (UInt64.ofNat index).toNat = index :=
    UInt64.toNat_ofNat_of_lt (Nat.lt_trans hindex (length_lt_of_rowsFit hfits))
  rw [hplace, rows_eq_map, List.getElem?_map, List.getElem?_range hindex, Option.map_some] at hrow
  cases hrow
  rw [area_choiceRow (hfits index hindex), rowArea_default] at hcovers
  rw [area_canvas] at hcanvas
  have htop := hcovers.2.2.1
  have hedge := hcanvas.2.2.2
  dsimp only at htop hedge
  omega

end Layout

/-! ## Drawings of dialogues -/

theorem Shot.exists_layout {shot : Shot} {scene : Scene}
    (hscene : shot.project.sceneAt shot.scene = .ok scene) (catalogue : Catalogue) (font : Font) :
    ∃ drawing, shot.layout catalogue font = .ok drawing ∧
      drawing.hits = Layout.hits font shot.text shot.choices := by
  unfold layout
  rw [hscene]
  refine ⟨_, rfl, ?_⟩
  unfold Shot.text Shot.choices
  cases shot.dialogue? <;> rfl

/-- How many lines the text of the dialogue takes. -/
def Shot.lineCount (shot : Shot) : Nat :=
  (Wrap.lines .default Layout.textWidth shot.text).length

/-- In the default font, whatever the text and the choices, each choice whose row begins on the
canvas can be clicked. The others cannot, as long as all edges of the rows are words. -/
theorem Shot.offers_by_rowTop {shot : Shot} {scene : Scene}
    (hscene : shot.project.sceneAt shot.scene = .ok scene) (catalogue : Catalogue) :
    ∃ drawing, shot.layout catalogue .default = .ok drawing ∧
      (∀ index < shot.choices.length,
        Layout.rowTop shot.lineCount shot.choices.length index < 192 →
          drawing.Begins index (Layout.rowTop shot.lineCount shot.choices.length index) ∧
            drawing.Offers (.ofNat index)) ∧
      (Layout.RowsFit .default shot.text shot.choices → ∀ index < shot.choices.length,
        drawing.Begins index (Layout.rowTop shot.lineCount shot.choices.length index) ∧
          (drawing.Offers (.ofNat index) →
            Layout.rowTop shot.lineCount shot.choices.length index < 192)) := by
  obtain ⟨drawing, hlayout, hhits⟩ := shot.exists_layout hscene catalogue .default
  refine ⟨drawing, hlayout, ?_, ?_⟩
  · intro index hindex htop
    have hfits := Layout.fits_of_rowTop_lt htop
    exact ⟨Layout.begins_of_fits hhits hindex hfits, Layout.offers_of_rowTop_lt hhits hindex htop⟩
  · intro hfits index hindex
    refine ⟨Layout.begins_of_fits hhits hindex (hfits index hindex), fun hoffers => ?_⟩
    exact Layout.rowTop_lt_of_offers hhits hfits hindex hoffers

/-! ## A vote and a riddle -/

/-- One line of text and six choices: the row of the sixth begins below the canvas. -/
def vote : Shot := { poll with
  active := some (.dialogue "1" "Ann" "Who leads?" [
    { text := "Ann" }, { text := "Bea" }, { text := "Cai" }, { text := "Dov" }, { text := "Eli" },
    { text := "Flo" }]) }

theorem offers_by_rowTop_vote :
    vote.project.sceneAt vote.scene = .ok pollRoom ∧
      Layout.RowsFit .default vote.text vote.choices ∧
      ∃ drawing, vote.layout pollPictures .default = .ok drawing ∧
        (∀ index < 5, drawing.Offers (.ofNat index)) ∧ drawing.Begins 5 199 ∧
          ¬drawing.Offers 5 := by
  have hscene : vote.project.sceneAt vote.scene = .ok pollRoom := rfl
  have hfits : Layout.RowsFit .default vote.text vote.choices := by decide +kernel
  have hlines : vote.lineCount = 1 := by decide +kernel
  have hlength : vote.choices.length = 6 := rfl
  obtain ⟨drawing, hlayout, hoffers, honly⟩ := Shot.offers_by_rowTop hscene pollPictures
  rw [hlines, hlength] at hoffers honly
  obtain ⟨hbegins, hsixth⟩ := honly hfits 5 (by omega)
  refine ⟨hscene, hfits, drawing, hlayout, ?_, hbegins, ?_⟩
  · intro index hindex
    have htop : Layout.rowTop 1 6 index < 192 := by
      rw [Layout.rowTop, if_neg (by decide)]
      omega
    exact (hoffers index (by omega) htop).2
  · intro hoffered
    exact absurd (hsixth hoffered) (by decide)

/-- Five lines of text leave no room for the only choice. -/
def riddle : Shot := { poll with
  active := some (.dialogue "1" "Ann" "It walks\non four\nthen two\nthen three\nWhat is it?" [
    { text := "A man" }]) }

/-- No pixel of the canvas answers the riddle. -/
theorem not_offers_riddle :
    riddle.choices.length = 1 ∧
      ∃ drawing, riddle.layout pollPictures .default = .ok drawing ∧ ¬drawing.Offers 0 := by
  have hscene : riddle.project.sceneAt riddle.scene = .ok pollRoom := rfl
  have hfits : Layout.RowsFit .default riddle.text riddle.choices := by decide +kernel
  have hlines : (Wrap.lines .default Layout.textWidth riddle.text).length = 5 := by
    decide +kernel
  obtain ⟨drawing, hlayout, hhits⟩ := riddle.exists_layout hscene pollPictures .default
  refine ⟨rfl, drawing, hlayout, ?_⟩
  intro hoffers
  have hfirst : drawing.Offers (.ofNat 0) := hoffers
  have htop := Layout.rowTop_lt_of_offers hhits hfits (by decide) hfirst
  rw [hlines] at htop
  exact absurd htop (by decide)

end SceneScript
