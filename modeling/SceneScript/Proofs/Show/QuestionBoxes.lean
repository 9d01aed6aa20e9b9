import SceneScript.Proofs.Picture.Footprint
import SceneScript.Proofs.Picture.Reach
import SceneScript.Proofs.Show.Clicks
import SceneScript.Show.Recording

/-! # Boxes of questions

Every choice of a question can be found by its number among the boxes of the last frame, provided that
no picture is awaited, and the middle of its box picks it.
-/

namespace SceneScript

/-! ## Middles of boxes -/

theorem toInt_half {length : UInt32} (h : length.toNat ≤ Int32.maxValue.toInt) :
    (length.toInt32 / 2).toInt = length.toNat / 2 := by
  have hmax : Int32.maxValue.toInt = 2147483647 := rfl
  have hvalue : length.toInt32.toInt = length.toNat := by
    rw [toInt32_eq_ofInt, Int32.toInt_ofInt_of_le (by omega) (by omega)]
  have htwo : (2 : Int32).toInt = 2 := rfl
  rw [Int32.toInt_div, hvalue, htwo, Int.tdiv_eq_ediv_of_nonneg (by omega)]
  exact Int.bmod_eq_of_le (by omega) (by omega)

/-- The middle of a box that is not empty lies in the box. -/
theorem Rect.covers_middle {rect : Rect} (h : rect.area.Fits)
    (hwidth : 0 < rect.width.toNat ∧ rect.width.toNat ≤ Int32.maxValue.toInt)
    (hheight : 0 < rect.height.toNat ∧ rect.height.toNat ≤ Int32.maxValue.toInt) :
    rect.area.Covers (Recording.middle rect).1.toInt (Recording.middle rect).2.toInt := by
  obtain ⟨⟨hleft, hright⟩, htop, hbottom⟩ := h
  have hmin : Int32.minValue.toInt = -2147483648 := rfl
  have hmax : Int32.maxValue.toInt = 2147483647 := rfl
  have hx := toInt_half hwidth.2
  have hy := toInt_half hheight.2
  simp only [Rect.area] at hleft hright htop hbottom
  have hmiddle : (rect.x + rect.width.toInt32 / 2).toInt = rect.x.toInt + rect.width.toNat / 2 := by
    rw [toInt_add_of_fits (by omega) (by omega), hx]
  have hcenter : (rect.y + rect.height.toInt32 / 2).toInt =
      rect.y.toInt + rect.height.toNat / 2 := by
    rw [toInt_add_of_fits (by omega) (by omega), hy]
  simp only [Rect.area, Area.Covers, Recording.middle, hmiddle, hcenter]
  omega

namespace Layout

variable {font : Font} {text : String} {choices : List Choice} {index : Index}

/-- The box of a choice, as it is looked up. -/
theorem find?_hits (h : index.toNat < choices.length) :
    (hits font text choices).find? (·.choice == index) =
      some ⟨choiceRow font (Wrap.lines font textWidth text).length choices.length index.toNat,
        index⟩ := by
  have hfind : (List.range choices.length).find? (fun place => UInt64.ofNat place == index) =
      some index.toNat := by
    rw [List.find?_range_eq_some]
    refine ⟨by simp, List.mem_range.mpr h, fun earlier hearlier => ?_⟩
    have hne : UInt64.ofNat earlier ≠ index := by
      intro heq
      have hsame : earlier % UInt64.size = index.toNat := by
        rw [← heq]
        rfl
      have hle := Nat.mod_le earlier UInt64.size
      omega
    simpa using hne
  rw [hits_eq_range, List.find?_map]
  simp only [Function.comp_def, hfind, Option.map_some, UInt64.ofNat_toNat]

/-- A click into the middle of a row picks the choice of the row. -/
theorem test_middle (hindex : index.toNat < choices.length) (hfits : RowsFit font text choices) :
    let row := choiceRow font (Wrap.lines font textWidth text).length choices.length index.toNat
    HitBox.test (hits font text choices) (Recording.middle row).1 (Recording.middle row).2 =
      some index := by
  intro row
  have hfit := hfits index.toNat hindex
  have harea := area_choiceRow hfit
  have hsize : (0 < row.width.toNat ∧ row.width.toNat ≤ Int32.maxValue.toInt) ∧
      (0 < row.height.toNat ∧ row.height.toNat ≤ Int32.maxValue.toInt) := by
    have hwidth : row.width = 232 := rfl
    refine ⟨by rw [hwidth]; decide, ?_⟩
    have hheight : row.height = 14 ∨ row.height = 10 := by
      simp only [row, choiceRow, rowMetrics]
      split
      · exact .inl rfl
      · exact .inr rfl
    rcases hheight with hheight | hheight <;> rw [hheight] <;> decide
  have hcovers : row.area.Covers (Recording.middle row).1.toInt (Recording.middle row).2.toInt :=
    Rect.covers_middle (by rwa [harea]) hsize.1 hsize.2
  rw [harea] at hcovers
  have htest := test_hits_of_covers rfl hindex hfit hcovers
  rwa [UInt64.ofNat_toNat] at htest

end Layout

/-! ## Frames of questions -/

namespace Player

variable {player : Player} {catalogue : Catalogue} {now : Duration} {count : Index}

/-- The complete drawing of a dialogue that waits has the boxes of its choices. -/
theorem laidOut_of_dialogue {drawing : Drawing} {command : Command} {speaker text : String}
    {choices : List Choice} (h : player.here? catalogue now = some drawing)
    (hwaiting : player.waiting ≠ .nothing) (hfinished : player.interpreter.state.finished = false)
    (hcommand : player.project.commandAt player.position = .ok command)
    (haction : command.action = .dialogue speaker text choices) :
    LaidOut player.project player.font player.position text choices drawing := by
  obtain ⟨shot, hshot, hlayout⟩ := bind_eq_ok.mp (stagedDrawing?_eq_some.mp h).1
  obtain ⟨active, follows, hactive, -, rfl⟩ := ofState_eq_ok.mp (mapError_eq_ok.mp hshot)
  have hwaits : player.interpreter.state.isWaiting = true := by
    have hne : player.interpreter.state.waiting ≠ .nothing := hwaiting
    simpa [State.isWaiting] using hne
  have hsame : active = some command := by
    rw [State.activeCommand, hwaits, hfinished] at hactive
    change (player.project.commandAt player.position).map some = .ok active at hactive
    rw [hcommand] at hactive
    cases hactive
    rfl
  refine ⟨⟨command, speaker, hcommand, haction⟩, ?_⟩
  obtain ⟨scene, -, hdrawing⟩ := bind_eq_ok.mp (mapError_eq_ok.mp hlayout)
  cases pure_eq_ok.mp hdrawing
  obtain ⟨id, action⟩ := command
  cases haction
  rw [hsame]
  rfl

/-- Where nothing is awaited, the last frame of a question has drawn its boxes. -/
theorem Intact.exists_laidOut (h : player.Intact) (hsettled : ∀ handle, catalogue handle ≠ .pending)
    (hidle : (player.frame catalogue now).1.inTransition = false)
    (hfinished : (player.frame catalogue now).1.interpreter.state.finished = false)
    (hwaiting : (player.frame catalogue now).1.waiting = .choice count) :
    ∃ drawing text choices, (player.frame catalogue now).1.drawing = some drawing ∧
      LaidOut player.project player.font (player.frame catalogue now).1.position text choices
        drawing ∧ count = .ofNat choices.length := by
  have hstored := h.drawing_frame catalogue now
  have hintact := h.frame catalogue now
  obtain ⟨hproject, hfont⟩ := h.sameShow_frame catalogue now
  rw [← hproject, ← hfont]
  generalize (player.frame catalogue now).1 = drawn at *
  have hwaits : drawn.waiting ≠ .nothing := fun hnothing => by
    cases hwaiting.symm.trans hnothing
  have hstands := hintact.stands.of_waiting hwaits
  obtain ⟨drawing, hdrawing⟩ := exists_drawingOf hstands drawn.clock catalogue now
  have hhere : drawn.here? catalogue now = some drawing := by
    rw [here?, stagedDrawing?_eq_some]
    exact ⟨hdrawing, by rw [Drawing.staging_of_settled hsettled]; rfl⟩
  obtain ⟨command, hcommand, speaker, text, choices, haction, -, rfl⟩ :=
    hstands.suits hwaiting nofun
  refine ⟨drawing, text, choices, ?_, ?_, rfl⟩
  · rw [hstored, onShow?, hidle]
    simp only [Bool.false_eq_true, if_false, hhere, Option.some_or]
  · exact laidOut_of_dialogue hhere hwaits hfinished hcommand haction

/-- A click into the middle of the row of a choice gives the choice, unless a command behind it
fails. -/
theorem Intact.click_middle {project : Project} {font : Font} {drawing : Drawing} {text : String}
    {choices : List Choice} {index : Index} (h : player.Intact)
    (hwaiting : player.waiting = .choice count) (hdrawing : player.drawing = some drawing)
    (hlaid : LaidOut project font player.position text choices drawing) (hbelow : index < count)
    (hindex : index.toNat < choices.length) (hfits : Layout.RowsFit font text choices)
    (catalogue : Catalogue) (now : Duration) :
    let row := Layout.choiceRow font (Wrap.lines font Layout.textWidth text).length choices.length
      index.toNat
    let clicked := player.click (Recording.middle row).1 (Recording.middle row).2 catalogue now
    clicked.2 = .ok (.chose index) ∨
      ∃ fault, clicked.2 = .error (.script fault) ∧
        ∀ refused total, fault ≠ .invalidChoice refused total := by
  have hhit := Layout.test_middle hindex hfits
  rw [← hlaid.hits] at hhit
  refine (h.click_answer hwaiting hdrawing hhit catalogue now).imp_right ?_
  rintro ⟨fault, hfault, hcommand | ⟨hbeyond, -⟩⟩
  · exact ⟨fault, hfault, hcommand.ne_invalidChoice⟩
  · exact absurd hbelow (UInt64.not_lt.mpr hbeyond)

end Player

end SceneScript
