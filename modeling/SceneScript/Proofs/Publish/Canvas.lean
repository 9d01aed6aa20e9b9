import SceneScript.Proofs.Publish.Page

/-! # The size of the canvas

The canvas of a page is enlarged by the scale. No page is made where a side is no word of 32 bits.
-/

namespace SceneScript

open Marks

namespace Html

/-- The style of the canvas of a page. -/
def canvasStyle? (page : String) : Option String := do
  let (_, attributes) ← cut? "<canvas ".toList page.toList
  let (_, behind) ← cut? "style=\"".toList attributes
  let (style, _) ← cut? ['"'] behind
  return .ofList style

/-- The style for a canvas of this size. -/
def sizeStyle (width height : Nat) : String := s!"width:{width}px;height:{height}px"

/-! ## Sizes -/

theorem toList_sizeStyle (width height : Nat) :
    (sizeStyle width height).toList = "width:".toList ++ (Nat.toDigits 10 width ++
      ('p' :: ("x;height:".toList ++ (Nat.toDigits 10 height ++ ['p', 'x'])))) := by
  have hpixels : "px;height:".toList = 'p' :: "x;height:".toList := cons_literal rfl rfl
  have hend : "px".toList = ['p', 'x'] := toList_literal rfl
  change ("width:" ++ width.repr ++ "px;height:" ++ height.repr ++ "px").toList = _
  simp only [String.toList_append, Nat.toList_repr, hpixels, hend, List.append_assoc,
    List.cons_append]

/-- Numbers in front of the same unit are the same, and so is what stands behind them. -/
theorem toDigits_append_inj {m n : Nat} {text other : List Char}
    (h : Nat.toDigits 10 m ++ 'p' :: text = Nat.toDigits 10 n ++ 'p' :: other) :
    m = n ∧ text = other := by
  have hcut (k : Nat) (later : List Char) :
      cut? ['p'] (Nat.toDigits 10 k ++ 'p' :: later) = some (Nat.toDigits 10 k, later) :=
    cut?_append List.not_mem_nil
      fun hfound => not_mem_toDigits (by decide) k (hfound.subset List.mem_cons_self)
  have hpair := Option.some.inj ((hcut m text).symm.trans ((congrArg _ h).trans (hcut n other)))
  obtain ⟨hdigits, hlater⟩ := Prod.mk.inj hpair
  have hvalue : m = n := calc
    m = Nat.ofDigitChars 10 (Nat.toDigits 10 m) 0 := Nat.ofDigitChars_ten_toDigits.symm
    _ = Nat.ofDigitChars 10 (Nat.toDigits 10 n) 0 := by rw [hdigits]
    _ = n := Nat.ofDigitChars_ten_toDigits
  exact ⟨hvalue, hlater⟩

theorem sizeStyle_inj {width height width' height' : Nat} :
    sizeStyle width height = sizeStyle width' height' ↔ width = width' ∧ height = height' := by
  refine ⟨fun h => ?_, fun ⟨hwidth, hheight⟩ => by rw [hwidth, hheight]⟩
  have hchars := congrArg String.toList h
  rw [toList_sizeStyle, toList_sizeStyle] at hchars
  obtain ⟨hwidth, hbehind⟩ := toDigits_append_inj (List.append_cancel_left hchars)
  obtain ⟨hheight, -⟩ := toDigits_append_inj (List.append_cancel_left hbehind)
  exact ⟨hwidth, hheight⟩

/-! ## The canvas of a page -/

def canvasAttributes : String := "id=\"vn-canvas\" width=\"256\" height=\"192\" "

theorem canvas_eq (width height : UInt32) :
    canvas width height = "<canvas " ++ (canvasAttributes ++ ("style=\"" ++
      (sizeStyle width.toNat height.toNat ++ ("\"" ++ "></canvas>\n")))) := by
  have hopening : "<canvas id=\"vn-canvas\" width=\"256\" height=\"192\" " =
      "<canvas " ++ canvasAttributes := rfl
  have hstyle : "style=\"width:" = "style=\"" ++ "width:" := rfl
  have hend : "px\"></canvas>\n" = "px" ++ ("\"" ++ "></canvas>\n") := rfl
  change "<canvas id=\"vn-canvas\" width=\"256\" height=\"192\" " ++
    ("style=\"width:" ++ width.toNat.repr ++ "px;height:" ++ height.toNat.repr ++
      "px\"></canvas>\n") = _ ++ (_ ++ (_ ++
        (("width:" ++ width.toNat.repr ++ "px;height:" ++ height.toNat.repr ++ "px") ++ _)))
  rw [hopening, hstyle, hend]
  simp only [String.append_assoc]

theorem not_mem_sizeStyle (width height : Nat) : '"' ∉ (sizeStyle width height).toList := by
  have hquote (n : Nat) : '"' ∉ Nat.toDigits 10 n := not_mem_toDigits (by decide) n
  have hwidth : "width:".toList = _ := toList_literal rfl
  have hheight : "x;height:".toList = _ := toList_literal rfl
  simp [toList_sizeStyle, hwidth, hheight, hquote]

/-- No canvas begins in front of the canvas, whatever the title says. -/
theorem not_infix_head (title : String) : ¬ "<canvas ".toList <:+: head title := by
  have huntagged : Untagged canvasTag (head title) := untagged_head (by decide) title
  have hcanvas : "<canvas ".toList = _ := toList_literal rfl
  rw [hcanvas]
  exact huntagged.not_isInfix (by decide) (by decide)

theorem not_infix_attributes : ¬ "style=\"".toList <:+: canvasAttributes.toList := by
  have hstyle : "style=\"".toList = _ := toList_literal rfl
  have hattributes : canvasAttributes.toList = _ := toList_literal rfl
  rw [hstyle, hattributes]
  decide

theorem canvasStyle?_page {text : String} {project : Project} {player : WebPlayer}
    {width height : UInt32} (htext : text.toList = page project player width height) :
    canvasStyle? text = some (sizeStyle width.toNat height.toNat) := by
  have hcanvas : "<canvas ".toList = '<' :: "canvas ".toList := cons_literal rfl rfl
  have hstyle : "style=\"".toList = 's' :: "tyle=\"".toList := cons_literal rfl rfl
  have hquote : "\"".toList = ['"'] := toList_literal rfl
  have hsize : ¬ ['"'] <:+: (sizeStyle width.toNat height.toNat).toList :=
    fun hfound => not_mem_sizeStyle _ _ (hfound.subset List.mem_cons_self)
  obtain ⟨rest, hpage⟩ : ∃ rest, page project player width height =
      head project.title ++ ((canvas width height).toList ++ rest) :=
    ⟨_, by rw [page_eq, lead, List.append_assoc]⟩
  have hname : '<' ∉ "canvas ".toList := not_mem_literal rfl (by decide)
  have hkey : 's' ∉ "tyle=\"".toList := not_mem_literal rfl (by decide)
  rw [canvasStyle?, htext, hpage, canvas_eq]
  simp only [String.toList_append, hcanvas, hstyle, hquote, List.append_assoc]
  rw [cut?_append hname (hcanvas ▸ not_infix_head project.title)]
  simp only [bind, Option.bind_some]
  rw [cut?_append hkey (hstyle ▸ not_infix_attributes)]
  simp only [Option.bind_some]
  rw [cut?_append List.not_mem_nil hsize]
  simp only [Option.bind_some, String.ofList_toList]
  rfl

end Html

/-- The canvas of every page is as large as its sides times the scale. With a program, a page is made
at every scale except 0 for which the width is a word of 32 bits; at the others the width
overflows. -/
theorem Project.canvasStyle?_toHtml (project : Project) (player : WebPlayer)
    (scale : Option UInt32) :
    let factor := (scale.getD project.settings.scale).toNat
    (∀ page, project.toHtml player scale = .ok page →
      Html.canvasStyle? page = some (Html.sizeStyle (256 * factor) (192 * factor))) ∧
    ((∃ page, project.toHtml player scale = .ok page) ↔
      player.program ≠ [] ∧ factor ≠ 0 ∧ 256 * factor < UInt32.size) ∧
    (project.toHtml player scale = .error .overflow ↔
      player.program ≠ [] ∧ UInt32.size ≤ 256 * factor) := by
  intro factor
  refine ⟨fun page hpage => ?_, ⟨?_, ?_⟩, ⟨fun hoverflow => ?_, fun ⟨hprogram, hwidth⟩ => ?_⟩⟩
  · obtain ⟨_, rfl, -, -, hwidth, htext⟩ := eq_of_toHtml hpage
    have hheight : 192 * factor < UInt32.size := by omega
    rw [Html.canvasStyle?_page htext, UInt32.toNat_mul, UInt32.toNat_mul]
    exact congrArg some (Html.sizeStyle_inj.mpr
      ⟨Nat.mod_eq_of_lt hwidth, Nat.mod_eq_of_lt hheight⟩)
  · rintro ⟨page, hpage⟩
    obtain ⟨_, rfl, hprogram, hscale, hwidth, -⟩ := eq_of_toHtml hpage
    exact ⟨hprogram, fun hzero => hscale (UInt32.toNat_inj.mp hzero), hwidth⟩
  · rintro ⟨hprogram, hscale, hwidth⟩
    have hfactor : scale.getD project.settings.scale ≠ 0 := fun hzero =>
      hscale (congrArg UInt32.toNat hzero)
    exact ⟨_, toHtml_of_width rfl hprogram hfactor hwidth⟩
  · by_cases hprogram : player.program = []
    · cases (toHtml_of_no_program hprogram).symm.trans hoverflow
    · refine ⟨hprogram, Nat.le_of_not_lt fun hwidth => ?_⟩
      by_cases hscale : scale.getD project.settings.scale = 0
      · cases (toHtml_of_zero hprogram hscale).symm.trans hoverflow
      · cases (toHtml_of_width rfl hprogram hscale hwidth).symm.trans hoverflow
  · exact toHtml_of_overflow rfl hprogram hwidth

theorem canvasStyle?_impostor : ∃ page, impostor.toHtml tinyPlayer none = .ok page ∧
    Html.canvasStyle? page = some (Html.sizeStyle 512 384) :=
  have hpage : impostor.toHtml tinyPlayer none = .ok _ := rfl
  ⟨_, hpage, (Project.canvasStyle?_toHtml impostor tinyPlayer none).1 _ hpage⟩

/-- The first scale for which the width is no word of 32 bits. -/
def enlarged : Project where
  settings := { scale := 16777216 }

/-- It is not the scale 0, which has a fault of its own, and the width overflows. -/
theorem toHtml_enlarged :
    tinyPlayer.program ≠ [] ∧ enlarged.settings.scale ≠ 0 ∧
      enlarged.toHtml tinyPlayer none = .error .overflow ∧
      ¬∃ page, enlarged.toHtml tinyPlayer none = .ok page ∧
        Html.canvasStyle? page = some (Html.sizeStyle (256 * 16777216) (192 * 16777216)) := by
  have hoverflow : enlarged.toHtml tinyPlayer none = .error .overflow := rfl
  refine ⟨by decide, by decide, hoverflow, ?_⟩
  rintro ⟨page, hpage, -⟩
  rw [hoverflow] at hpage
  cases hpage

end SceneScript
