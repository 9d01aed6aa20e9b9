import SceneScript.Proofs.Project.RoundTrip
import SceneScript.Proofs.Publish.ScriptData
import SceneScript.Proofs.Sequence
import SceneScript.Proofs.Text.Base64

/-! # What a page holds

The data elements of a page are found by their opening tags, and hold the project and the program.
-/

namespace SceneScript

open Marks

namespace Html

/-- The text from the first such tag up to the next closing tag of a script. -/
def scriptText? (opening page : String) : Option String := do
  let (_, behind) ← cut? opening.toList page.toList
  let (content, _) ← cut? "</script>".toList behind
  return .ofList content

/-! ## Tags -/

def projectTag : List Char := "script type=\"application/json\" id=\"vn-project\">".toList

def programTag : List Char := "script type=\"application/wasm\" id=\"vn-runtime\">".toList

def closingTag : List Char := "/script>".toList

theorem scriptText?_eq {opening : String} {tag before content rest : List Char}
    (hopening : opening.toList = '<' :: tag) (htag : '<' ∉ tag) (hbefore : ¬ '<' :: tag <:+: before)
    (hcontent : ¬ '<' :: closingTag <:+: content) :
    scriptText? opening
        (.ofList (before ++ ('<' :: tag ++ (content ++ ('<' :: closingTag ++ rest))))) =
      some (.ofList content) := by
  have hclosing : "</script>".toList = '<' :: closingTag := cons_literal rfl rfl
  have hcut : cut? ('<' :: tag)
      (before ++ ('<' :: tag ++ (content ++ ('<' :: closingTag ++ rest)))) =
        some (before, content ++ ('<' :: closingTag ++ rest)) := cut?_append htag hbefore
  have hend : cut? ('<' :: closingTag) (content ++ ('<' :: closingTag ++ rest)) =
      some (content, rest) := cut?_append (not_mem_literal rfl (by decide)) hcontent
  rw [scriptText?, hopening, hclosing, String.toList_ofList, hcut]
  simp only [bind, Option.bind_some, hend]
  rfl

/-! ## In front of the data -/

def canvasTag : List Char := ['<', 'c', 'a', 'n', 'v', 'a', 's']

/-- The page up to its canvas. -/
def head (title : String) : List Char :=
  "<!DOCTYPE html>\n<html>\n<head>\n<meta charset=\"utf-8\">\n".toList ++ Html.title title
    ++ style.toList ++ "</head>\n<body>\n".toList

/-- The page up to its data. -/
def lead (title : String) (width height : UInt32) : List Char :=
  head title ++ (canvas width height).toList

theorem not_mem_escape (text : List Char) : '<' ∉ escape text := by
  intro hmem
  obtain ⟨c, -, hc⟩ := List.mem_flatMap.mp hmem
  unfold escapeChar at hc
  split at hc
  case h_6 hamp hless hmore hquote happos => exact hless (List.mem_singleton.mp hc).symm
  all_goals exact absurd hc (by decide)

theorem not_mem_toDigits {c : Char} (h : c.isDigit = false) (n : Nat) : c ∉ Nat.toDigits 10 n :=
  fun hmem => Bool.false_ne_true
    (h.symm.trans (Nat.isDigit_of_mem_toDigits (by decide) (by decide) hmem))

theorem untagged_toString (value : UInt32) : Untagged scriptTag (toString value).toList := by
  have hdigits : (toString value).toList = Nat.toDigits 10 value.toNat := Nat.toList_repr
  rw [hdigits]
  exact untagged_of_not_mem (not_mem_toDigits (by decide) _)

/-- The title begins neither the canvas nor a script, whatever it says. -/
theorem untagged_head {tag : List Char} (htag : tag ∈ [scriptTag, canvasTag]) (title : String) :
    Untagged tag (head title) := by
  have htitle : Untagged tag (escape title.toList) := by
    simp only [List.mem_cons, List.not_mem_nil, or_false] at htag
    rcases htag with rfl | rfl
    · exact untagged_of_not_mem (not_mem_escape _)
    · exact untagged_of_not_mem (not_mem_escape _)
  unfold head Html.title style
  simp only [String.toList_append]
  refine ((Untagged.append ?_ ((Untagged.append ?_ htitle).append ?_)).append
    ((Untagged.append ?_ ?_).append ?_)).append ?_
  all_goals
    refine untagged_literal rfl ?_
    clear htitle
    revert tag
    decide +kernel

theorem untagged_canvas (width height : UInt32) :
    Untagged scriptTag (canvas width height).toList := by
  unfold canvas
  simp only [String.toList_append]
  refine Untagged.append ((((Untagged.append ?_ (untagged_toString _)).append ?_).append
    (untagged_toString _)).append ?_) ((((Untagged.append ?_ (untagged_toString _)).append
      ?_).append (untagged_toString _)).append ?_)
  all_goals exact untagged_literal rfl (by decide +kernel)

theorem untagged_lead (title : String) (width height : UInt32) :
    Untagged scriptTag (lead title width height) :=
  (untagged_head (by decide) title).append (untagged_canvas width height)

/-- No script begins in front of the data, whatever the title says. -/
theorem not_infix_lead {mark : List Char} (hmark : "<script ".toList <+: mark) (title : String)
    (width height : UInt32) : ¬ mark <:+: lead title width height := by
  have hbegin : "<script ".toList = _ := toList_literal rfl
  have htag : scriptTag <+: "<script ".toList.map Char.toLower := hbegin ▸ by decide
  exact (untagged_lead title width height).not_isInfix (by decide)
    (htag.trans (hmark.map Char.toLower))

/-! ## The data -/

def opening (type name : String) : List Char := s!"<script type=\"{type}\" id=\"{name}\">".toList

theorem toList_projectTag :
    "<script type=\"application/json\" id=\"vn-project\">".toList = '<' :: projectTag :=
  cons_literal rfl rfl

theorem toList_programTag :
    "<script type=\"application/wasm\" id=\"vn-runtime\">".toList = '<' :: programTag :=
  cons_literal rfl rfl

theorem opening_project : opening "application/json" "vn-project" = '<' :: projectTag := by
  rw [← toList_projectTag]
  rfl

theorem opening_program : opening "application/wasm" "vn-runtime" = '<' :: programTag := by
  rw [← toList_programTag]
  rfl

theorem dataElement_eq (type name : String) (content : List Char) :
    dataElement type name content = opening type name ++ content ++ "</script>\n".toList := by
  rw [dataElement, opening]

theorem closing_eq : "</script>\n".toList = '<' :: (closingTag ++ ['\n']) := by
  have hclosing : closingTag = _ := toList_literal rfl
  rw [hclosing]
  exact toList_literal rfl

/-- The page behind its data. -/
def behind (player : WebPlayer) : List Char :=
  loaderElement (escapeScript player.loader.toList) ++ "</body>\n</html>\n".toList

theorem page_eq (project : Project) (player : WebPlayer) (width height : UInt32) :
    page project player width height =
      lead project.title width height ++ ('<' :: projectTag ++
        (escapeScript project.toJson.compactChars ++ ('<' :: closingTag ++ ('\n' ::
          ('<' :: programTag ++ (Base64.encode player.program ++
            ('<' :: closingTag ++ ('\n' :: behind player)))))))) := by
  unfold page lead head behind
  simp only [dataElement_eq, opening_project, opening_program, closing_eq, List.append_assoc,
    List.cons_append, List.nil_append]

theorem not_mem_encode (bytes : List UInt8) : '<' ∉ Base64.encode bytes := by
  have hsymbols : ∀ c ∈ Base64.encode bytes, c ≠ '<' :=
    Base64.forall_mem_encode (by decide) (by decide) bytes
  exact fun hmem => hsymbols '<' hmem rfl

theorem not_infix_encode (mark : List Char) (bytes : List UInt8) :
    ¬ '<' :: mark <:+: Base64.encode bytes :=
  fun hfound => not_mem_encode bytes (hfound.subset List.mem_cons_self)

/-- The tag of the program is not in its document, whatever the texts of the project say. -/
theorem not_infix_document (project : Project) :
    ¬ '<' :: programTag <:+: escapeScript project.toJson.compactChars := by
  obtain ⟨lexer, hrun, -⟩ := Lexer.spells_compact project.toJson (Project.recovers.plain project) []
  rw [← Lexer.run_escapeScript] at hrun
  exact Lexer.not_infix_of_run (fun lexer => toList_programTag ▸ run_opening lexer) hrun

theorem not_prefix_projectTag (rest : List Char) : ¬ programTag <+: projectTag ++ rest := by
  have hprogram : programTag = _ := toList_literal rfl
  have hproject : projectTag = _ := toList_literal rfl
  rw [hprogram, hproject]
  simp

theorem begins_projectTag : "<script ".toList <+: '<' :: projectTag := by
  have hbegin : "<script ".toList = _ := toList_literal rfl
  have hproject : projectTag = _ := toList_literal rfl
  rw [hbegin, hproject]
  simp

theorem begins_programTag : "<script ".toList <+: '<' :: programTag := by
  have hbegin : "<script ".toList = _ := toList_literal rfl
  have hprogram : programTag = _ := toList_literal rfl
  rw [hbegin, hprogram]
  simp

theorem not_infix_closing : ¬ '<' :: programTag <:+: '<' :: (closingTag ++ ['\n']) := by
  have hprogram : programTag = _ := toList_literal rfl
  have hclosing : closingTag = _ := toList_literal rfl
  rw [hprogram, hclosing]
  decide

/-- The tag of the program does not come before the program. -/
theorem not_infix_before (project : Project) (width height : UInt32) :
    ¬ '<' :: programTag <:+: lead project.title width height ++ '<' :: (projectTag ++
      (escapeScript project.toJson.compactChars ++ '<' :: (closingTag ++ ['\n']))) := by
  have hprogram : '<' ∉ programTag := not_mem_literal rfl (by decide)
  have hproject : '<' ∉ projectTag := not_mem_literal rfl (by decide)
  intro hfound
  rcases infix_append_cons hprogram hfound with hlead | hdata
  · exact not_infix_lead begins_programTag project.title width height hlead
  rcases List.infix_cons_iff.mp hdata with htag | hbehind
  · exact not_prefix_projectTag _ (List.cons_prefix_cons.mp htag).2
  rcases infix_append_cons hprogram (infix_of_infix_append hproject hbehind) with hjson | hend
  · exact not_infix_document project hjson
  · exact not_infix_closing hend

/-- The document is found, whatever stands in the title. -/
theorem scriptText?_project (project : Project) (player : WebPlayer) (width height : UInt32) :
    scriptText? "<script type=\"application/json\" id=\"vn-project\">"
        (.ofList (page project player width height)) =
      some (.ofList (escapeScript project.toJson.compactChars)) := by
  rw [page_eq]
  exact scriptText?_eq toList_projectTag (not_mem_literal rfl (by decide))
    (not_infix_lead begins_projectTag project.title width height) (not_infix_escapeScript _ _)

/-- The program is found, whatever stands in the title and in the texts of the project. -/
theorem scriptText?_program (project : Project) (player : WebPlayer) (width height : UInt32) :
    scriptText? "<script type=\"application/wasm\" id=\"vn-runtime\">"
        (.ofList (page project player width height)) =
      some (.ofList (Base64.encode player.program)) := by
  have hdivided : page project player width height =
      (lead project.title width height ++ '<' :: (projectTag ++
        (escapeScript project.toJson.compactChars ++ '<' :: (closingTag ++ ['\n'])))) ++
        ('<' :: programTag ++ (Base64.encode player.program ++
          ('<' :: closingTag ++ ('\n' :: behind player)))) := by
    simp only [page_eq, List.append_assoc, List.cons_append, List.nil_append]
  rw [hdivided]
  exact scriptText?_eq toList_programTag (not_mem_literal rfl (by decide))
    (not_infix_before project width height) (not_infix_encode _ _)

end Html

/-! ## Sides of the canvas -/

theorem Html.enlarged_eq_ok {side scale enlarged : UInt32} :
    Html.enlarged side scale = .ok enlarged ↔
      side.toNat * scale.toNat < UInt32.size ∧ enlarged = side * scale := by
  unfold Html.enlarged
  split <;> simp [*, eq_comm]

theorem Html.enlarged_eq_error {side scale : UInt32} {fault : PublishFault} :
    Html.enlarged side scale = .error fault ↔
      UInt32.size ≤ side.toNat * scale.toNat ∧ fault = .overflow := by
  unfold Html.enlarged
  split
  · next hfits => simp [Nat.not_le_of_lt hfits]
  · next hbeyond => simp [Nat.le_of_not_lt hbeyond, eq_comm]

namespace Project

variable {project : Project} {player : WebPlayer} {scale : Option UInt32} {factor : UInt32}
  {page : String}

theorem toHtml_of_no_program (hprogram : player.program = []) :
    project.toHtml player scale = .error .noProgram := by
  simp [toHtml, hprogram, throw, throwThe, MonadExceptOf.throw]

theorem toHtml_of_zero (hprogram : player.program ≠ [])
    (hscale : scale.getD project.settings.scale = 0) :
    project.toHtml player scale = .error .zeroScale := by
  simp [toHtml, hprogram, hscale, throw, throwThe, MonadExceptOf.throw]

/-- Where the width is a word, the height is one as well. -/
theorem toHtml_of_width (hfactor : scale.getD project.settings.scale = factor)
    (hprogram : player.program ≠ []) (hscale : factor ≠ 0)
    (hwidth : 256 * factor.toNat < UInt32.size) :
    project.toHtml player scale =
      .ok (.ofList (Html.page project player (canvasWidth * factor) (canvasHeight * factor))) := by
  have hheight : 192 * factor.toNat < UInt32.size := by omega
  have hwide : Html.enlarged canvasWidth factor = .ok (canvasWidth * factor) :=
    Html.enlarged_eq_ok.mpr ⟨hwidth, rfl⟩
  have hhigh : Html.enlarged canvasHeight factor = .ok (canvasHeight * factor) :=
    Html.enlarged_eq_ok.mpr ⟨hheight, rfl⟩
  simp [toHtml, hfactor, hprogram, hscale, hwide, hhigh]

theorem toHtml_of_overflow (hfactor : scale.getD project.settings.scale = factor)
    (hprogram : player.program ≠ []) (hwidth : UInt32.size ≤ 256 * factor.toNat) :
    project.toHtml player scale = .error .overflow := by
  have hscale : factor ≠ 0 := by
    rintro rfl
    exact absurd hwidth (by decide)
  have hwide : Html.enlarged canvasWidth factor = .error .overflow :=
    Html.enlarged_eq_error.mpr ⟨hwidth, rfl⟩
  simp [toHtml, hfactor, hprogram, hscale, hwide]

/-- Every page is made by a program, at a scale for which its canvas is not too wide. -/
theorem eq_of_toHtml (h : project.toHtml player scale = .ok page) :
    ∃ factor, scale.getD project.settings.scale = factor ∧ player.program ≠ [] ∧ factor ≠ 0 ∧
      256 * factor.toNat < UInt32.size ∧
      page.toList = Html.page project player (canvasWidth * factor) (canvasHeight * factor) := by
  generalize hfactor : scale.getD project.settings.scale = factor
  by_cases hprogram : player.program = []
  · cases (toHtml_of_no_program hprogram).symm.trans h
  by_cases hscale : factor = 0
  · cases (toHtml_of_zero hprogram (hfactor.trans hscale)).symm.trans h
  by_cases hwidth : 256 * factor.toNat < UInt32.size
  · rw [toHtml_of_width hfactor hprogram hscale hwidth] at h
    refine ⟨factor, rfl, hprogram, hscale, hwidth, ?_⟩
    rw [← Except.ok.inj h, String.toList_ofList]
  · rw [toHtml_of_overflow hfactor hprogram (Nat.le_of_not_lt hwidth)] at h
    cases h

end Project

/-- A page is made unless the program or the scale is missing, or the canvas gets too wide, and its
data elements hold the project and the program, whatever stands in the title, the texts and the
loader. -/
theorem Project.toHtml_embeds {project : Project} {player : WebPlayer} {scale : Option UInt32}
    (hresolution : project.resolution = (canvasWidth, canvasHeight))
    (hdepth : project.toJson.depth ≤ 127) (hprogram : player.program ≠ [])
    (hscale : scale.getD project.settings.scale ≠ 0)
    (hwidth : 256 * (scale.getD project.settings.scale).toNat < UInt32.size) :
    ∃ page document program, project.toHtml player scale = .ok page ∧
      Html.scriptText? "<script type=\"application/json\" id=\"vn-project\">" page = some document ∧
      ofText document = .ok project ∧
      Html.scriptText? "<script type=\"application/wasm\" id=\"vn-runtime\">" page = some program ∧
      Base64.decode (DataUrl.utf8 program.toList) = .ok player.program := by
  have hread := Json.parse?_escapeScript (recovers.plain project)
  refine ⟨_, _, _, toHtml_of_width rfl hprogram hscale hwidth, Html.scriptText?_project _ _ _ _, ?_,
    Html.scriptText?_program _ _ _ _, ?_⟩
  · rw [ofText, hread]
    exact (ofTree_toJson project).trans ((if_pos hdepth).trans (checkResolution_eq_ok hresolution))
  · rw [String.toList_ofList, Base64.decode_encode]

/-- A title and a text that would like to be the program. -/
def impostor : Project where
  title := "<script type=\"application/wasm\" id=\"vn-runtime\">AA==</script>"
  scenes := [{ id := "a", commands := [.dialogue "1" ""
    "</script><script type=\"application/wasm\" id=\"vn-runtime\">AA==</script>" []] }]

/-- The first bytes that all such programs have. -/
def tinyPlayer : WebPlayer where
  loader := "start()"
  program := [0, 97, 115, 109]

theorem toHtml_embeds_impostor :
    ∃ page document program, impostor.toHtml tinyPlayer none = .ok page ∧
      Html.scriptText? "<script type=\"application/json\" id=\"vn-project\">" page = some document ∧
      Project.ofText document = .ok impostor ∧
      Html.scriptText? "<script type=\"application/wasm\" id=\"vn-runtime\">" page = some program ∧
      Base64.decode (DataUrl.utf8 program.toList) = .ok [0, 97, 115, 109] :=
  Project.toHtml_embeds rfl (by decide) (by decide) (by decide) (by decide)

end SceneScript
