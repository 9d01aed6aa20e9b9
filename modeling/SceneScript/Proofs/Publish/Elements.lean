import SceneScript.Proofs.Publish.Page

/-! # The scripts of a page

A page has the document, the program and the loader as its scripts, unless the document or the
loader leaves a script open. What stands in the title does not matter.
-/

namespace SceneScript

namespace Html

variable {text later tag : List Char}

/-! ## Elements -/

/-- The tag of a script, without its `<`. -/
def Opens (tag : List Char) : Prop :=
  begins scriptTag ('<' :: tag) = true ∧ tag.getLast? = some '>' ∧ '>' ∉ tag.dropLast

instance (tag : List Char) : Decidable (Opens tag) := inferInstanceAs (Decidable (_ ∧ _ ∧ _))

theorem begins_append_of_begins (h : begins tag text = true) :
    begins tag (text ++ later) = true := by
  induction tag generalizing text with
  | nil =>
      cases text with
      | nil => cases h
      | cons c text => exact h
  | cons letter tag ih =>
      cases text with
      | nil => cases h
      | cons c text =>
          obtain ⟨hletter, htag⟩ := Bool.and_eq_true_iff.mp h
          exact Bool.and_eq_true_iff.mpr ⟨hletter, ih htag⟩

theorem scripts_opening (h : Opens tag) :
    scripts .outside ('<' :: tag ++ later) = scripts (.script .plain) later := by
  obtain ⟨hbegins, hlast, hattributes⟩ := h
  have hopening : begins scriptTag ('<' :: (tag ++ later)) = true :=
    begins_append_of_begins hbegins
  have htag : tag ++ later = tag.dropLast ++ '>' :: later := by
    conv_lhs => rw [← List.dropLast_append_getLast? '>' hlast]
    rw [List.append_assoc, List.singleton_append]
  rw [List.cons_append, scripts, if_pos hopening, htag, scripts_tag_of_not_mem hattributes]

theorem closingTag_eq : closingTag = closing := Marks.toList_literal rfl

/-- The script of an embedded text, and what follows it. -/
theorem scripts_element (h : Opens tag) (text later : List Char) :
    (¬LeavesOpen text → scripts .outside ('<' :: tag ++ (escapeScript text ++
      ('<' :: closingTag ++ later))) = escapeScript text :: scripts .outside later) ∧
    (LeavesOpen text → ∃ more rest, more ≠ [] ∧
      scripts .outside ('<' :: tag ++ (escapeScript text ++ ('<' :: closingTag ++ later))) =
        (escapeScript text ++ more) :: rest) := by
  rw [scripts_opening h, closingTag_eq]
  obtain ⟨hends, hopen⟩ := scripts_embedded text later
  refine ⟨hends, fun htext => ?_⟩
  obtain ⟨more, rest, hscripts⟩ := hopen htext
  exact ⟨'<' :: (closing ++ more), rest, List.cons_ne_nil _ _, hscripts⟩

/-! ## Embedded texts -/

theorem escapeScript_of_not_mem (h : '<' ∉ text) : escapeScript text = text := by
  induction text with
  | nil => rfl
  | cons c text ih =>
      obtain ⟨hc, htext⟩ := List.ne_and_not_mem_of_not_mem_cons h
      rw [escapeScript.eq_2 c text fun rest hless => absurd hless.symm hc, ih htext]

theorem escapeScript_concat {c : Char} (hc : c ≠ '/') :
    escapeScript (text ++ [c]) = escapeScript text ++ escapeScript [c] := by
  induction text using escapeScript.induct with
  | case1 rest ih => simp only [List.cons_append, escapeScript, ih]
  | case2 d rest hslash ih =>
      rw [escapeScript.eq_2 d rest hslash, List.cons_append, List.cons_append, ← ih]
      refine escapeScript.eq_2 d (rest ++ [c]) fun behind hless hbehind => ?_
      cases rest with
      | nil => exact hc (List.cons.inj hbehind).1
      | cons second rest => exact hslash rest hless ((List.cons.inj hbehind).1 ▸ rfl)
  | case3 => rfl

theorem not_leavesOpen_of_not_mem (h : '<' ∉ text) : ¬LeavesOpen text := by
  rintro ⟨comment, hcomment, hbegins, -, -⟩
  exact h (hcomment.subset (hbegins.subset List.mem_cons_self))

/-- What the script of the loader holds. The newline behind the loader can end the name of a tag. -/
def loaderText (player : WebPlayer) : List Char := '\n' :: (player.loader.toList ++ ['\n'])

theorem escapeScript_loaderText (player : WebPlayer) :
    escapeScript (loaderText player) = '\n' :: (escapeScript player.loader.toList ++ ['\n']) := by
  rw [loaderText, escapeScript.eq_2 _ _ (by simp), escapeScript_concat (by decide)]
  rfl

def loaderTag : List Char := ['s', 'c', 'r', 'i', 'p', 't', '>']

theorem behind_eq (player : WebPlayer) :
    behind player = '<' :: loaderTag ++ (escapeScript (loaderText player) ++
      ('<' :: closingTag ++ "\n</body>\n</html>\n".toList)) := by
  have hopening : "<script>\n".toList = '<' :: loaderTag ++ ['\n'] := Marks.toList_literal rfl
  have hclosing : "\n</script>\n".toList = '\n' :: '<' :: (closing ++ ['\n']) :=
    Marks.toList_literal rfl
  have hend : "\n</body>\n</html>\n".toList = '\n' :: "</body>\n</html>\n".toList :=
    Marks.cons_literal rfl rfl
  unfold behind loaderElement
  rw [hopening, hclosing, hend, escapeScript_loaderText, closingTag_eq]
  simp only [List.append_assoc, List.cons_append, List.nil_append]

theorem opens_projectTag : Opens projectTag := by
  have hproject : projectTag = _ := Marks.toList_literal rfl
  rw [hproject]
  decide

theorem opens_programTag : Opens programTag := by
  have hprogram : programTag = _ := Marks.toList_literal rfl
  rw [hprogram]
  decide

/-! ## Pages -/

/-- What a page puts between the tags of its scripts. -/
def contents (project : Project) (player : WebPlayer) : List (List Char) :=
  [escapeScript project.toJson.compactChars, Base64.encode player.program,
    escapeScript (loaderText player)]

variable (project : Project) (player : WebPlayer)

theorem scripts_program (later : List Char) :
    scripts .outside ('<' :: programTag ++ (Base64.encode player.program ++
      ('<' :: closingTag ++ later))) = Base64.encode player.program :: scripts .outside later := by
  have hless : '<' ∉ Base64.encode player.program := not_mem_encode player.program
  have hprogram := (scripts_element opens_programTag (Base64.encode player.program) later).1
    (not_leavesOpen_of_not_mem hless)
  rwa [escapeScript_of_not_mem hless] at hprogram

theorem scripts_behind :
    (¬LeavesOpen (loaderText player) →
      scripts .outside (behind player) = [escapeScript (loaderText player)]) ∧
    (LeavesOpen (loaderText player) → ∃ more rest, more ≠ [] ∧
      scripts .outside (behind player) = (escapeScript (loaderText player) ++ more) :: rest) := by
  have htag : Opens loaderTag := by decide
  obtain ⟨hends, hopen⟩ :=
    scripts_element htag (loaderText player) "\n</body>\n</html>\n".toList
  have hend : scripts .outside "\n</body>\n</html>\n".toList = [] := by
    have hliteral : "\n</body>\n</html>\n".toList = _ := Marks.toList_literal rfl
    rw [hliteral]
    decide
  rw [behind_eq]
  refine ⟨fun htext => ?_, hopen⟩
  rw [hends htext, hend]

theorem exists_scripts_behind : ∃ last others,
    scripts .outside (behind player) = (escapeScript (loaderText player) ++ last) :: others := by
  obtain ⟨hends, hopen⟩ := scripts_behind player
  by_cases hloader : LeavesOpen (loaderText player)
  · obtain ⟨more, rest, -, hscripts⟩ := hopen hloader
    exact ⟨more, rest, hscripts⟩
  · exact ⟨[], [], by rw [hends hloader, List.append_nil]⟩

/-- The scripts of a page, one after the other. -/
theorem scripts_page (width height : UInt32) :
    (¬LeavesOpen project.toJson.compactChars →
      scripts .outside (page project player width height) =
        escapeScript project.toJson.compactChars :: Base64.encode player.program ::
          scripts .outside (behind player)) ∧
    (LeavesOpen project.toJson.compactChars → ∃ more rest, more ≠ [] ∧
      scripts .outside (page project player width height) =
        (escapeScript project.toJson.compactChars ++ more) :: rest) := by
  obtain ⟨hends, hopen⟩ := scripts_element opens_projectTag project.toJson.compactChars
    ('\n' :: ('<' :: programTag ++ (Base64.encode player.program ++
      ('<' :: closingTag ++ ('\n' :: behind player)))))
  have hnewline (later : List Char) :
      scripts .outside ('\n' :: later) = scripts .outside later := by
    have hless : '<' ∉ ['\n'] := by decide
    exact scripts_outside_of_not_mem hless
  rw [page_eq, scripts_untagged (untagged_lead project.title width height)]
  refine ⟨fun hjson => ?_, hopen⟩
  rw [hends hjson, hnewline, scripts_program, hnewline]

theorem scripts_page_eq_iff (width height : UInt32) :
    scripts .outside (page project player width height) = contents project player ↔
      ¬LeavesOpen project.toJson.compactChars ∧ ¬LeavesOpen (loaderText player) := by
  obtain ⟨hends, hopen⟩ := scripts_page project player width height
  obtain ⟨hends', hopen'⟩ := scripts_behind player
  by_cases hjson : LeavesOpen project.toJson.compactChars
  · obtain ⟨more, rest, hmore, hscripts⟩ := hopen hjson
    simp [hscripts, hjson, hmore, contents]
  · by_cases hloader : LeavesOpen (loaderText player)
    · obtain ⟨more, rest, hmore, hscripts⟩ := hopen' hloader
      simp [hends hjson, hscripts, hloader, hmore, contents]
    · simp [hends hjson, hends' hloader, hjson, hloader, contents]

end Html

/-- A page has the document, the program and the loader as its scripts, each up to its own closing
tag, exactly if neither the document nor the loader leaves a script open. No text ends its script
early, and each is there unless one in front of it leaves a script open. -/
theorem Project.scripts_toHtml {project : Project} {player : WebPlayer} {scale : Option UInt32}
    {page : String} (h : project.toHtml player scale = .ok page) :
    (Html.scripts .outside page.toList = Html.contents project player ↔
      ¬Html.LeavesOpen project.toJson.compactChars ∧ ¬Html.LeavesOpen (Html.loaderText player)) ∧
    ∃ more rest, Html.scripts .outside page.toList =
        (Html.escapeScript project.toJson.compactChars ++ more) :: rest ∧
      (¬Html.LeavesOpen project.toJson.compactChars → more = [] ∧
        ∃ last others, rest = Base64.encode player.program ::
          (Html.escapeScript (Html.loaderText player) ++ last) :: others) := by
  obtain ⟨factor, -, -, -, -, hpage⟩ := eq_of_toHtml h
  rw [hpage]
  refine ⟨Html.scripts_page_eq_iff project player _ _, ?_⟩
  obtain ⟨hends, hopen⟩ :=
    Html.scripts_page project player (canvasWidth * factor) (canvasHeight * factor)
  by_cases hjson : Html.LeavesOpen project.toJson.compactChars
  · obtain ⟨more, rest, -, hscripts⟩ := hopen hjson
    exact ⟨more, rest, hscripts, absurd hjson⟩
  · refine ⟨[], _, (hends hjson).trans (by rw [List.append_nil]), fun _ => ⟨rfl, ?_⟩⟩
    obtain ⟨last, others, hbehind⟩ := Html.exists_scripts_behind player
    exact ⟨last, others, congrArg _ hbehind⟩

/-- A text that begins a comment and a script in it, and ends neither. -/
def unclosed : Project where
  scenes := [{ id := "a", commands := [.dialogue "1" "" "<!--<script>" []] }]

/-- The script with this text does not end with its own closing tag. -/
theorem scripts_unclosed : ∃ page, unclosed.toHtml tinyPlayer none = .ok page ∧
    Html.scripts .outside page.toList ≠ Html.contents unclosed tinyPlayer := by
  have hjson : Html.LeavesOpen unclosed.toJson.compactChars := by decide +kernel
  refine ⟨_, rfl, ?_⟩
  rw [String.toList_ofList, Ne, Html.scripts_page_eq_iff]
  exact fun h => h.1 hjson

theorem scripts_impostor : ∃ page, impostor.toHtml tinyPlayer none = .ok page ∧
    Html.scripts .outside page.toList = Html.contents impostor tinyPlayer :=
  have hpage : impostor.toHtml tinyPlayer none = .ok _ := rfl
  ⟨_, hpage, (Project.scripts_toHtml hpage).1.mpr ⟨by decide +kernel, by decide +kernel⟩⟩

end SceneScript
