import SceneScript.Proofs.Text.Wrap

/-! # Wrapping twice

The lines of a wrapped text are paragraphs of one line. The words of a line have fitted on it one
after the other, and the same is asked of them when the line is wrapped again.
-/

namespace SceneScript.Wrap

/-! ## Splitting what has been joined -/

section Split

variable {separator : Char} {text part : List Char}

theorem mem_of_mem_split {c : Char} (hpart : part ∈ split separator text) (hc : c ∈ part) :
    c ∈ text := by
  induction text generalizing part with
  | nil => simp_all [split]
  | cons first rest ih =>
      rw [split] at hpart
      split at hpart
      · rcases List.mem_cons.mp hpart with rfl | hpart
        · cases hc
        · exact List.mem_cons_of_mem _ (ih hpart hc)
      · split at hpart
        · simp_all
        · next before parts hparts =>
            rw [hparts] at ih
            rcases List.mem_cons.mp hpart with rfl | hpart
            · rcases List.mem_cons.mp hc with rfl | hc
              · exact List.mem_cons_self
              · exact List.mem_cons_of_mem _ (ih List.mem_cons_self hc)
            · exact List.mem_cons_of_mem _ (ih (List.mem_cons_of_mem _ hpart) hc)

/-- Lines that hold no line break are found again in their text. -/
theorem split_join_lines {lines : List String} (hne : lines ≠ [])
    (hlines : ∀ line ∈ lines, '\n' ∉ line.toList) :
    split '\n' ("\n".intercalate lines).toList = lines.map String.toList := by
  rw [split_eq_splitOn, String.toList_intercalate]
  exact List.splitOn_intercalate '\n' (by simpa using hlines) (by simpa using hne)

end Split

/-! ## Words of a line -/

section Words

variable {row : List String}

theorem words_join (hne : row ≠ []) (hwords : ∀ word ∈ row, IsWord word) :
    words (join row).toList = row := by
  rw [words_eq, blankSeparated, parts_join hne hwords]
  exact List.filter_eq_self.mpr fun word hword => by simpa using (hwords word hword).ne_empty

theorem mem_of_mem_words {paragraph : List Char} {word : String} {c : Char}
    (hword : word ∈ words paragraph) (hc : c ∈ word.toList) : c ∈ paragraph := by
  obtain ⟨part, hpart, rfl⟩ := List.mem_map.mp hword
  rw [String.toList_ofList] at hc
  exact mem_of_mem_split (List.mem_of_mem_filter hpart) hc

/-- Besides the characters of its words, a line holds blanks. -/
theorem mem_join {c : Char} (h : c ∈ (join row).toList) :
    c = ' ' ∨ ∃ word ∈ row, c ∈ word.toList := by
  induction row with
  | nil => cases h
  | cons word rest ih =>
      cases rest with
      | nil => exact .inr ⟨word, List.mem_cons_self, by simpa [join] using h⟩
      | cons next rest =>
          rw [join, String.intercalate_cons_cons, String.toList_append, String.toList_append] at h
          rcases List.mem_append.mp h with h | h
          · rcases List.mem_append.mp h with h | h
            · exact .inr ⟨word, List.mem_cons_self, h⟩
            · exact .inl (by simpa using h)
          · rcases ih h with hblank | ⟨other, hother, hc⟩
            · exact .inl hblank
            · exact .inr ⟨other, List.mem_cons_of_mem _ hother, hc⟩

end Words

/-! ## Lines that stay -/

section Lines

variable {font : Font} {budget : UInt32} {row : List String} {line : String}

/-- A row of words that have fitted is filled into one line again. -/
theorem fill_of_fitting {before : List String} (hne : before ≠ []) (after : List String)
    (h : Fitting font budget (before ++ after)) :
    fill font budget (join before) after = [join (before ++ after)] := by
  induction after generalizing before with
  | nil => rw [fill, List.append_nil]
  | cons word rest ih =>
      have hfits : fits font budget (join before) word := h before word rest rfl hne
      have hsplit : before ++ word :: rest = before ++ [word] ++ rest := by simp
      rw [hsplit] at h ⊢
      rw [fill, if_pos hfits, ← join_concat hne]
      exact ih (by simp) h

/-- A line is settled if it is a paragraph, and wrapping leaves it as it is. -/
structure Settled (font : Font) (budget : UInt32) (line : String) : Prop where
  unbroken : '\n' ∉ line.toList
  lines_eq : paragraphLines font budget line.toList = [line]

theorem settled_empty (font : Font) (budget : UInt32) : Settled font budget "" where
  unbroken := by simp
  lines_eq := rfl

theorem settled_join (hne : row ≠ []) (hwords : ∀ word ∈ row, IsWord word ∧ '\n' ∉ word.toList)
    (h : Fitting font budget row) : Settled font budget (join row) where
  unbroken := by
    intro hbreak
    rcases mem_join hbreak with hblank | ⟨word, hword, hinside⟩
    · cases hblank
    · exact (hwords word hword).2 hinside
  lines_eq := by
    obtain ⟨word, rest, rfl⟩ := List.exists_cons_of_ne_nil hne
    rw [paragraphLines, words_join hne fun other hother => (hwords other hother).1]
    exact fill_of_fitting (List.cons_ne_nil word []) rest h

/-- The lines of a paragraph are settled. -/
theorem settled_of_mem_paragraphLines {paragraph : List Char} (hparagraph : '\n' ∉ paragraph)
    (hline : line ∈ paragraphLines font budget paragraph) : Settled font budget line := by
  unfold paragraphLines at hline
  split at hline
  · rw [List.mem_singleton.mp hline]
    exact settled_empty font budget
  · next word rest hwords =>
      obtain ⟨rows, hrows, hfilled⟩ :=
        fill_join (List.cons_ne_nil word []) (fitting_singleton font budget word) rest
      rw [show word = join [word] from rfl, hrows] at hline
      rw [List.singleton_append, ← hwords] at hfilled
      obtain ⟨row, hrow, rfl⟩ := List.mem_map.mp hline
      refine settled_join (hfilled.ne_nil row hrow) (fun other hother => ?_)
        (hfilled.fitting row hrow)
      have hmem : other ∈ words paragraph := by
        rw [← hfilled.flatten_eq]
        exact List.mem_flatten.mpr ⟨row, hrow, hother⟩
      exact ⟨isWord_of_mem_words hmem, fun hbreak => hparagraph (mem_of_mem_words hmem hbreak)⟩

theorem paragraphLines_ne_nil (font : Font) (budget : UInt32) (paragraph : List Char) :
    paragraphLines font budget paragraph ≠ [] := by
  intro hnil
  have hwraps := wraps_paragraphLines font budget (.ofList paragraph)
  rw [String.toList_ofList, hnil] at hwraps
  by_cases hwords : blankSeparated (.ofList paragraph) = []
  · cases hwraps.blank hwords
  · exact hwords (hwraps.joined hwords).symm

theorem settled_of_mem_lines {text : String} (hline : line ∈ lines font budget text) :
    Settled font budget line := by
  obtain ⟨paragraph, hparagraph, hline⟩ := List.mem_flatMap.mp hline
  exact settled_of_mem_paragraphLines (not_mem_of_mem_split hparagraph) hline

theorem lines_ne_nil (font : Font) (budget : UInt32) (text : String) :
    lines font budget text ≠ [] := by
  obtain ⟨first, others, hsplit⟩ :=
    List.exists_cons_of_ne_nil (List.splitOn_ne_nil '\n' text.toList)
  rw [lines, split_eq_splitOn, hsplit, List.flatMap_cons]
  exact List.append_ne_nil_of_left_ne_nil (paragraphLines_ne_nil font budget first) _

/-- Settled lines are wrapped into themselves. -/
theorem lines_join_of_settled {rows : List String} (hne : rows ≠ [])
    (h : ∀ line ∈ rows, Settled font budget line) :
    lines font budget ("\n".intercalate rows) = rows := by
  rw [lines, split_join_lines hne fun line hline => (h line hline).unbroken]
  calc (rows.map String.toList).flatMap (paragraphLines font budget)
    _ = rows.flatMap fun line => paragraphLines font budget line.toList := List.flatMap_map ..
    _ = rows.flatMap fun line => [line] :=
        List.flatMap_congr fun line hline => (h line hline).lines_eq
    _ = rows := List.flatMap_singleton' rows

end Lines

/-- Wrapping the lines of a wrapped text changes nothing, whatever the font measures: the words of a
line are put to the same tests as before. -/
theorem lines_join_lines (font : Font) (budget : UInt32) (text : String) :
    lines font budget ("\n".intercalate (lines font budget text)) = lines font budget text :=
  lines_join_of_settled (lines_ne_nil font budget text) fun _ hline => settled_of_mem_lines hline

end SceneScript.Wrap
