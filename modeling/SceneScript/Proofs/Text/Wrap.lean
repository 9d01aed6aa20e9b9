import Mathlib.Data.List.Chain
import Mathlib.Data.List.Forall2
import SceneScript.Text.Wrap

/-! # Wrapping is greedy

The lines of a paragraph are its words in order, with one blank between each two on a line. A line is
broken only before a word that no longer fits, and each word behind the first one of its line fits.
-/

namespace SceneScript

/-- A text is as wide as its parts together, in words that may wrap. -/
def Font.Additive (font : Font) : Prop :=
  ∀ text more : String, font.measure (text ++ more) = font.measure text + font.measure more

theorem Font.Additive.measure_empty {font : Font} (h : font.Additive) : font.measure "" = 0 := by
  have hsum : font.measure "" = font.measure "" + font.measure "" := h "" ""
  exact UInt32.left_eq_add.mp hsum

theorem Font.additive_blocks (advance lineHeight : UInt32) :
    (Font.blocks advance lineHeight).Additive := by
  intro text more
  simp only [blocks, String.length_append, UInt32.ofNat_add, UInt32.add_mul]

namespace Wrap

/-! ## Splitting -/

section Split

variable {separator : Char} {part : List Char}

theorem split_eq_splitOn (separator : Char) (text : List Char) :
    split separator text = text.splitOn separator := by
  induction text with
  | nil => rfl
  | cons c rest ih =>
      rw [split, ih, List.splitOn_cons_eq_if_modifyHead]
      simp only [beq_iff_eq]
      split
      · rfl
      · obtain ⟨first, others, hsplit⟩ :=
          List.exists_cons_of_ne_nil (List.splitOn_ne_nil separator rest)
        rw [hsplit]
        rfl

theorem not_mem_of_mem_split {text : List Char} (h : part ∈ split separator text) :
    separator ∉ part := by
  induction text generalizing part with
  | nil => simp_all [split]
  | cons c rest ih =>
      rw [split] at h
      split at h
      · rcases List.mem_cons.mp h with rfl | h
        · exact List.not_mem_nil
        · exact ih h
      · next hc =>
          split at h
          · rw [List.mem_singleton.mp h]
            simpa using Ne.symm hc
          · next first parts hparts =>
              rw [hparts] at ih
              rcases List.mem_cons.mp h with rfl | h
              · simp [Ne.symm hc, ih]
              · exact ih (List.mem_cons_of_mem _ h)

end Split

/-! ## Words and lines -/

/-- The parts of a text between its blanks. -/
def parts (text : String) : List String := (text.toList.splitOn ' ').map .ofList

/-- What is written between the blanks of a text. -/
def blankSeparated (text : String) : List String := (parts text).filter (· ≠ "")

/-- A line of words, with one blank between each two. -/
def join (row : List String) : String := " ".intercalate row

/-- A word has characters, and no blank is among them. -/
structure IsWord (word : String) : Prop where
  ne_empty : word ≠ ""
  blank_not_mem : ' ' ∉ word.toList

theorem isWord_of_mem_words {paragraph : List Char} {word : String} (h : word ∈ words paragraph) :
    IsWord word := by
  obtain ⟨part, hpart, rfl⟩ := List.mem_map.mp h
  obtain ⟨hsplit, hne⟩ := List.mem_filter.mp hpart
  constructor
  · intro hempty
    have hnil : part = [] := by simpa using congrArg String.toList hempty
    simp [hnil] at hne
  · rw [String.toList_ofList]
    exact not_mem_of_mem_split hsplit

/-- The words of a paragraph are what stands between its blanks. -/
theorem words_eq (paragraph : String) : words paragraph.toList = blankSeparated paragraph := by
  rw [words, split_eq_splitOn, blankSeparated, parts, List.filter_map]
  congr 2
  funext part
  cases part <;> simp

theorem parts_of_isWord {word : String} (h : IsWord word) : parts word = [word] := by
  rw [parts, List.splitOn_eq_singleton h.blank_not_mem, List.map_singleton, String.ofList_toList]

theorem parts_append {word : String} (h : IsWord word) (line : String) :
    parts (word ++ " " ++ line) = word :: parts line := by
  have hsplit := List.splitOn_append_cons_self_of_not_mem h.blank_not_mem line.toList
  simp [parts, hsplit]

theorem parts_join {row : List String} (hne : row ≠ []) (hwords : ∀ word ∈ row, IsWord word) :
    parts (join row) = row := by
  induction row with
  | nil => exact absurd rfl hne
  | cons word rest ih =>
      have hword := hwords word (List.mem_cons_self ..)
      cases rest with
      | nil => exact parts_of_isWord hword
      | cons next rest =>
          have hrest := ih (List.cons_ne_nil _ _) fun word h => hwords word (List.mem_cons_of_mem _ h)
          rw [join, String.intercalate_cons_cons, parts_append hword]
          exact congrArg (List.cons word) hrest

theorem join_concat {row : List String} (hne : row ≠ []) (word : String) :
    join (row ++ [word]) = join row ++ " " ++ word := by
  rw [join, String.intercalate_append_of_ne_nil hne (List.cons_ne_nil _ _),
    String.intercalate_singleton]
  rfl

/-! ## Filling lines -/

section Fill

variable {font : Font} {budget : UInt32}

/-- Each word of a row behind the first one has fitted on what was there of its line. -/
def Fitting (font : Font) (budget : UInt32) (row : List String) : Prop :=
  ∀ before word after, row = before ++ word :: after → before ≠ [] →
    fits font budget (join before) word

/-- Words are filled into rows: no row can take the first word of the next one. -/
structure Filled (font : Font) (budget : UInt32) (words : List String)
    (rows : List (List String)) : Prop where
  flatten_eq : rows.flatten = words
  ne_nil : ∀ row ∈ rows, row ≠ []
  forced : rows.IsChain fun row next => ∀ word ∈ next.head?, ¬fits font budget (join row) word
  fitting : ∀ row ∈ rows, Fitting font budget row

theorem fitting_singleton (font : Font) (budget : UInt32) (word : String) :
    Fitting font budget [word] := by
  intro before other after heq hne
  cases before with
  | nil => exact absurd rfl hne
  | cons first before => simp at heq

theorem Fitting.concat {row : List String} {word : String} (h : Fitting font budget row)
    (hfits : fits font budget (join row) word) : Fitting font budget (row ++ [word]) := by
  intro before other after heq hne
  rcases List.eq_nil_or_concat after with rfl | ⟨middle, last, rfl⟩
  · obtain ⟨hrow, hword⟩ := List.append_inj' heq rfl
    rw [← hrow, ← (List.cons.inj hword).1]
    exact hfits
  · have hsplit : row ++ [word] = (before ++ other :: middle) ++ [last] := by simpa using heq
    exact h before other middle (List.append_inj' hsplit rfl).1 hne

/-- The first word of the first row is the first word of all. -/
theorem Filled.head?_eq {words first : List String} {rows : List (List String)}
    (h : Filled font budget words rows) (hfirst : first ∈ rows.head?) :
    first.head? = words.head? := by
  obtain ⟨rest, rfl⟩ := List.head?_eq_some_iff.mp hfirst
  have hne := h.ne_nil first (List.mem_cons_self ..)
  rw [← h.flatten_eq, List.flatten_cons, List.head?_append_of_ne_nil _ hne]

theorem filled_singleton {row : List String} (hne : row ≠ []) (h : Fitting font budget row) :
    Filled font budget row [row] where
  flatten_eq := List.flatten_singleton
  ne_nil := by simpa using hne
  forced := .singleton row
  fitting := by simpa using h

theorem Filled.cons {row rest : List String} {word : String} {rows : List (List String)}
    (hfilled : Filled font budget (word :: rest) rows) (hne : row ≠ [])
    (h : Fitting font budget row) (hbreak : ¬fits font budget (join row) word) :
    Filled font budget (row ++ word :: rest) (row :: rows) where
  flatten_eq := by rw [List.flatten_cons, hfilled.flatten_eq]
  ne_nil := List.forall_mem_cons.mpr ⟨hne, hfilled.ne_nil⟩
  forced := by
    rw [List.isChain_cons]
    refine ⟨?_, hfilled.forced⟩
    -- The row behind begins with the word that did not fit.
    intro next hnext first hfirst
    rw [hfilled.head?_eq hnext] at hfirst
    cases hfirst
    exact hbreak
  fitting := List.forall_mem_cons.mpr ⟨h, hfilled.fitting⟩

/-- Filling goes on with the line that has been begun. -/
theorem fill_join {row : List String} (hne : row ≠ []) (h : Fitting font budget row)
    (words : List String) :
    ∃ rows, fill font budget (join row) words = rows.map join ∧
      Filled font budget (row ++ words) rows := by
  induction words generalizing row with
  | nil =>
      refine ⟨[row], rfl, ?_⟩
      rw [List.append_nil]
      exact filled_singleton hne h
  | cons word rest ih =>
      rw [fill]
      split
      · next hfits =>
          obtain ⟨rows, hrows, hfilled⟩ := ih (by simp) (h.concat hfits)
          refine ⟨rows, ?_, ?_⟩
          · rw [← join_concat hne, hrows]
          · simpa using hfilled
      · next hbreak =>
          have hword := fitting_singleton font budget word
          obtain ⟨rows, hrows, hfilled⟩ := ih (List.cons_ne_nil word []) hword
          refine ⟨row :: rows, ?_, hfilled.cons hne h hbreak⟩
          rw [List.map_cons, ← hrows]
          rfl

theorem Filled.isWord {paragraph : List Char} {rows : List (List String)}
    (h : Filled font budget (words paragraph) rows) {row : List String} (hrow : row ∈ rows)
    {word : String} (hword : word ∈ row) : IsWord word := by
  apply isWord_of_mem_words
  rw [← h.flatten_eq]
  exact List.mem_flatten.mpr ⟨row, hrow, hword⟩

theorem Filled.parts_join {paragraph : List Char} {rows : List (List String)}
    (h : Filled font budget (words paragraph) rows) {row : List String} (hrow : row ∈ rows) :
    parts (join row) = row :=
  Wrap.parts_join (h.ne_nil row hrow) fun _ hword => h.isWord hrow hword

end Fill

/-! ## Widths -/

section Width

variable {font : Font} {budget : UInt32}

/-- The width of a line with one more word on it. -/
def widthWith (font : Font) (line word : String) : Nat :=
  (font.measure line).toNat + (font.measure " ").toNat + (font.measure word).toNat

theorem widthWith_of_not_fits {line word : String} (h : ¬fits font budget line word) :
    budget.toNat < widthWith font line word := by
  simp only [fits, decide_eq_true_eq, UInt32.le_iff_toNat_le, UInt32.toNat_add] at h
  unfold widthWith
  omega

theorem widthWith_of_fits {line word : String} (h : fits font budget line word)
    (hword : widthWith font line word < UInt32.size) : widthWith font line word ≤ budget.toNat := by
  simp only [fits, decide_eq_true_eq, UInt32.le_iff_toNat_le, UInt32.toNat_add] at h
  unfold widthWith UInt32.size at hword
  unfold widthWith
  omega

/-- For an additive font what has fitted is no wider than it was found to be. -/
theorem Fitting.measure_le {row : List String} (h : Fitting font budget row)
    (hadditive : font.Additive) (hne : row ≠ []) :
    font.measure (join row) ≤ budget ∨ ∃ word, row = [word] := by
  rcases List.eq_nil_or_concat row with rfl | ⟨before, word, rfl⟩
  · exact absurd rfl hne
  · cases before with
    | nil => exact .inr ⟨word, rfl⟩
    | cons first before =>
        left
        have hfits := h (first :: before) word [] (by simp) (List.cons_ne_nil _ _)
        rw [List.concat_eq_append, join_concat (List.cons_ne_nil _ _), hadditive, hadditive]
        simpa [fits] using hfits

end Width

/-! ## Texts -/

/-- The lines of a paragraph. -/
structure Wraps (font : Font) (budget : UInt32) (paragraph : String) (lines : List String) :
    Prop where
  joined : blankSeparated paragraph ≠ [] → lines.flatMap parts = blankSeparated paragraph
  blank : blankSeparated paragraph = [] → lines = [""]
  not_blank : blankSeparated paragraph ≠ [] → "" ∉ lines
  forced : lines.IsChain fun line next =>
    ∀ word ∈ (parts next).head?, budget.toNat < widthWith font line word
  /-- The width that a word was found to lead to is the true one, unless it wraps. -/
  fitting : ∀ line ∈ lines, ∀ before word after, parts line = before ++ word :: after →
    before ≠ [] → widthWith font (join before) word < UInt32.size →
      widthWith font (join before) word ≤ budget.toNat
  width : font.Additive →
    ∀ line ∈ lines, font.measure line ≤ budget ∨ line ∈ blankSeparated paragraph

theorem wraps_blank (font : Font) (budget : UInt32) {paragraph : String}
    (h : blankSeparated paragraph = []) : Wraps font budget paragraph [""] := by
  refine ⟨fun hne => absurd h hne, fun _ => rfl, fun hne => absurd h hne, .singleton "", ?_, ?_⟩
  · intro line hline before word after heq hne
    rw [List.mem_singleton.mp hline] at heq
    cases before with
    | nil => exact absurd rfl hne
    | cons first before => simp [parts] at heq
  · intro hadditive line hline
    left
    rw [List.mem_singleton.mp hline, hadditive.measure_empty]
    exact UInt32.zero_le

theorem Filled.wraps {font : Font} {budget : UInt32} {paragraph : String}
    {rows : List (List String)} (h : Filled font budget (words paragraph.toList) rows)
    (hne : blankSeparated paragraph ≠ []) : Wraps font budget paragraph (rows.map join) := by
  have hlines : ∀ line ∈ rows.map join, ∃ row ∈ rows, join row = line ∧ parts line = row := by
    intro line hline
    obtain ⟨row, hrow, rfl⟩ := List.mem_map.mp hline
    exact ⟨row, hrow, rfl, h.parts_join hrow⟩
  constructor
  case joined =>
    intro _
    calc (rows.map join).flatMap parts
      _ = rows.flatMap fun row => parts (join row) := List.flatMap_map ..
      _ = rows.flatMap id := List.flatMap_congr fun _ hrow => h.parts_join hrow
      _ = rows.flatten := List.flatMap_id
      _ = words paragraph.toList := h.flatten_eq
      _ = blankSeparated paragraph := words_eq paragraph
  case blank => exact fun hnil => absurd hnil hne
  case not_blank =>
    intro _ hempty
    obtain ⟨row, hrow, -, hparts⟩ := hlines "" hempty
    have hword : "" ∈ row := by
      rw [← hparts]
      exact List.mem_singleton.mpr rfl
    exact (h.isWord hrow hword).ne_empty rfl
  case forced =>
    rw [List.isChain_map]
    refine h.forced.imp_of_mem_imp ?_
    intro row next _ hnext hbreak word hword
    rw [h.parts_join hnext] at hword
    exact widthWith_of_not_fits (hbreak word hword)
  case fitting =>
    intro line hline before word after heq hbefore hwidth
    obtain ⟨row, hrow, -, hparts⟩ := hlines line hline
    rw [hparts] at heq
    exact widthWith_of_fits (h.fitting row hrow before word after heq hbefore) hwidth
  case width =>
    intro hadditive line hline
    obtain ⟨row, hrow, rfl, -⟩ := hlines line hline
    rcases (h.fitting row hrow).measure_le hadditive (h.ne_nil row hrow) with hle | ⟨word, rfl⟩
    · exact .inl hle
    · right
      rw [← words_eq, ← h.flatten_eq]
      exact List.mem_flatten.mpr ⟨[word], hrow, List.mem_singleton.mpr rfl⟩

theorem wraps_paragraphLines (font : Font) (budget : UInt32) (paragraph : String) :
    Wraps font budget paragraph (paragraphLines font budget paragraph.toList) := by
  unfold paragraphLines
  split
  · next h =>
      rw [words_eq] at h
      exact wraps_blank font budget h
  · next word rest h =>
      obtain ⟨rows, hrows, hfilled⟩ :=
        fill_join (List.cons_ne_nil word []) (fitting_singleton font budget word) rest
      rw [List.singleton_append, ← h] at hfilled
      rw [show word = join [word] from rfl, hrows]
      refine hfilled.wraps ?_
      rw [← words_eq, h]
      exact List.cons_ne_nil _ _

/-- Every text is wrapped paragraph by paragraph, each of them greedily and without a loss. Blocks of
one size are an additive font. -/
theorem lines_greedy (font : Font) (budget : UInt32) (text : String) :
    (∃ paragraphs : List (List String), paragraphs.flatten = lines font budget text ∧
      List.Forall₂ (Wraps font budget) ((text.toList.splitOn '\n').map .ofList) paragraphs) ∧
    ∀ advance lineHeight, (Font.blocks advance lineHeight).Additive := by
  refine ⟨⟨(split '\n' text.toList).map (paragraphLines font budget), rfl, ?_⟩,
    Font.additive_blocks⟩
  rw [split_eq_splitOn, List.forall₂_map_left_iff, List.forall₂_map_right_iff, List.forall₂_same]
  intro paragraph _
  have hwraps := wraps_paragraphLines font budget (.ofList paragraph)
  rwa [String.toList_ofList] at hwraps

end Wrap
end SceneScript
