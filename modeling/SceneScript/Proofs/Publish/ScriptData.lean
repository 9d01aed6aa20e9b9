import Mathlib.Data.List.Infix
import SceneScript.Proofs.Publish.Script
import SceneScript.Proofs.Text.Marks

/-! # Where scripts end

The text of a script goes up to its closing tag, except that a script which is begun in a comment
takes the next closing tag for itself. So an embedded text, in which no closing tag is left, never
ends its script early, and it keeps the script from ending with the tag behind it exactly if it
leaves such a comment and the script in it open.
-/

namespace SceneScript.Html

/-! ## Reading scripts -/

/-- The characters that end the name of a tag. Carriage returns count as newlines. -/
def nameEnds : List Char := [' ', '\t', '\n', '\r', '\x0c', '/', '>']

/-- The text begins with the tag, in upper or lower case. -/
def begins : List Char → List Char → Bool
  | [], [] => false
  | [], c :: _ => c ∈ nameEnds
  | _ :: _, [] => false
  | letter :: tag, c :: rest => c.toLower = letter && begins tag rest

def scriptTag : List Char := ['<', 's', 'c', 'r', 'i', 'p', 't']

def scriptEnd : List Char := ['<', '/', 's', 'c', 'r', 'i', 'p', 't']

def commentTag : List Char := ['<', '!', '-', '-']

def commentEnd : List Char := ['-', '-', '>']

/-- Whether a place in the text of a script is in a comment, and there in a script. -/
inductive Region where
  | plain
  | comment
  | inner
  deriving DecidableEq, Repr, Inhabited

namespace Region

/-- The region behind the first character of a text, unless a closing tag begins there. -/
def next (text : List Char) : Region → Region
  | plain => if commentTag <+: text then comment else plain
  | comment =>
    if commentEnd <+: text then plain else if begins scriptTag text then inner else comment
  | inner => if commentEnd <+: text then plain else inner

/-- The region behind a text that has no closing tag. -/
def after (region : Region) : List Char → Region
  | [] => region
  | c :: rest => (region.next (c :: rest)).after rest

end Region

/-- Where a reader of a page is: outside of all scripts, in the tag of a script or in its text. -/
inductive Place where
  | outside
  | tag
  | script (region : Region)
  deriving DecidableEq, Repr, Inhabited

/-- The texts of the scripts from a place on. The text of a script that has begun comes first, and a
script that is never closed goes up to the end. -/
def scripts : Place → List Char → List (List Char)
  | .script _, [] => [[]]
  | _, [] => []
  | .outside, c :: rest => scripts (if begins scriptTag (c :: rest) then .tag else .outside) rest
  | .tag, c :: rest => scripts (if c = '>' then .script .plain else .tag) rest
  | .script region, c :: rest =>
    if begins scriptEnd (c :: rest) = true then
      if region = .inner then (scripts (.script .comment) rest).modifyHead (c :: ·)
      else [] :: scripts .outside rest
    else (scripts (.script (region.next (c :: rest))) rest).modifyHead (c :: ·)

/-! ## Beginnings -/

variable {text other later mark tag : List Char} {c letter : Char} {region : Region}

/-- A tag ends in front of the next one. -/
theorem begins_append (h : '<' ∉ tag) : begins tag (text ++ '<' :: later) = begins tag text := by
  induction tag generalizing text with
  | nil =>
      cases text with
      | nil => rfl
      | cons c text => rfl
  | cons letter tag ih =>
      obtain ⟨hletter, htag⟩ := List.ne_and_not_mem_of_not_mem_cons h
      cases text with
      | nil => simp [begins, hletter]
      | cons c text => simp [begins, ih htag]

/-- What is written for `</` begins no tag. -/
theorem begins_escapeScript (h : '<' ∉ tag) : begins tag (escapeScript text) = begins tag text := by
  induction text using escapeScript.induct generalizing tag with
  | case1 rest =>
      cases tag with
      | nil => rfl
      | cons letter tag =>
          have hletter : '<' ≠ letter := (List.ne_and_not_mem_of_not_mem_cons h).1
          simp [escapeScript, begins, hletter]
  | case2 c rest hslash ih =>
      rw [escapeScript.eq_2 c rest hslash]
      cases tag with
      | nil => rfl
      | cons letter tag => simp [begins, ih (List.ne_and_not_mem_of_not_mem_cons h).2]
  | case3 => rfl

theorem prefix_escapeScript_iff (h : '<' ∉ mark) : mark <+: escapeScript text ↔ mark <+: text := by
  induction text using escapeScript.induct generalizing mark with
  | case1 rest =>
      cases mark with
      | nil => simp
      | cons first mark =>
          have hfirst : '<' ≠ first := (List.ne_and_not_mem_of_not_mem_cons h).1
          simp [escapeScript, List.cons_prefix_cons, hfirst.symm]
  | case2 c rest hslash ih =>
      rw [escapeScript.eq_2 c rest hslash]
      cases mark with
      | nil => simp
      | cons first mark =>
          simp [List.cons_prefix_cons, ih (List.ne_and_not_mem_of_not_mem_cons h).2]
  | case3 => rfl

/-- The texts begin with the same marks and tags, as far as these have no `<` in them. -/
def Alike (text other : List Char) : Prop :=
  ∀ mark, '<' ∉ mark → (mark <+: text ↔ mark <+: other) ∧ begins mark text = begins mark other

theorem alike_append (text later : List Char) : Alike (text ++ '<' :: later) text := by
  intro mark hmark
  refine ⟨⟨Marks.prefix_of_prefix_append hmark, ?_⟩, begins_append hmark⟩
  exact fun htext => htext.trans (List.prefix_append _ _)

theorem alike_escapeScript (text : List Char) : Alike (escapeScript text) text :=
  fun _ hmark => ⟨prefix_escapeScript_iff hmark, begins_escapeScript hmark⟩

theorem Alike.trans {third : List Char} (h : Alike text other) (h' : Alike other third) :
    Alike text third :=
  fun mark hmark => ⟨(h mark hmark).1.trans (h' mark hmark).1,
    (h mark hmark).2.trans (h' mark hmark).2⟩

theorem Alike.begins_cons (h : Alike text other) (htag : '<' ∉ tag) :
    begins (letter :: tag) (c :: text) = begins (letter :: tag) (c :: other) := by
  simp [begins, (h tag htag).2]

theorem Alike.next (h : Alike text other) : region.next (c :: text) = region.next (c :: other) := by
  have hcomment : commentTag <+: c :: text ↔ commentTag <+: c :: other := by
    simp [commentTag, List.cons_prefix_cons, (h ['!', '-', '-'] (by decide)).1]
  have hend : commentEnd <+: c :: text ↔ commentEnd <+: c :: other := by
    simp [commentEnd, List.cons_prefix_cons, (h ['-', '>'] (by decide)).1]
  have hscript : begins scriptTag (c :: text) = begins scriptTag (c :: other) :=
    h.begins_cons (by decide)
  cases region with
  | plain => simp only [Region.next, hcomment]
  | comment => simp only [Region.next, hend, hscript]
  | inner => simp only [Region.next, hend]

/-- Only letters are in another case. -/
theorem eq_of_toLower_eq (hsmall : letter.toNat < 'a'.toNat) (h : c.toLower = letter) :
    c = letter := by
  change (if hupper : 'A'.val ≤ c.val ∧ c.val ≤ 'Z'.val then _ else c) = letter at h
  split at h
  · next hupper =>
      have hlow : 65 ≤ c.val.toNat := hupper.1
      have hhigh : c.val.toNat ≤ 90 := hupper.2
      have hvalue : (c.val + 32).toNat = letter.toNat := congrArg Char.toNat h
      have hstep : (32 : UInt32).toNat = 32 := rfl
      have ha : 'a'.toNat = 97 := rfl
      rw [UInt32.toNat_add] at hvalue
      omega
  · exact h

theorem begins_of_ne (hsmall : letter.toNat < 'a'.toNat) (h : c ≠ letter) :
    begins (letter :: tag) (c :: text) = false := by
  simp [begins, mt (eq_of_toLower_eq hsmall) h]

/-- Only `<` and `-` begin a mark. -/
theorem next_of_ne (hless : c ≠ '<') (hdash : c ≠ '-') : region.next (c :: text) = region := by
  have hscript : begins scriptTag (c :: text) = false := begins_of_ne (by decide) hless
  cases region with
  | plain => simp [Region.next, commentTag, List.cons_prefix_cons, hless.symm]
  | comment => simp [Region.next, commentEnd, List.cons_prefix_cons, hdash.symm, hscript]
  | inner => simp [Region.next, commentEnd, List.cons_prefix_cons, hdash.symm]

/-- Neither a slash nor what is written in front of it makes a mark out of `<`. -/
theorem next_less (h : c = '/' ∨ c = '\\') : region.next ('<' :: c :: text) = region := by
  have hscript : begins scriptTag ('<' :: c :: text) = false := by
    rcases h with rfl | rfl
    · simp [scriptTag, begins]
    · simp [scriptTag, begins]
  have hcomment : ¬commentTag <+: '<' :: c :: text := by
    rcases h with rfl | rfl
    · simp [commentTag, List.cons_prefix_cons]
    · simp [commentTag, List.cons_prefix_cons]
  have hend : ¬commentEnd <+: '<' :: c :: text := by
    simp [commentEnd, List.cons_prefix_cons]
  cases region with
  | plain => simp [Region.next, hcomment]
  | comment => simp [Region.next, hend, hscript]
  | inner => simp [Region.next, hend]

/-! ## Embedded texts -/

theorem scripts_of_not_begins (h : begins scriptEnd (c :: text) = false) :
    scripts (.script region) (c :: text) =
      (scripts (.script (region.next (c :: text))) text).modifyHead (c :: ·) := by
  simp [scripts, h]

/-- Characters other than `<` and `-` go to the text. -/
theorem scripts_of_ne (hless : c ≠ '<') (hdash : c ≠ '-') :
    scripts (.script region) (c :: text) =
      (scripts (.script region) text).modifyHead (c :: ·) := by
  rw [scripts_of_not_begins (begins_of_ne (by decide) hless), next_of_ne hless hdash]

/-- In particular they leave the region as it is. -/
theorem scripts_append_of_not_mem (hless : '<' ∉ text) (hdash : '-' ∉ text) :
    scripts (.script region) (text ++ later) =
      (scripts (.script region) later).modifyHead (text ++ ·) := by
  induction text with
  | nil => exact (congrFun List.modifyHead_id _).symm
  | cons c text ih =>
      obtain ⟨hc, htext⟩ := List.ne_and_not_mem_of_not_mem_cons hless
      obtain ⟨hc', htext'⟩ := List.ne_and_not_mem_of_not_mem_cons hdash
      rw [List.cons_append, scripts_of_ne hc.symm hc'.symm, ih htext htext',
        List.modifyHead_modifyHead]
      rfl

/-- An embedded text never ends its script, and leaves the reader in the region behind it. -/
theorem scripts_escapeScript (text later : List Char) (region : Region) :
    scripts (.script region) (escapeScript text ++ '<' :: later) =
      (scripts (.script (region.after text)) ('<' :: later)).modifyHead
        (escapeScript text ++ ·) := by
  induction text using escapeScript.induct generalizing region with
  | case1 rest ih =>
      have hclosing :
          begins scriptEnd ('<' :: '\\' :: '/' :: (escapeScript rest ++ '<' :: later)) = false := by
        simp [scriptEnd, begins]
      have hafter : region.after ('<' :: '/' :: rest) = region.after rest := by
        rw [Region.after, next_less (.inl rfl), Region.after,
          next_of_ne (by decide) (by decide)]
      simp only [escapeScript, List.cons_append]
      rw [scripts_of_not_begins hclosing, next_less (.inr rfl),
        scripts_of_ne (by decide) (by decide), scripts_of_ne (by decide) (by decide), ih, hafter]
      simp only [List.modifyHead_modifyHead]
      rfl
  | case2 c rest hslash ih =>
      -- Behind the character, what is written begins with the same marks and tags as the text.
      have halike := (alike_append (escapeScript rest) later).trans (alike_escapeScript rest)
      have hclosing : begins scriptEnd (c :: (escapeScript rest ++ '<' :: later)) = false := by
        have hrest : begins scriptEnd (c :: (escapeScript rest ++ '<' :: later)) =
            begins scriptEnd (c :: rest) := halike.begins_cons (by decide)
        rw [hrest]
        by_cases hless : c = '<'
        · cases rest with
          | nil => simp [scriptEnd, begins]
          | cons second rest =>
              have hsecond : second ≠ '/' := fun h => hslash rest hless (h ▸ rfl)
              have hname : begins scriptEnd.tail (second :: rest) = false :=
                begins_of_ne (by decide) hsecond
              rw [scriptEnd, begins]
              exact Bool.and_eq_false_imp.mpr fun _ => hname
        · exact begins_of_ne (by decide) hless
      rw [escapeScript.eq_2 c rest hslash, List.cons_append, scripts_of_not_begins hclosing,
        halike.next, ih, List.modifyHead_modifyHead]
      rfl
  | case3 => exact (congrFun List.modifyHead_id _).symm

/-! ## Texts that leave a script open -/

/-- A script begins somewhere in the text. -/
def HoldsScript (text : List Char) : Prop := ∃ inner, inner <:+ text ∧ begins scriptTag inner = true

/-- A script begins in a comment, and the comment does not end. It may end with the dashes that it
begins with. -/
def LeavesOpen (text : List Char) : Prop :=
  ∃ comment, comment <:+ text ∧ commentTag <+: comment ∧ HoldsScript comment ∧
    ¬commentEnd <:+: comment

theorem holdsScript_cons :
    HoldsScript (c :: text) ↔ begins scriptTag (c :: text) = true ∨ HoldsScript text := by
  simp only [HoldsScript, List.suffix_cons_iff, or_and_right, exists_or, exists_eq_left]

theorem leavesOpen_cons :
    LeavesOpen (c :: text) ↔ (commentTag <+: c :: text ∧ HoldsScript (c :: text) ∧
      ¬commentEnd <:+: c :: text) ∨ LeavesOpen text := by
  simp only [LeavesOpen, List.suffix_cons_iff, or_and_right, exists_or, exists_eq_left]

/-- What begins a comment does nothing else. -/
theorem begins_of_commentTag (h : commentTag <+: c :: text) :
    begins scriptTag (c :: text) = false ∧ ¬commentEnd <+: c :: text := by
  obtain ⟨rest, hrest⟩ := h
  rw [← hrest]
  simp [commentTag, scriptTag, commentEnd, begins, List.cons_prefix_cons]

/-- The region behind a text that has no closing tag. -/
theorem after_eq_inner_iff (text : List Char) :
    (Region.plain.after text = .inner ↔ LeavesOpen text) ∧
    (Region.comment.after text = .inner ↔
      (HoldsScript text ∧ ¬commentEnd <:+: text) ∨ LeavesOpen text) ∧
    (Region.inner.after text = .inner ↔ ¬commentEnd <:+: text ∨ LeavesOpen text) := by
  -- A step from one region can lead to any other, so all three go through one induction.
  induction text with
  | nil => simp [Region.after, HoldsScript, LeavesOpen, commentTag, commentEnd, scriptTag, begins]
  | cons c text ih =>
      obtain ⟨hplain, hcomment, hinner⟩ := ih
      simp only [Region.after, Region.next, leavesOpen_cons, holdsScript_cons, List.infix_cons_iff]
      refine ⟨?_, ?_, ?_⟩
      · by_cases hbegins : commentTag <+: c :: text
        · obtain ⟨hscript, hend⟩ := begins_of_commentTag hbegins
          simp [hbegins, hscript, hend, hcomment]
        · simp [hbegins, hplain]
      · by_cases hend : commentEnd <+: c :: text
        · simp [hend, hplain]
        · by_cases hscript : begins scriptTag (c :: text) = true
          · simp only [hend, hscript, if_true, if_false, hinner]
            grind
          · simp only [hend, hscript, if_false]
            grind
      · by_cases hend : commentEnd <+: c :: text
        · simp [hend, hplain]
        · simp only [hend, if_false, hinner]
          grind

instance (text : List Char) : Decidable (LeavesOpen text) :=
  decidable_of_iff _ (after_eq_inner_iff text).1

/-! ## Texts without tags -/

/-- The tag, in upper or lower case, is neither in the text nor begun at the end of it. -/
def Untagged (tag text : List Char) : Prop := Marks.Apart tag (text.map Char.toLower)

instance (tag text : List Char) : Decidable (Untagged tag text) := Marks.Apart.decidable _ _

theorem Untagged.append (htext : Untagged tag text) (hlater : Untagged tag later) :
    Untagged tag (text ++ later) := by
  rw [Untagged, List.map_append]
  exact Marks.Apart.append htext hlater

theorem untagged_of_not_mem (h : '<' ∉ text) : Untagged ('<' :: tag) text := by
  refine Marks.apart_of_not_mem fun hmem => ?_
  obtain ⟨c, hc, hlower⟩ := List.mem_map.mp hmem
  exact h (eq_of_toLower_eq (by decide) hlower ▸ hc)

theorem untagged_literal {literal : String} (hliteral : literal = .ofList text)
    (h : Untagged tag text) : Untagged tag literal.toList := by
  rw [Marks.toList_literal hliteral]
  exact h

theorem Untagged.not_isInfix (h : Untagged tag text) (htag : tag ≠ [])
    (hmark : tag <+: mark.map Char.toLower) : ¬ mark <:+: text :=
  fun hfound => Marks.Apart.not_isInfix h htag (hmark.isInfix.trans (hfound.map Char.toLower))

theorem prefix_of_begins (h : begins tag text = true) : tag <+: text.map Char.toLower := by
  induction tag generalizing text with
  | nil => exact List.nil_prefix
  | cons letter tag ih =>
      cases text with
      | nil => cases h
      | cons c text =>
          obtain ⟨hletter, htag⟩ := Bool.and_eq_true_iff.mp h
          exact List.cons_prefix_cons.mpr ⟨(of_decide_eq_true hletter).symm, ih htag⟩

/-- Texts without the tag of a script hold none. -/
theorem scripts_untagged (h : Untagged scriptTag text) :
    scripts .outside (text ++ later) = scripts .outside later := by
  induction text with
  | nil => rfl
  | cons c text ih =>
      obtain ⟨hin, hbegun, htext⟩ := Marks.apart_cons.mp h
      have hscript : begins scriptTag (c :: (text ++ later)) ≠ true := by
        intro hbegins
        have hlower : (c :: text).map Char.toLower <+: (c :: (text ++ later)).map Char.toLower :=
          (List.prefix_append (c :: text) later).map _
        exact (List.prefix_or_prefix_of_prefix (prefix_of_begins hbegins) hlower).elim hin hbegun
      rw [List.cons_append, scripts, if_neg hscript, ih htext]

theorem scripts_outside_of_not_mem (h : '<' ∉ text) :
    scripts .outside (text ++ later) = scripts .outside later :=
  scripts_untagged (untagged_of_not_mem h)

/-! ## Scripts with closing tags -/

/-- Behind its name a tag goes up to the next `>`. -/
theorem scripts_tag_of_not_mem (h : '>' ∉ text) :
    scripts .tag (text ++ '>' :: later) = scripts (.script .plain) later := by
  induction text with
  | nil => rfl
  | cons c text ih =>
      obtain ⟨hc, htext⟩ := List.ne_and_not_mem_of_not_mem_cons h
      rw [List.cons_append, scripts, if_neg hc.symm, ih htext]

/-- The text of a script that has begun comes first. -/
theorem exists_scripts_script (region : Region) (text : List Char) :
    ∃ first rest, scripts (.script region) text = first :: rest := by
  induction text generalizing region with
  | nil => exact ⟨[], [], rfl⟩
  | cons c text ih =>
      rw [scripts]
      split
      · split
        · obtain ⟨first, rest, htexts⟩ := ih .comment
          exact ⟨c :: first, rest, by rw [htexts, List.modifyHead_cons]⟩
        · exact ⟨_, _, rfl⟩
      · obtain ⟨first, rest, htexts⟩ := ih (region.next (c :: text))
        exact ⟨c :: first, rest, by rw [htexts, List.modifyHead_cons]⟩

/-- The closing tag behind an embedded text, without its `<`. -/
def closing : List Char := ['/', 's', 'c', 'r', 'i', 'p', 't', '>']

theorem begins_closing (later : List Char) :
    begins scriptEnd ('<' :: (closing ++ later)) = true := by
  simp [closing, scriptEnd, begins, nameEnds]

theorem scripts_closing (h : region ≠ .inner) :
    scripts (.script region) ('<' :: (closing ++ later)) = [] :: scripts .outside later := by
  rw [scripts, if_pos (begins_closing later), if_neg h, scripts_outside_of_not_mem (by decide)]

/-- The closing tag of a script that was begun in a comment belongs to the text. -/
theorem scripts_closing_inner :
    scripts (.script .inner) ('<' :: (closing ++ later)) =
      (scripts (.script .comment) later).modifyHead (fun text => '<' :: (closing ++ text)) := by
  rw [scripts, if_pos (begins_closing later), if_pos rfl,
    scripts_append_of_not_mem (by decide) (by decide), List.modifyHead_modifyHead]
  rfl

/-- A script ends with the closing tag behind its text, unless the text leaves a script open. -/
theorem scripts_embedded (text later : List Char) :
    (¬LeavesOpen text →
      scripts (.script .plain) (escapeScript text ++ '<' :: (closing ++ later)) =
        escapeScript text :: scripts .outside later) ∧
    (LeavesOpen text → ∃ more rest,
      scripts (.script .plain) (escapeScript text ++ '<' :: (closing ++ later)) =
        (escapeScript text ++ '<' :: (closing ++ more)) :: rest) := by
  rw [scripts_escapeScript, ← (after_eq_inner_iff text).1]
  refine ⟨fun hregion => ?_, fun hregion => ?_⟩
  · rw [scripts_closing hregion, List.modifyHead_cons, List.append_nil]
  · obtain ⟨more, rest, hlater⟩ := exists_scripts_script .comment later
    refine ⟨more, rest, ?_⟩
    rw [hregion, scripts_closing_inner, hlater, List.modifyHead_cons, List.modifyHead_cons]

end SceneScript.Html
