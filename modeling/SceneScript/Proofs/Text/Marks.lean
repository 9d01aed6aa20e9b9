import Mathlib.Data.List.Infix

/-! # Cutting texts at marks

Of a mark whose first character does not come again in it, no two occurrences overlap, and a text
that is put together at that character has no others than its parts.
-/

namespace SceneScript

namespace Marks

/-- What stands before and behind the first occurrence of a mark. -/
def cut? (mark : List Char) : List Char → Option (List Char × List Char)
  | [] => if mark.isEmpty then some ([], []) else none
  | c :: rest =>
    if mark.isPrefixOf (c :: rest) then some ([], (c :: rest).drop mark.length)
    else (cut? mark rest).map fun (before, behind) => (c :: before, behind)

variable {first : Char} {mark text later : List Char}

/-- What begins a text does so in front of a character that is not in it. -/
theorem prefix_of_prefix_append (hfirst : first ∉ mark) (h : mark <+: text ++ first :: later) :
    mark <+: text := by
  induction text generalizing mark with
  | nil =>
      rcases List.prefix_cons_iff.mp h with rfl | ⟨rest, rfl, -⟩
      · exact List.nil_prefix
      · exact absurd List.mem_cons_self hfirst
  | cons c text ih =>
      rcases List.prefix_cons_iff.mp h with rfl | ⟨rest, rfl, hrest⟩
      · exact List.nil_prefix
      · have hlater := ih (fun hmem => hfirst (List.mem_cons_of_mem c hmem)) hrest
        exact List.cons_prefix_cons.mpr ⟨rfl, hlater⟩

theorem infix_append_cons (hfirst : first ∉ mark) (h : first :: mark <:+: text ++ first :: later) :
    first :: mark <:+: text ∨ first :: mark <:+: first :: later := by
  induction text with
  | nil => exact .inr h
  | cons c text ih =>
      rcases List.infix_cons_iff.mp h with hhere | hbehind
      · obtain ⟨hc, hrest⟩ := List.cons_prefix_cons.mp hhere
        have hmark : mark <+: text := prefix_of_prefix_append hfirst hrest
        exact .inl (List.cons_prefix_cons.mpr ⟨hc, hmark⟩).isInfix
      · exact (ih hbehind).imp_left List.infix_cons

theorem infix_of_infix_append (hfirst : first ∉ text) (h : first :: mark <:+: text ++ later) :
    first :: mark <:+: later := by
  induction text with
  | nil => exact h
  | cons c text ih =>
      rcases List.infix_cons_iff.mp h with hhere | hbehind
      · exact absurd ((List.cons_prefix_cons.mp hhere).1 ▸ List.mem_cons_self) hfirst
      · exact ih (fun hmem => hfirst (List.mem_cons_of_mem c hmem)) hbehind

theorem cut?_append (hfirst : first ∉ mark) (h : ¬ first :: mark <:+: text) :
    cut? (first :: mark) (text ++ (first :: mark ++ later)) = some (text, later) := by
  induction text with
  | nil => simp [cut?]
  | cons c text ih =>
      have hhere : ¬ first :: mark <+: c :: (text ++ (first :: mark ++ later)) := by
        intro hbegins
        obtain ⟨hc, hrest⟩ := List.cons_prefix_cons.mp hbegins
        have hmark : mark <+: text := prefix_of_prefix_append hfirst hrest
        exact h (List.cons_prefix_cons.mpr ⟨hc, hmark⟩).isInfix
      rw [List.cons_append, cut?, if_neg (mt List.isPrefixOf_iff_prefix.mp hhere),
        ih (mt List.infix_cons h), Option.map_some]

/-! ## Texts without marks -/

/-- The mark is neither in the text nor begun at the end of it. -/
inductive Apart (mark : List Char) : List Char → Prop where
  | nil : Apart mark []
  | cons {c : Char} {rest : List Char} (hin : ¬ mark <+: c :: rest)
      (hbegun : ¬ c :: rest <+: mark) (hrest : Apart mark rest) : Apart mark (c :: rest)

theorem apart_cons {c : Char} :
    Apart mark (c :: text) ↔ ¬ mark <+: c :: text ∧ ¬ c :: text <+: mark ∧ Apart mark text := by
  refine ⟨fun h => ?_, fun h => .cons h.1 h.2.1 h.2.2⟩
  cases h with
  | cons hin hbegun hrest => exact ⟨hin, hbegun, hrest⟩

instance Apart.decidable (mark : List Char) : (text : List Char) → Decidable (Apart mark text)
  | [] => isTrue .nil
  | _ :: rest =>
    have := decidable mark rest
    decidable_of_iff _ apart_cons.symm

theorem apart_of_not_mem (hfirst : first ∉ text) : Apart (first :: mark) text := by
  induction text with
  | nil => exact .nil
  | cons c text ih =>
      have hc : first ≠ c := fun hc => hfirst (hc ▸ List.mem_cons_self)
      exact .cons (fun hmark => hc (List.cons_prefix_cons.mp hmark).1)
        (fun hmark => hc (List.cons_prefix_cons.mp hmark).1.symm)
        (ih fun hmem => hfirst (List.mem_cons_of_mem c hmem))

theorem Apart.append (h : Apart mark text) (hlater : Apart mark later) :
    Apart mark (text ++ later) := by
  induction h with
  | nil => exact hlater
  | @cons c text hin hbegun _ ih =>
      have htext : c :: text <+: c :: (text ++ later) := List.prefix_append (c :: text) later
      refine .cons (fun hmark => ?_) (fun hmark => hbegun (htext.trans hmark)) ih
      exact (List.prefix_or_prefix_of_prefix hmark htext).elim hin hbegun

theorem Apart.not_isInfix (h : Apart mark text) (hmark : mark ≠ []) : ¬ mark <:+: text := by
  induction h with
  | nil => exact fun hfound => hmark (List.eq_nil_of_infix_nil hfound)
  | cons hin _ _ ih => exact fun hfound => (List.infix_cons_iff.mp hfound).elim hin ih

/-! ## Literals -/

/-! The characters of a literal are compared faster as a list than through its bytes. -/

theorem toList_literal {text : String} {chars : List Char} (htext : text = .ofList chars) :
    text.toList = chars := by
  rw [htext, String.toList_ofList]

theorem not_mem_literal {text : String} {chars : List Char} (htext : text = .ofList chars)
    (h : first ∉ chars) : first ∉ text.toList := by
  rw [toList_literal htext]
  exact h

theorem cons_literal {text behind : String} {chars : List Char}
    (htext : text = .ofList (first :: chars)) (hbehind : behind = .ofList chars) :
    text.toList = first :: behind.toList := by
  rw [toList_literal htext, toList_literal hbehind]

end Marks
end SceneScript
