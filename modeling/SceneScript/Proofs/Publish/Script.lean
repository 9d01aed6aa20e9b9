import SceneScript.Publish.Html
import SceneScript.Proofs.Json.RoundTrip

/-! # Documents inside scripts

Outside of its strings a JSON text has no `<`, and inside of them an escaped slash is a slash. So
the text that a script may hold is read as the text it was, and no tag with a quoted attribute gets
into it.
-/

namespace SceneScript

namespace Lexer

/-- Only a string goes on behind `<`. -/
theorem quoted_of_step_less {lexer next : Lexer} (h : lexer.step '<' = some next) :
    ∃ tokens units, lexer = ⟨tokens, .quoted units⟩ ∧
      next = ⟨tokens, .quoted ('<'.toNat :: units)⟩ := by
  obtain ⟨tokens, mode⟩ := lexer
  have hends : ∀ closed : Option (List Token), closed.bind (begin? · '<') = none := by
    intro closed
    cases closed <;> rfl
  cases mode with
  | quoted units => exact ⟨tokens, units, rfl, (Option.some.inj h).symm⟩
  | word letters => exact nomatch (hends _).symm.trans h
  | numeral chars => exact nomatch (hends _).symm.trans h
  | _ => cases h

/-- A text without closing tags is scanned as the one that had them. -/
theorem run_escapeScript (text : List Char) (lexer : Lexer) :
    lexer.run (Html.escapeScript text) = lexer.run text := by
  induction text using Html.escapeScript.induct generalizing lexer with
  | case1 rest ih =>
      rw [Html.escapeScript, run_cons, run_cons]
      cases hless : lexer.step '<' with
      | none => rfl
      | some next =>
          obtain ⟨tokens, units, -, rfl⟩ := quoted_of_step_less hless
          exact ih ⟨tokens, .quoted ('/'.toNat :: '<'.toNat :: units)⟩
  | case2 c rest hslash ih =>
      rw [Html.escapeScript.eq_2 c rest hslash, run_cons, run_cons]
      exact congrArg _ (funext ih)
  | case3 => rfl

/-- What is scanned has no text in it that is never scanned. -/
theorem not_infix_of_run {mark text : List Char} {lexer final : Lexer}
    (hmark : ∀ lexer : Lexer, lexer.run mark = none) (h : lexer.run text = some final) :
    ¬ mark <:+: text := by
  rintro ⟨before, behind, rfl⟩
  rw [run_append, run_append] at h
  cases hbefore : lexer.run before <;> simp [hbefore, hmark] at h

end Lexer

theorem Token.scan?_escapeScript (text : List Char) :
    scan? (Html.escapeScript text) = scan? text := by
  have hrun : (Html.escapeScript text).foldlM Lexer.step Lexer.start =
      text.foldlM Lexer.step Lexer.start := Lexer.run_escapeScript text Lexer.start
  rw [scan?, hrun, scan?]

/-- The document in a script is read as the document. -/
theorem Json.parse?_escapeScript {tree : Json} (h : tree.Plain) :
    parse? (.ofList (Html.escapeScript tree.compactChars)) = some tree := by
  have hscan := Token.scan?_of_spells (Lexer.spells_compact tree h)
  rw [parse?, String.toList_ofList, Token.scan?_escapeScript, hscan, Option.bind_some,
    ofTokens?_tokens]

namespace Html

/-- The quotes of the tag end the string that it would stand in, and a bare word follows. -/
theorem run_opening (lexer : Lexer) :
    lexer.run "<script type=\"application/wasm\" id=\"vn-runtime\">".toList = none := by
  change (lexer.step '<').bind
    (·.run "script type=\"application/wasm\" id=\"vn-runtime\">".toList) = none
  cases hless : lexer.step '<' with
  | none => rfl
  | some next =>
      obtain ⟨tokens, units, -, rfl⟩ := Lexer.quoted_of_step_less hless
      rfl

/-- Only what follows `<` is changed. -/
theorem head?_escapeScript (text : List Char) : (escapeScript text).head? = text.head? := by
  induction text using escapeScript.induct with
  | case1 rest => simp [escapeScript]
  | case2 c rest hslash => rw [escapeScript.eq_2 c rest hslash, List.head?_cons, List.head?_cons]
  | case3 => rfl

/-- No closing tag is left. -/
theorem not_infix_escapeScript (mark text : List Char) :
    ¬ '<' :: '/' :: mark <:+: escapeScript text := by
  induction text using escapeScript.induct with
  | case1 rest ih =>
      simp only [escapeScript, List.infix_cons_iff, List.cons_prefix_cons]
      simp [ih]
  | case2 c rest hslash ih =>
      rw [escapeScript.eq_2 c rest hslash, List.infix_cons_iff, List.cons_prefix_cons]
      rintro (⟨rfl, hrest⟩ | hrest)
      · have hhead := (head?_escapeScript rest).symm
        obtain ⟨behind, hbehind⟩ := hrest
        rw [← hbehind] at hhead
        obtain ⟨tail, htail⟩ := List.head?_eq_some_iff.mp hhead
        exact hslash tail rfl htail
      · exact ih hrest
  | case3 => simp [escapeScript]

end Html
end SceneScript
