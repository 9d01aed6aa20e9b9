import Mathlib.Data.List.Basic
import Mathlib.Data.List.TakeWhile
import SceneScript.Json.Print
import SceneScript.Proofs.Json.Tokens

/-! # Texts that spell tokens

A text spells tokens if the lexer reads it as these tokens wherever a token may begin. A word or a
numeral has no end of its own, so what stands behind it has to begin with a character that ends it.
-/

namespace SceneScript

/-! ## Texts in pieces -/

namespace Lexer

/-- Takes several characters. -/
def run (lexer : Lexer) (text : List Char) : Option Lexer := text.foldlM step lexer

@[simp] theorem run_nil (lexer : Lexer) : lexer.run [] = some lexer := rfl

@[simp] theorem run_cons (lexer : Lexer) (c : Char) (text : List Char) :
    lexer.run (c :: text) = (lexer.step c).bind (·.run text) := rfl

@[simp] theorem run_append (lexer : Lexer) (text later : List Char) :
    lexer.run (text ++ later) = (lexer.run text).bind (·.run later) :=
  List.foldlM_append

/-- The character belongs to no word and no numeral. -/
def separates (c : Char) : Bool := !c.isAlpha && !continuesNumeral c

/-- The lexer has read these tokens, latest first. The latest one may still wait for its end. -/
structure Behind (lexer : Lexer) (tokens : List Token) : Prop where
  close : lexer.close? = some tokens
  next : ∀ c, separates c → lexer.step c = begin? tokens c

theorem behind_between (tokens : List Token) : Behind ⟨tokens, .between⟩ tokens :=
  ⟨rfl, fun _ _ => rfl⟩

theorem behind_word {letters : List Char} {token : Token} (before : List Token)
    (h : Token.ofWord? letters.reverse = some token) :
    Behind ⟨before, .word letters⟩ (token :: before) := by
  refine ⟨by simp [close?, h], fun c hc => ?_⟩
  have hends : c.isAlpha = false := by simp_all [separates]
  simp [step, hends, close?, h]

theorem behind_numeral {chars : List Char} {value : Numeral} (before : List Token)
    (h : Numeral.ofChars? chars.reverse = some value) :
    Behind ⟨before, .numeral chars⟩ (Token.ofNumeral value :: before) := by
  refine ⟨by simp [close?, h], fun c hc => ?_⟩
  have hends : continuesNumeral c = false := by simp_all [separates]
  simp [step, hends, close?, h]

/-- Where a token may begin, the text is read as these tokens. -/
def Spells (text : List Char) (tokens : List Token) : Prop :=
  ∀ before, ∃ lexer, run ⟨before, .between⟩ text = some lexer ∧
    lexer.Behind (tokens.reverse ++ before)

/-- Behind any token, the text is read as these tokens. -/
def Continues (text : List Char) (tokens : List Token) : Prop :=
  ∀ (before : List Token) (lexer : Lexer), lexer.Behind before →
    ∃ final, lexer.run text = some final ∧ final.Behind (tokens.reverse ++ before)

section Pieces

variable {text later : List Char} {tokens behind : List Token} {token : Token} {c : Char}

theorem Spells.nil : Spells [] [] := fun before => ⟨_, rfl, behind_between before⟩

theorem Continues.nil : Continues [] [] := fun _ lexer h => ⟨lexer, rfl, h⟩

theorem Spells.blank (hc : isBlank c = true) (h : Spells text tokens) :
    Spells (c :: text) tokens := by
  intro before
  have hstep : step ⟨before, .between⟩ c = some ⟨before, .between⟩ := by simp [step, begin?, hc]
  rw [run_cons, hstep]
  exact h before

theorem Spells.blanks {gap : List Char} (hgap : ∀ c ∈ gap, isBlank c = true)
    (h : Spells text tokens) : Spells (gap ++ text) tokens := by
  induction gap with
  | nil => exact h
  | cons c rest ih =>
      exact .blank (hgap c List.mem_cons_self) (ih fun c hc => hgap c (List.mem_cons_of_mem _ hc))

/-- A character that is a token by itself. -/
theorem Spells.mark (hc : ∀ before, begin? before c = some ⟨token :: before, .between⟩)
    (h : Spells text tokens) : Spells (c :: text) (token :: tokens) := by
  intro before
  obtain ⟨lexer, hrun, hbehind⟩ := h (token :: before)
  refine ⟨lexer, ?_, by simpa using hbehind⟩
  have hstep : step ⟨before, .between⟩ c = some ⟨token :: before, .between⟩ := hc before
  rw [run_cons, hstep]
  exact hrun

theorem Spells.append (h : Spells text tokens) (hlater : Continues later behind) :
    Spells (text ++ later) (tokens ++ behind) := by
  intro before
  obtain ⟨lexer, hrun, hbehind⟩ := h before
  obtain ⟨final, hfinal, hends⟩ := hlater _ lexer hbehind
  exact ⟨final, by simp [hrun, hfinal], by simpa using hends⟩

theorem Continues.append (h : Continues text tokens) (hlater : Continues later behind) :
    Continues (text ++ later) (tokens ++ behind) := by
  intro before lexer hlexer
  obtain ⟨middle, hrun, hbehind⟩ := h before lexer hlexer
  obtain ⟨final, hfinal, hends⟩ := hlater _ middle hbehind
  exact ⟨final, by simp [hrun, hfinal], by simpa using hends⟩

/-- A character that separates is read alike behind every token. -/
theorem Spells.continues (hc : separates c = true) (h : Spells (c :: text) tokens) :
    Continues (c :: text) tokens := by
  intro before lexer hlexer
  have hstep : lexer.step c = step ⟨before, .between⟩ c := hlexer.next c hc
  rw [run_cons, hstep, ← run_cons]
  exact h before

end Pieces

/-! ## Strings -/

theorem hexDigit?_hexDigit : ∀ value < 16, hexDigit? (hexDigit value) = some value := by decide

/-- Inside a string, an escaped character is read as the character. -/
theorem run_escape (c : Char) (before : List Token) (units : List Nat) :
    run ⟨before, .quoted units⟩ (Json.escape c) = some ⟨before, .quoted (c.toNat :: units)⟩ := by
  by_cases hspecial : c ∈ ['"', '\\', '\x08', '\x0c', '\n', '\r', '\t']
  · simp only [List.mem_cons, List.not_mem_nil, or_false] at hspecial
    rcases hspecial with rfl | rfl | rfl | rfl | rfl | rfl | rfl <;> rfl
  · simp only [List.mem_cons, List.not_mem_nil, or_false, not_or] at hspecial
    obtain ⟨hquote, hslash, hbackspace, hfeed, hline, hreturn, htab⟩ := hspecial
    by_cases hcontrol : c < ' '
    · have hlt : c.toNat < 32 := hcontrol
      have hhigh := hexDigit?_hexDigit (c.toNat / 16) (by omega)
      have hlow := hexDigit?_hexDigit (c.toNat % 16) (by omega)
      have hzero : hexDigit? '0' = some 0 := rfl
      have hunit : 16 * (c.toNat / 16) + c.toNat % 16 = c.toNat := Nat.div_add_mod _ _
      simp [Json.escape, hquote, hslash, hbackspace, hfeed, hline, hreturn, htab, hcontrol, step,
        hhigh, hlow, hzero, hunit]
    · simp [Json.escape, hquote, hslash, hbackspace, hfeed, hline, hreturn, htab, hcontrol, step]

theorem run_escapes (chars : List Char) (before : List Token) (units : List Nat) :
    run ⟨before, .quoted units⟩ (chars.flatMap Json.escape) =
      some ⟨before, .quoted ((chars.map Char.toNat).reverse ++ units)⟩ := by
  induction chars generalizing units with
  | nil => rfl
  | cons c rest ih => simp [run_escape, ih]

end Lexer

/-- Characters are never surrogates, so their code units spell them. -/
theorem Token.charsOfUnits?_toNat (chars : List Char) :
    charsOfUnits? (chars.map Char.toNat) = some chars := by
  induction chars with
  | nil => rfl
  | cons c rest ih =>
      have hvalid : c.toNat < 0xD800 ∨ 0xDFFF < c.toNat ∧ c.toNat < 0x110000 := c.valid
      have hhigh : isHighSurrogate c.toNat = false := by
        simp only [isHighSurrogate, Bool.and_eq_false_iff, decide_eq_false_iff_not]
        omega
      have hlow : isLowSurrogate c.toNat = false := by
        simp only [isLowSurrogate, Bool.and_eq_false_iff, decide_eq_false_iff_not]
        omega
      rw [List.map_cons, charsOfUnits?.eq_def]
      simp [hhigh, hlow, ih, Char.ofNat_toNat]

namespace Lexer

theorem spells_quote (text : String) : Spells (Json.quote text) [.text (some text)] := by
  intro before
  refine ⟨⟨.text (some text) :: before, .between⟩, ?_, behind_between _⟩
  have hopen : step ⟨before, .between⟩ '"' = some ⟨before, .quoted []⟩ := rfl
  rw [Json.quote, List.cons_append, run_cons, hopen, Option.bind_some, run_append, run_escapes]
  simp [step, Token.charsOfUnits?_toNat]

/-! ## Words and numerals -/

theorem spells_null : Spells "null".toList [.atom .null] :=
  fun before => ⟨_, rfl, behind_word before rfl⟩

theorem spells_bool (value : Bool) :
    Spells (Json.bool value).compactChars [.atom (.bool value)] := by
  cases value <;> exact fun before => ⟨_, rfl, behind_word before rfl⟩

end Lexer

namespace Numeral

/-- Only zero is written with a zero in front. -/
theorem head_toDigits {n : Nat} (h : n ≠ 0) : (Nat.toDigits 10 n).head? ≠ some '0' := by
  induction n using Nat.strongRecOn with
  | _ n ih =>
      by_cases hn : n < 10
      · rw [Nat.toDigits_of_lt_base hn]
        intro hzero
        exact h (Nat.zero_eq_digitChar.mp (Option.some.inj hzero).symm)
      · rw [Nat.toDigits_of_base_le (by decide) (Nat.le_of_not_lt hn),
          List.head?_append_of_ne_nil _ Nat.toDigits_ne_nil]
        exact ih (n / 10) (by omega) (by omega)

theorem ofUnsigned?_toDigits {negative : Bool} {n : Nat} (h : negative = true → n ≠ 0) :
    ofUnsigned? negative (Nat.toDigits 10 n) =
      some (.integer (if negative then -(n : Int) else n)) := by
  have hdigits : ∀ c ∈ Nat.toDigits 10 n, c.isDigit = true :=
    fun c hc => Nat.isDigit_of_mem_toDigits (by decide) (by decide) hc
  have hwhole : (Nat.toDigits 10 n).takeWhile Char.isDigit = Nat.toDigits 10 n :=
    List.takeWhile_eq_self_iff.mpr hdigits
  have hrest : (Nat.toDigits 10 n).dropWhile Char.isDigit = [] :=
    List.dropWhile_eq_nil_iff.mpr hdigits
  have hvalue : Natural.ofDigits (Nat.toDigits 10 n) = n := Nat.ofDigitChars_ten_toDigits
  have hzero : ¬((Nat.toDigits 10 n).head? = some '0' ∧ 1 < (Nat.toDigits 10 n).length) := by
    rintro ⟨hhead, hlength⟩
    by_cases hn : n = 0
    · rw [hn, Nat.toDigits_of_lt_base (by decide)] at hlength
      exact absurd hlength (by decide)
    · exact head_toDigits hn hhead
  have hsigned : ¬(negative = true ∧ Nat.toDigits 10 n = ['0']) := by
    rintro ⟨hnegative, heq⟩
    exact head_toDigits (h hnegative) (by rw [heq]; rfl)
  simp only [ofUnsigned?, hwhole, hrest, hvalue]
  simp [Nat.toDigits_ne_nil, hzero, hsigned]

/-- A whole number is spelled by its sign and its digits. -/
theorem chars_integer (value : Int) :
    Json.numeral (.integer value) =
      (if value < 0 then ['-'] else []) ++ Nat.toDigits 10 value.natAbs := by
  cases value with
  | ofNat n => exact Nat.toList_repr
  | negSucc n =>
      change ("-" ++ Nat.repr (n + 1)).toList = _
      rw [String.toList_append, Nat.toList_repr, if_pos (Int.negSucc_lt_zero n)]
      rfl

theorem ofChars?_integer (value : Int) :
    ofChars? (Json.numeral (.integer value)) = some (.integer value) := by
  rw [chars_integer]
  by_cases hsign : value < 0
  · rw [if_pos hsign]
    change ofUnsigned? true (Nat.toDigits 10 value.natAbs) = _
    rw [ofUnsigned?_toDigits fun _ => by omega]
    simp only [if_true]
    congr 2
    omega
  · rw [if_neg hsign, List.nil_append]
    have hread : ofUnsigned? false (Nat.toDigits 10 value.natAbs) = some (.integer value) := by
      rw [ofUnsigned?_toDigits fun hnegative => absurd hnegative Bool.false_ne_true]
      simp only [Bool.false_eq_true, if_false]
      congr 2
      omega
    -- Digits begin with no sign.
    unfold ofChars?
    split
    · next rest heq =>
        have hminus : '-' ∈ Nat.toDigits 10 value.natAbs := heq ▸ List.mem_cons_self
        exact absurd (Nat.isDigit_of_mem_toDigits (by decide) (by decide) hminus) (by decide)
    · exact hread

/-- The characters of a whole number. -/
theorem mem_chars_integer {value : Int} {c : Char} (h : c ∈ Json.numeral (.integer value)) :
    c.isDigit = true ∨ c = '-' := by
  rw [chars_integer, List.mem_append] at h
  rcases h with hsign | hdigit
  · split at hsign
    · exact .inr (List.mem_singleton.mp hsign)
    · cases hsign
  · exact .inl (Nat.isDigit_of_mem_toDigits (by decide) (by decide) hdigit)

end Numeral

namespace Lexer

theorem begin?_numeral {c : Char} (hc : c.isDigit = true ∨ c = '-') (before : List Token) :
    begin? before c = some ⟨before, .numeral [c]⟩ := by
  have hstart : (c.isDigit || c == '-') = true := by simpa using hc
  have hblank : isBlank c = false := by
    by_contra hblank
    simp only [isBlank, Bool.not_eq_false, Bool.or_eq_true, beq_iff_eq] at hblank
    rcases hblank with ((rfl | rfl) | rfl) | rfl <;> exact absurd hstart (by decide)
  have hquote : (c == '"') = false := by
    by_contra hquote
    simp only [Bool.not_eq_false, beq_iff_eq] at hquote
    subst hquote
    exact absurd hstart (by decide)
  simp [begin?, hblank, hquote, hstart]

theorem run_numeral {text : List Char} (htext : ∀ c ∈ text, c.isDigit = true ∨ c = '-')
    (before : List Token) (chars : List Char) :
    run ⟨before, .numeral chars⟩ text = some ⟨before, .numeral (text.reverse ++ chars)⟩ := by
  induction text generalizing chars with
  | nil => rfl
  | cons c rest ih =>
      obtain ⟨hc, hrest⟩ := List.forall_mem_cons.mp htext
      have hgoes : continuesNumeral c = true := by
        rcases hc with hdigit | rfl
        · simp [continuesNumeral, hdigit]
        · rfl
      simp [step, hgoes, ih hrest]

theorem spells_integer (value : Int) :
    Spells (Json.numeral (.integer value)) [Token.ofNumeral (.integer value)] := by
  intro before
  have hread := Numeral.ofChars?_integer value
  have hchars : ∀ c ∈ Json.numeral (.integer value), c.isDigit = true ∨ c = '-' :=
    fun c hc => Numeral.mem_chars_integer hc
  cases htext : Json.numeral (.integer value) with
  | nil =>
      rw [htext] at hread
      cases hread
  | cons c rest =>
      rw [htext] at hread hchars
      obtain ⟨hc, hrest⟩ := List.forall_mem_cons.mp hchars
      have hstep : step ⟨before, .between⟩ c = some ⟨before, .numeral [c]⟩ :=
        begin?_numeral hc before
      refine ⟨⟨before, .numeral (rest.reverse ++ [c])⟩, ?_,
        behind_numeral before (by simpa using hread)⟩
      rw [run_cons, hstep]
      exact run_numeral hrest before [c]

end Lexer
end SceneScript
