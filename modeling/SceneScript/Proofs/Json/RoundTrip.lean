import SceneScript.Proofs.Json.Spelling

/-! # Trees survive their text

What is printed, in either layout, is read as the same tree.
-/

namespace SceneScript

namespace Json

/-! ## Plain trees -/

mutual

/-- Every part has a value, and every number is a whole one of 64 bits. -/
def Plain : Json → Prop
  | .num (.integer value) => value.natAbs < UInt64.size
  | .num (.decimal ..) | .unreadable => False
  | .arr items => PlainItems items
  | .obj members => PlainMembers members
  | _ => True

def PlainItems : List Json → Prop
  | [] => True
  | item :: rest => item.Plain ∧ PlainItems rest

def PlainMembers : List (String × Json) → Prop
  | [] => True
  | (_, value) :: rest => value.Plain ∧ PlainMembers rest

end

theorem plainItems_iff {items : List Json} : PlainItems items ↔ ∀ item ∈ items, item.Plain := by
  induction items with
  | nil => simp [PlainItems]
  | cons item rest ih => simp [PlainItems, ih]

theorem plainMembers_iff {members : List (String × Json)} :
    PlainMembers members ↔ ∀ member ∈ members, member.2.Plain := by
  induction members with
  | nil => simp [PlainMembers]
  | cons member rest ih => simp [PlainMembers, ih]

mutual

theorem isReadable_of_plain (tree : Json) (h : tree.Plain) : tree.isReadable = true := by
  cases tree with
  | arr items => exact itemsReadable_of_plain items h
  | obj members => exact membersReadable_of_plain members h
  | unreadable => exact h.elim
  | _ => rfl

theorem itemsReadable_of_plain (items : List Json) (h : PlainItems items) :
    itemsReadable items = true := by
  cases items with
  | nil => rfl
  | cons item rest =>
      exact Bool.and_eq_true_iff.mpr ⟨isReadable_of_plain item h.1, itemsReadable_of_plain rest h.2⟩

theorem membersReadable_of_plain (members : List (String × Json)) (h : PlainMembers members) :
    membersReadable members = true := by
  cases members with
  | nil => rfl
  | cons member rest =>
      exact Bool.and_eq_true_iff.mpr
        ⟨isReadable_of_plain member.2 h.1, membersReadable_of_plain rest h.2⟩

end

end Json

/-! ## Spelling trees -/

namespace Lexer

open Json

theorem isBlank_newline (level : Nat) : ∀ c ∈ newline level, isBlank c = true := by
  intro c hc
  rcases List.mem_cons.mp hc with rfl | hc
  · rfl
  · rw [List.eq_of_mem_replicate hc]
    rfl

/-- A token on a new line. -/
theorem Spells.newline {text : List Char} {tokens : List Token} (level : Nat)
    (h : Spells text tokens) : Spells (Json.newline level ++ text) tokens :=
  .blanks (isBlank_newline level) h

/-- The end of a list, on a line of its own. -/
theorem continues_close {c : Char} {token : Token}
    (hc : ∀ before, begin? before c = some ⟨token :: before, .between⟩) (level : Nat) :
    Continues (Json.newline level ++ [c]) [token] :=
  Spells.continues rfl (.newline level (.mark hc .nil))

/-- A key and a colon stand in front of the value of a member. -/
theorem Spells.member {text : List Char} {tokens : List Token} (key : String)
    (h : Spells text tokens) :
    Spells (quote key ++ ':' :: text) (.text (some key) :: .colon :: tokens) := by
  have hcolon : Spells (':' :: text) (.colon :: tokens) := .mark (fun _ => rfl) h
  exact (spells_quote key).append (hcolon.continues rfl)

/-- Behind a comma the next part of a list stands on a new line. -/
theorem Spells.next {text : List Char} {tokens : List Token} (level : Nat)
    (h : Spells text tokens) : Continues (',' :: (Json.newline level ++ text)) (.comma :: tokens) :=
  Spells.continues rfl (.mark (fun _ => rfl) (h.newline level))

theorem spells_num {value : Numeral} (h : (Json.num value).Plain) :
    Spells (numeral value) [.atom (.num value)] := by
  cases value with
  | integer value =>
      have hfinite : (Numeral.integer value).isFinite = true := by
        rw [Numeral.isFinite, Bool.or_eq_true, decide_eq_true_eq]
        exact .inl h
      have hspells := spells_integer value
      rw [Token.ofNumeral, if_pos hfinite] at hspells
      exact hspells
  | decimal negative mantissa exponent => exact h.elim

mutual

theorem spells_pretty (tree : Json) (h : tree.Plain) (level : Nat) :
    Spells (tree.prettyChars level) tree.tokens := by
  cases tree with
  | null => exact spells_null
  | bool value => cases value with
    | false => exact spells_bool false
    | true => exact spells_bool true
  | num value => exact spells_num h
  | str value => exact spells_quote value
  | arr items =>
      cases items with
      | nil => exact .mark (fun _ => rfl) (.mark (fun _ => rfl) .nil)
      | cons item rest =>
          obtain ⟨hitem, hrest⟩ := h
          have hclose : Continues (Json.newline level ++ [']']) [.closeArray] :=
            continues_close (fun _ => rfl) level
          have hitems := (spells_pretty item hitem (level + 1)).append
            ((continues_prettyItems rest hrest (level + 1)).append hclose)
          have hall : Spells ('[' :: _) (.openArray :: _) :=
            .mark (fun _ => rfl) (hitems.newline (level + 1))
          simpa only [prettyChars, Json.tokens, List.cons_append, List.append_assoc] using hall
  | obj members =>
      cases members with
      | nil => exact .mark (fun _ => rfl) (.mark (fun _ => rfl) .nil)
      | cons member rest =>
          obtain ⟨key, value⟩ := member
          obtain ⟨hvalue, hrest⟩ := h
          have hclose : Continues (Json.newline level ++ ['\x7d']) [.closeObject] :=
            continues_close (fun _ => rfl) level
          have hmembers := (Spells.blank (c := ' ') rfl ((spells_pretty value hvalue
            (level + 1)).append ((continues_prettyMembers rest hrest (level + 1)).append
              hclose))).member key
          have hall : Spells ('\x7b' :: _) (.openObject :: _) :=
            .mark (fun _ => rfl) (hmembers.newline (level + 1))
          simpa only [prettyChars, Json.tokens, List.cons_append, List.append_assoc] using hall
  | unreadable => exact h.elim

theorem continues_prettyItems (rest : List Json) (h : PlainItems rest) (level : Nat) :
    Continues (prettyItems level rest) (itemTokens rest) := by
  cases rest with
  | nil => exact .nil
  | cons item rest =>
      obtain ⟨hitem, hrest⟩ := h
      have hitems := (spells_pretty item hitem level).append
        (continues_prettyItems rest hrest level)
      simpa only [prettyItems, itemTokens, List.cons_append, List.append_assoc] using
        hitems.next level

theorem continues_prettyMembers (rest : List (String × Json)) (h : PlainMembers rest)
    (level : Nat) : Continues (prettyMembers level rest) (memberTokens rest) := by
  cases rest with
  | nil => exact .nil
  | cons member rest =>
      obtain ⟨key, value⟩ := member
      obtain ⟨hvalue, hrest⟩ := h
      have hmembers := (Spells.blank (c := ' ') rfl ((spells_pretty value hvalue level).append
        (continues_prettyMembers rest hrest level))).member key
      simpa only [prettyMembers, memberTokens, List.cons_append, List.append_assoc] using
        hmembers.next level

end

/-- Behind a comma the next part of a list stands at once. -/
theorem Spells.adjoin {text : List Char} {tokens : List Token} (h : Spells text tokens) :
    Continues (',' :: text) (.comma :: tokens) :=
  Spells.continues rfl (.mark (fun _ => rfl) h)

mutual

theorem spells_compact (tree : Json) (h : tree.Plain) : Spells tree.compactChars tree.tokens := by
  cases tree with
  | null => exact spells_null
  | bool value => exact spells_bool value
  | num value => exact spells_num h
  | str value => exact spells_quote value
  | arr items =>
      cases items with
      | nil => exact .mark (fun _ => rfl) (.mark (fun _ => rfl) .nil)
      | cons item rest =>
          obtain ⟨hitem, hrest⟩ := h
          have hclose : Continues [']'] [.closeArray] :=
            Spells.continues rfl (.mark (fun _ => rfl) .nil)
          have hitems := (spells_compact item hitem).append
            ((continues_compactItems rest hrest).append hclose)
          have hall : Spells ('[' :: _) (.openArray :: _) := .mark (fun _ => rfl) hitems
          simpa only [compactChars, Json.tokens, List.cons_append, List.append_assoc] using hall
  | obj members =>
      cases members with
      | nil => exact .mark (fun _ => rfl) (.mark (fun _ => rfl) .nil)
      | cons member rest =>
          obtain ⟨key, value⟩ := member
          obtain ⟨hvalue, hrest⟩ := h
          have hclose : Continues ['\x7d'] [.closeObject] :=
            Spells.continues rfl (.mark (fun _ => rfl) .nil)
          have hmembers := ((spells_compact value hvalue).append
            ((continues_compactMembers rest hrest).append hclose)).member key
          have hall : Spells ('\x7b' :: _) (.openObject :: _) := .mark (fun _ => rfl) hmembers
          simpa only [compactChars, Json.tokens, List.cons_append, List.append_assoc] using hall
  | unreadable => exact h.elim

theorem continues_compactItems (rest : List Json) (h : PlainItems rest) :
    Continues (compactItems rest) (itemTokens rest) := by
  cases rest with
  | nil => exact .nil
  | cons item rest =>
      obtain ⟨hitem, hrest⟩ := h
      have hitems := (spells_compact item hitem).append (continues_compactItems rest hrest)
      simpa only [compactItems, itemTokens, List.cons_append] using hitems.adjoin

theorem continues_compactMembers (rest : List (String × Json)) (h : PlainMembers rest) :
    Continues (compactMembers rest) (memberTokens rest) := by
  cases rest with
  | nil => exact .nil
  | cons member rest =>
      obtain ⟨key, value⟩ := member
      obtain ⟨hvalue, hrest⟩ := h
      have hmembers := ((spells_compact value hvalue).append
        (continues_compactMembers rest hrest)).member key
      simpa only [compactMembers, memberTokens, List.cons_append, List.append_assoc] using
        hmembers.adjoin

end

end Lexer

/-! ## Reading what was printed -/

theorem Token.scan?_of_spells {text : List Char} {tokens : List Token}
    (h : Lexer.Spells text tokens) : scan? text = some tokens := by
  obtain ⟨lexer, hrun, hbehind⟩ := h []
  have hfold : text.foldlM Lexer.step Lexer.start = some lexer := hrun
  rw [scan?, hfold, Option.bind_some, hbehind.close]
  simp

theorem Json.parse?_pretty {tree : Json} (h : tree.Plain) : parse? tree.pretty = some tree := by
  have hscan := Token.scan?_of_spells (Lexer.spells_pretty tree h 0)
  rw [parse?, pretty, String.toList_ofList, hscan, Option.bind_some, ofTokens?_tokens]

end SceneScript
