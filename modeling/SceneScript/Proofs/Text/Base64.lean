import Mathlib.Data.List.Basic
import SceneScript.Asset.DataUrl

/-! # Base64 loses nothing

Every symbol is a single byte of the text, and four of them hold the bits of three bytes.
-/

namespace SceneScript

/-! ## Bytes of a text -/

namespace DataUrl

theorem toList_loop (bytes : ByteArray) (start : Nat) (read : List UInt8) :
    ByteArray.toList.loop bytes start read = read.reverse ++ bytes.data.toList.drop start := by
  induction start, read using ByteArray.toList.loop.induct bytes with
  | case1 start read hstart ih =>
      have hlength : start < bytes.data.toList.length := hstart
      have hbyte : bytes.get! start = bytes.data.toList[start] :=
        getElem!_pos bytes.data start hstart
      rw [ByteArray.toList.loop.eq_1, if_pos hstart, ih, hbyte, List.drop_eq_getElem_cons hlength,
        List.reverse_cons, List.append_assoc, List.singleton_append]
  | case2 start read hstart =>
      have hlength : bytes.data.toList.length ≤ start := Nat.le_of_not_lt hstart
      rw [ByteArray.toList.loop.eq_1, if_neg hstart, List.drop_of_length_le hlength,
        List.append_nil]

/-- The byte of a character that needs only one. -/
def asciiByte (c : Char) : UInt8 := c.val.toUInt8

theorem utf8_eq_map {text : List Char} (h : ∀ c ∈ text, c.utf8Size = 1) :
    utf8 text = text.map asciiByte := by
  have hbytes : text.flatMap String.utf8EncodeChar = text.flatMap fun c => [asciiByte c] :=
    List.flatMap_congr fun c hc => String.utf8EncodeChar_eq_singleton (h c hc)
  change ByteArray.toList.loop (String.ofList text).toByteArray 0 [] = _
  rw [toList_loop, String.toByteArray_ofList, List.utf8Encode, List.toList_data_toByteArray, hbytes,
    List.reverse_nil, List.nil_append, List.drop_zero, List.map_eq_flatMap]

end DataUrl

namespace Base64

open DataUrl

/-! ## Symbols -/

theorem value?_symbol : ∀ value < 64, value? (asciiByte (symbol value)) = some value := by decide

theorem utf8Size_symbol : ∀ value < 64, (symbol value).utf8Size = 1 := by decide

theorem symbol_ne_padding : ∀ value < 64, asciiByte (symbol value) ≠ padding := by decide

theorem valueAt_symbol {value : Nat} (h : value < 64) (offset : Nat) :
    valueAt (asciiByte (symbol value)) offset = .ok value := by
  rw [valueAt, value?_symbol value h]

/-- A text is made of symbols and padding. -/
theorem forall_mem_encode {holds : Char → Prop} (hsymbol : ∀ value < 64, holds (symbol value))
    (hpadding : holds '=') (bytes : List UInt8) : ∀ c ∈ encode bytes, holds c := by
  induction bytes using encode.induct with
  | case1 => exact fun c hc => nomatch hc
  | case2 a =>
      have ha := a.toNat_lt
      simp only [encode, List.forall_mem_cons]
      exact ⟨hsymbol _ (by omega), hsymbol _ (by omega), hpadding, hpadding, nofun⟩
  | case3 a b =>
      have ha := a.toNat_lt
      have hb := b.toNat_lt
      simp only [encode, List.forall_mem_cons]
      exact ⟨hsymbol _ (by omega), hsymbol _ (by omega), hsymbol _ (by omega), hpadding, nofun⟩
  | case4 a b c rest ih =>
      have ha := a.toNat_lt
      have hb := b.toNat_lt
      have hc := c.toNat_lt
      simp only [encode, List.forall_mem_cons]
      exact ⟨hsymbol _ (by omega), hsymbol _ (by omega), hsymbol _ (by omega),
        hsymbol _ (by omega), ih⟩

theorem utf8_encode (bytes : List UInt8) : utf8 (encode bytes) = (encode bytes).map asciiByte :=
  utf8_eq_map (forall_mem_encode utf8Size_symbol (by decide) bytes)

theorem encode_ne_nil (byte : UInt8) (rest : List UInt8) : encode (byte :: rest) ≠ [] := by
  rcases rest with - | ⟨b, - | ⟨c, rest⟩⟩ <;> simp [encode]

/-- Texts are made of groups of four. -/
theorem length_encode_mod (bytes : List UInt8) : (encode bytes).length % 4 = 0 := by
  induction bytes using encode.induct with
  | case4 a b c rest ih =>
      simp only [encode, List.length_cons]
      omega
  | _ => simp [encode]

/-! ## Groups -/

theorem lastSymbols_symbol {value : Nat} (h : value < 64) (offset : Nat) (rest : List UInt8)
    (place : Nat) :
    lastSymbols offset (asciiByte (symbol value) :: rest) place =
      (lastSymbols offset rest (place + 1)).map (value :: ·) := by
  rw [lastSymbols, if_neg (symbol_ne_padding value h), valueAt_symbol h]
  cases lastSymbols offset rest (place + 1) <;> rfl

section Last

variable {offset w x y z : Nat} {group : List UInt8}

theorem decodeLast_two (hsymbols : lastSymbols offset group 0 = .ok [w, x])
    (hgroup : group.length = 4) (hrest : x % 16 = 0) :
    decodeLast offset group = .ok [.ofNat (w * 4 + x / 16)] := by
  simp [decodeLast, hsymbols, hgroup, hrest, bind, Except.bind, pure, Except.pure]

theorem decodeLast_three (hsymbols : lastSymbols offset group 0 = .ok [w, x, y])
    (hgroup : group.length = 4) (hrest : y % 4 = 0) :
    decodeLast offset group = .ok [.ofNat (w * 4 + x / 16), .ofNat (x % 16 * 16 + y / 4)] := by
  simp [decodeLast, hsymbols, hgroup, hrest, bind, Except.bind, pure, Except.pure]

theorem decodeLast_four (hsymbols : lastSymbols offset group 0 = .ok [w, x, y, z])
    (hgroup : group.length = 4) :
    decodeLast offset group =
      .ok [.ofNat (w * 4 + x / 16), .ofNat (x % 16 * 16 + y / 4), .ofNat (y % 4 * 64 + z)] := by
  simp [decodeLast, hsymbols, hgroup, bind, Except.bind, pure, Except.pure]

end Last

theorem ofNat_eq {value : Nat} {byte : UInt8} (h : value = byte.toNat) : .ofNat value = byte := by
  rw [h, UInt8.ofNat_toNat]

theorem decodeGroups_encode {bytes : List UInt8} (h : bytes ≠ []) (offset : Nat) :
    decodeGroups offset ((encode bytes).map asciiByte) = .ok bytes := by
  induction bytes using encode.induct generalizing offset with
  | case1 => exact absurd rfl h
  | case2 a =>
      have ha := a.toNat_lt
      have hsymbols : lastSymbols offset ((encode [a]).map asciiByte) 0 =
          .ok [a.toNat / 4, a.toNat % 4 * 16] := by
        simp only [encode, List.map_cons]
        rw [lastSymbols_symbol (by omega), lastSymbols_symbol (by omega)]
        rfl
      have hfirst : UInt8.ofNat (a.toNat / 4 * 4 + a.toNat % 4 * 16 / 16) = a := ofNat_eq (by omega)
      change decodeLast offset ((encode [a]).map asciiByte) = _
      rw [decodeLast_two hsymbols rfl (by omega), hfirst]
  | case3 a b =>
      have ha := a.toNat_lt
      have hb := b.toNat_lt
      have hsymbols : lastSymbols offset ((encode [a, b]).map asciiByte) 0 =
          .ok [a.toNat / 4, a.toNat % 4 * 16 + b.toNat / 16, b.toNat % 16 * 4] := by
        simp only [encode, List.map_cons]
        rw [lastSymbols_symbol (by omega), lastSymbols_symbol (by omega),
          lastSymbols_symbol (by omega)]
        rfl
      have hfirst : UInt8.ofNat (a.toNat / 4 * 4 + (a.toNat % 4 * 16 + b.toNat / 16) / 16) = a :=
        ofNat_eq (by omega)
      have hsecond : UInt8.ofNat ((a.toNat % 4 * 16 + b.toNat / 16) % 16 * 16 +
          b.toNat % 16 * 4 / 4) = b := ofNat_eq (by omega)
      change decodeLast offset ((encode [a, b]).map asciiByte) = _
      rw [decodeLast_three hsymbols rfl (by omega), hfirst, hsecond]
  | case4 a b c rest ih =>
      have ha := a.toNat_lt
      have hb := b.toNat_lt
      have hc := c.toNat_lt
      have hfirst : UInt8.ofNat (a.toNat / 4 * 4 + (a.toNat % 4 * 16 + b.toNat / 16) / 16) = a :=
        ofNat_eq (by omega)
      have hsecond : UInt8.ofNat ((a.toNat % 4 * 16 + b.toNat / 16) % 16 * 16 +
          (b.toNat % 16 * 4 + c.toNat / 64) / 4) = b := ofNat_eq (by omega)
      have hthird : UInt8.ofNat ((b.toNat % 16 * 4 + c.toNat / 64) % 4 * 64 + c.toNat % 64) = c :=
        ofNat_eq (by omega)
      cases rest with
      | nil =>
          have hsymbols : lastSymbols offset ((encode [a, b, c]).map asciiByte) 0 =
              .ok [a.toNat / 4, a.toNat % 4 * 16 + b.toNat / 16,
                b.toNat % 16 * 4 + c.toNat / 64, c.toNat % 64] := by
            simp only [encode, List.map_cons]
            rw [lastSymbols_symbol (by omega), lastSymbols_symbol (by omega),
              lastSymbols_symbol (by omega), lastSymbols_symbol (by omega)]
            rfl
          change decodeLast offset ((encode [a, b, c]).map asciiByte) = _
          rw [decodeLast_four hsymbols rfl, hfirst, hsecond, hthird]
      | cons d rest =>
          have hbehind := ih (List.cons_ne_nil d rest) (offset + 4)
          rw [encode]
          obtain ⟨e, later, hlater⟩ := List.exists_cons_of_ne_nil (encode_ne_nil d rest)
          simp only [List.map_cons, hlater] at hbehind ⊢
          rw [decodeGroups, valueAt_symbol (by omega), valueAt_symbol (by omega),
            valueAt_symbol (by omega), valueAt_symbol (by omega), hbehind]
          simp only [bind, Except.bind, pure, Except.pure, hfirst, hsecond, hthird]

/-- Bytes are read back from their text. -/
theorem decode_encode (bytes : List UInt8) : decode (utf8 (encode bytes)) = .ok bytes := by
  cases bytes with
  | nil => rw [utf8_encode, encode, List.map_nil, decode, List.getLast?_nil]
  | cons byte rest =>
      have hmod := length_encode_mod (byte :: rest)
      have htext : (encode (byte :: rest)).map asciiByte ≠ [] :=
        mt List.map_eq_nil_iff.mp (encode_ne_nil byte rest)
      rw [utf8_encode, decode, List.getLast?_eq_some_getLast htext]
      simp only [List.length_map, hmod]
      exact decodeGroups_encode (List.cons_ne_nil byte rest) 0

end Base64
end SceneScript
