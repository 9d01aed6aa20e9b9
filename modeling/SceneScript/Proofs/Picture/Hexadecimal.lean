import SceneScript.Picture.Color

/-! # Colours in digits

A colour is spelled by three pairs of digits in base sixteen, which may stand behind one `#`. What
is read is more than that: the first character of a pair may be a plus sign, and the other one is
then the channel. All texts that are not read mean black.
-/

namespace SceneScript.Color

/-! ## Digits -/

/-- The character is the digit of a value in base sixteen, in either case. -/
def IsDigit (c : Char) (value : Nat) : Prop :=
  value < 16 ∧ (c = value.digitChar ∨ c = value.digitChar.toUpper)

instance (c : Char) (value : Nat) : Decidable (IsDigit c value) :=
  inferInstanceAs (Decidable (_ ∧ _))

theorem hexValue?_digitChar :
    ∀ value < 16, hexValue? value.digitChar = some value ∧
      hexValue? value.digitChar.toUpper = some value := by
  decide

/-- Characters in a row are digits if each one at a distance from the first is. -/
theorem isDigit_of_between {c first last : Char} {offset : Nat} (h : first ≤ c ∧ c ≤ last)
    (hdigits : ∀ distance ≤ last.toNat - first.toNat,
      IsDigit (.ofNat (first.toNat + distance)) (distance + offset)) :
    IsDigit c (c.toNat - first.toNat + offset) := by
  have hlow : first.toNat ≤ c.toNat := h.1
  have hhigh : c.toNat ≤ last.toNat := h.2
  have hdigit := hdigits (c.toNat - first.toNat) (by omega)
  rwa [Nat.add_sub_cancel' hlow, Char.ofNat_toNat] at hdigit

theorem isDigit_of_hexValue? {c : Char} {value : Nat} (h : hexValue? c = some value) :
    IsDigit c value := by
  simp only [hexValue?, Bool.and_eq_true, decide_eq_true_eq] at h
  split at h
  · next hrange =>
      have hdigit : IsDigit c (c.toNat - '0'.toNat + 0) :=
        isDigit_of_between hrange (by decide)
      rw [← Option.some.inj h]
      exact hdigit
  · split at h
    · next hrange =>
        rw [← Option.some.inj h]
        exact isDigit_of_between hrange (by decide)
    · split at h
      · next hrange =>
          rw [← Option.some.inj h]
          exact isDigit_of_between hrange (by decide)
      · cases h

theorem hexValue?_eq_some_iff {c : Char} {value : Nat} :
    hexValue? c = some value ↔ IsDigit c value := by
  refine ⟨isDigit_of_hexValue?, ?_⟩
  rintro ⟨hvalue, rfl | rfl⟩
  · exact (hexValue?_digitChar value hvalue).1
  · exact (hexValue?_digitChar value hvalue).2

theorem not_isDigit_of_hexValue? {c : Char} (h : hexValue? c = none) (value : Nat) :
    ¬IsDigit c value := by
  rw [← hexValue?_eq_some_iff, h]
  exact nofun

/-! ## Channels -/

/-- Two digits, the higher one first. -/
def Pair (high low : Char) (channel : UInt8) : Prop :=
  ∃ sixteens ones, IsDigit high sixteens ∧ IsDigit low ones ∧
    channel.toNat = 16 * sixteens + ones

/-- A plus sign and a digit. -/
def Signed (high low : Char) (channel : UInt8) : Prop :=
  high = '+' ∧ IsDigit low channel.toNat

/-- What is read as a channel. -/
def Readable (high low : Char) (channel : UInt8) : Prop :=
  Pair high low channel ∨ Signed high low channel

variable {high low : Char} {channel : UInt8}

theorem eq_ofNat_iff {value : Nat} (h : value < 256) :
    UInt8.ofNat value = channel ↔ channel.toNat = value := by
  constructor
  · rintro rfl
    exact UInt8.toNat_ofNat_of_lt h
  · rintro rfl
    exact UInt8.ofNat_toNat

theorem channel?_plus : channel? '+' low = some channel ↔ Signed '+' low channel := by
  simp only [channel?, Signed, true_and, ← hexValue?_eq_some_iff]
  cases hlow : hexValue? low with
  | none => simp
  | some ones =>
      have hones : ones < 16 := (isDigit_of_hexValue? hlow).1
      have hchannel : UInt8.ofNat ones = channel ↔ channel.toNat = ones :=
        eq_ofNat_iff (by omega)
      simpa [eq_comm] using hchannel

theorem channel?_digits (h : high ≠ '+') :
    channel? high low = some channel ↔ Pair high low channel := by
  simp only [channel?, Pair, ← hexValue?_eq_some_iff, h, if_false]
  cases hlow : hexValue? low with
  | none => simp
  | some ones =>
      cases hhigh : hexValue? high with
      | none => simp
      | some sixteens =>
          have hones : ones < 16 := (isDigit_of_hexValue? hlow).1
          have hsixteens : sixteens < 16 := (isDigit_of_hexValue? hhigh).1
          have hchannel : UInt8.ofNat (16 * sixteens + ones) = channel ↔
              channel.toNat = 16 * sixteens + ones := eq_ofNat_iff (by omega)
          simpa using hchannel

theorem not_pair_of_not_digit (h : hexValue? high = none) : ¬Pair high low channel := by
  rintro ⟨sixteens, ones, hhigh, -⟩
  exact not_isDigit_of_hexValue? h sixteens hhigh

theorem channel?_eq_some_iff : channel? high low = some channel ↔ Readable high low channel := by
  by_cases hhigh : high = '+'
  · subst hhigh
    rw [channel?_plus, Readable, or_iff_right (not_pair_of_not_digit rfl)]
  · have hsign : ¬Signed high low channel := fun h => hhigh h.1
    rw [channel?_digits hhigh, Readable, or_iff_left hsign]

theorem Readable.ne_hash (h : Readable high low channel) : high ≠ '#' := by
  rintro rfl
  rcases h with hpair | hsigned
  · exact not_pair_of_not_digit rfl hpair
  · exact absurd hsigned.1 (by decide)

theorem Readable.ne_plus (h : Readable high low channel) : low ≠ '+' := by
  rintro rfl
  rcases h with ⟨-, ones, -, hlow, -⟩ | ⟨-, hlow⟩
  · exact not_isDigit_of_hexValue? rfl ones hlow
  · exact not_isDigit_of_hexValue? rfl _ hlow

/-- A channel without a sign is a pair of digits. -/
theorem pair_iff : Pair high low channel ↔ Readable high low channel ∧ '+' ∉ [high, low] := by
  constructor
  · intro h
    have hread : Readable high low channel := .inl h
    have hsign : high ≠ '+' := by
      rintro rfl
      exact not_pair_of_not_digit rfl h
    simp [hread, hsign.symm, hread.ne_plus.symm]
  · rintro ⟨hpair | hsigned, hsign⟩
    · exact hpair
    · exact absurd (hsigned.1 ▸ List.mem_cons_self) hsign

/-! ## Texts -/

/-- The text is a colour, channel by channel, with or without a `#` in front of it. -/
def Spells (Channel : Char → Char → UInt8 → Prop) (text : String) (color : Color) : Prop :=
  ∃ r₁ r₀ g₁ g₀ b₁ b₀,
    (text.toList = [r₁, r₀, g₁, g₀, b₁, b₀] ∨ text.toList = ['#', r₁, r₀, g₁, g₀, b₁, b₀]) ∧
    Channel r₁ r₀ color.red ∧ Channel g₁ g₀ color.green ∧ Channel b₁ b₀ color.blue ∧
    color.alpha = 255

/-- The colour is the one that the text spells, or black if it spells none. -/
def Means (Channel : Char → Char → UInt8 → Prop) (text : String) (color : Color) : Prop :=
  Spells Channel text color ∨ color = black ∧ ∀ other, ¬Spells Channel text other

variable {text : String} {color : Color}

theorem ofHex_of_spells (h : Spells Readable text color) : ofHex text = color := by
  obtain ⟨r₁, r₀, g₁, g₀, b₁, b₀, htext, hred, hgreen, hblue, halpha⟩ := h
  have hhash := hred.ne_hash
  have hcolor : color = ⟨color.red, color.green, color.blue, 255⟩ := by
    rw [← halpha]
  rw [← channel?_eq_some_iff] at hred hgreen hblue
  rw [hcolor]
  rcases htext with htext | htext
  · simp [ofHex, htext, hhash, hred, hgreen, hblue]
  · simp [ofHex, htext, hred, hgreen, hblue]

/-- The characters of a colour, without the `#` in front of them. -/
def bare : List Char → List Char
  | '#' :: digits => digits
  | digits => digits

/-- The colour of six characters. -/
def ofDigits : List Char → Color
  | [r₁, r₀, g₁, g₀, b₁, b₀] =>
    match channel? r₁ r₀, channel? g₁ g₀, channel? b₁ b₀ with
    | some red, some green, some blue => ⟨red, green, blue, 255⟩
    | _, _, _ => black
  | _ => black

theorem ofHex_eq (text : String) : ofHex text = ofDigits (bare text.toList) := rfl

theorem eq_or_eq_bare (chars : List Char) : chars = bare chars ∨ chars = '#' :: bare chars := by
  unfold bare
  split
  · exact .inr rfl
  · exact .inl rfl

theorem ofHex_of_not_spells (h : ∀ other, ¬Spells Readable text other) : ofHex text = black := by
  have hbare := eq_or_eq_bare text.toList
  rw [ofHex_eq]
  generalize bare text.toList = digits at hbare ⊢
  unfold ofDigits
  split
  · split
    · next red green blue hred hgreen hblue =>
        rw [channel?_eq_some_iff] at hred hgreen hblue
        exact absurd ⟨_, _, _, _, _, _, hbare, hred, hgreen, hblue, rfl⟩ (h ⟨red, green, blue, 255⟩)
    · rfl
  · rfl

theorem ofHex_eq_iff_means : ofHex text = color ↔ Means Readable text color := by
  constructor
  · rintro rfl
    by_cases hspells : ∃ other, Spells Readable text other
    · obtain ⟨other, hother⟩ := hspells
      rw [ofHex_of_spells hother]
      exact .inl hother
    · rw [not_exists] at hspells
      exact .inr ⟨ofHex_of_not_spells hspells, hspells⟩
  · rintro (hspells | ⟨rfl, hnone⟩)
    · exact ofHex_of_spells hspells
    · exact ofHex_of_not_spells hnone

theorem spells_pair_iff :
    Spells Pair text color ↔ Spells Readable text color ∧ '+' ∉ text.toList := by
  constructor
  · rintro ⟨r₁, r₀, g₁, g₀, b₁, b₀, htext, hred, hgreen, hblue, halpha⟩
    rw [pair_iff] at hred hgreen hblue
    refine ⟨⟨r₁, r₀, g₁, g₀, b₁, b₀, htext, hred.1, hgreen.1, hblue.1, halpha⟩, ?_⟩
    rcases htext with htext | htext
    · simp_all
    · simp_all
  · rintro ⟨⟨r₁, r₀, g₁, g₀, b₁, b₀, htext, hred, hgreen, hblue, halpha⟩, hsign⟩
    refine ⟨r₁, r₀, g₁, g₀, b₁, b₀, htext, pair_iff.mpr ⟨hred, ?_⟩, pair_iff.mpr ⟨hgreen, ?_⟩,
      pair_iff.mpr ⟨hblue, ?_⟩, halpha⟩
    all_goals
      rcases htext with htext | htext
      · simp_all
      · simp_all

/-- A text means the colour that its readable channels spell, and black if they spell none. So it
means the colour that pairs of digits spell, and black if they spell none, unless it has a plus sign
in it and does not come out black. -/
theorem ofHex_eq_iff (text : String) :
    (∀ color, ofHex text = color ↔ Means Readable text color) ∧
      (Means Pair text (ofHex text) ↔ '+' ∉ text.toList ∨ ofHex text = black) := by
  refine ⟨fun color => ofHex_eq_iff_means, ?_⟩
  have hmeans : Means Readable text (ofHex text) := ofHex_eq_iff_means.mp rfl
  simp only [Means, spells_pair_iff] at hmeans ⊢
  by_cases hsign : '+' ∈ text.toList
  · simp [hsign]
  · simpa [hsign] using hmeans

/-- A text with signs in the places of digits does not come out black. -/
theorem not_means_signed :
    ofHex "+f+8+0" = ⟨15, 8, 0, 255⟩ ∧ ¬Means Pair "+f+8+0" (ofHex "+f+8+0") := by
  have hcolor : ofHex "+f+8+0" = ⟨15, 8, 0, 255⟩ := by decide
  refine ⟨hcolor, ?_⟩
  rintro (hspells | ⟨hblack, -⟩)
  · exact (spells_pair_iff.mp hspells).2 (by decide)
  · rw [hcolor] at hblack
    exact absurd hblack (by decide)

end SceneScript.Color
