import SceneScript.Picture.Layout
import SceneScript.Png.Decode
import SceneScript.Proofs.Asset.Store
import SceneScript.Proofs.Text.Base64

/-! # Pictures that share a handle

References differ by their kind, while a store knows handles only. The references are loaded in
order, so of those with one handle the last whose picture stands in the project counts.
-/

namespace SceneScript

/-! ## The order of references -/

theorem AssetKind.eq_of_rank_eq {kind other : AssetKind} (h : kind.rank = other.rank) :
    kind = other := by
  cases kind <;> cases other <;> first | rfl | cases h

namespace AssetReference

variable {reference other third : AssetReference} {references : List AssetReference}

theorem precedes_iff : reference.precedes other = true ↔
    reference.kind.rank < other.kind.rank ∨
      reference.kind = other.kind ∧ reference.handle < other.handle := by
  simp [precedes]

theorem precedes_trans (h : reference.precedes other = true) (h' : other.precedes third = true) :
    reference.precedes third = true := by
  rw [precedes_iff] at h h' ⊢
  rcases h with hrank | ⟨hkind, hhandle⟩
  · rcases h' with hrank' | ⟨hkind', -⟩
    · exact .inl (Nat.lt_trans hrank hrank')
    · exact .inl (hkind' ▸ hrank)
  · rcases h' with hrank' | ⟨hkind', hhandle'⟩
    · exact .inl (hkind ▸ hrank')
    · exact .inr ⟨hkind.trans hkind', String.lt_trans hhandle hhandle'⟩

/-- One of two different references comes first. -/
theorem precedes_of_not_precedes (h : ¬reference.precedes other = true) (hne : reference ≠ other) :
    other.precedes reference = true := by
  rw [precedes_iff, not_or, not_and] at h
  rw [precedes_iff]
  obtain ⟨hrank, hhandle⟩ := h
  by_cases hlt : other.kind.rank < reference.kind.rank
  · exact .inl hlt
  · have hkind : reference.kind = other.kind := AssetKind.eq_of_rank_eq (by omega)
    refine .inr ⟨hkind.symm, ?_⟩
    apply String.not_le.mp
    intro hle
    have hsame : reference.handle = other.handle :=
      String.le_antisymm hle (String.not_lt.mp (hhandle hkind))
    apply hne
    cases reference
    cases other
    congr

/-- References in their order, each once. -/
abbrev Sorted (references : List AssetReference) : Prop :=
  references.Pairwise fun first second => first.precedes second = true

theorem Sorted.place (h : Sorted references) (reference : AssetReference) :
    Sorted (reference.place references) := by
  induction references with
  | nil => exact List.pairwise_singleton ..
  | cons first rest ih =>
      obtain ⟨hfirst, hrest⟩ := List.pairwise_cons.mp h
      unfold AssetReference.place
      split
      · next hbefore =>
          refine List.pairwise_cons.mpr ⟨?_, h⟩
          intro later hlater
          rcases List.mem_cons.mp hlater with hsame | hbehind
          · rw [hsame]
            exact hbefore
          · exact precedes_trans hbefore (hfirst later hbehind)
      · next hbefore =>
          split
          · exact h
          · next hne =>
              refine List.pairwise_cons.mpr ⟨?_, ih hrest⟩
              intro later hlater
              rcases mem_place.mp hlater with hsame | hbehind
              · rw [hsame]
                exact precedes_of_not_precedes hbefore hne
              · exact hfirst later hbehind

theorem Sorted.foldl_place (h : Sorted references) (uses : List AssetReference) :
    Sorted (uses.foldl (fun references reference => reference.place references) references) := by
  induction uses generalizing references with
  | nil => exact h
  | cons first rest ih => exact ih (h.place first)

theorem sorted_assetReferences (project : Project) : Sorted project.assetReferences :=
  Sorted.foldl_place List.Pairwise.nil _

/-- With one handle, references come in the order of their kinds. -/
theorem rank_lt_of_precedes (h : reference.precedes other = true)
    (hhandle : other.handle = reference.handle) : reference.kind.rank < other.kind.rank := by
  rcases precedes_iff.mp h with hrank | ⟨-, hlt⟩
  · exact hrank
  · rw [hhandle] at hlt
    exact absurd hlt (String.lt_irrefl _)

end AssetReference

/-! ## Data URLs -/

namespace DataUrl

variable {bytes : List UInt8}

theorem after_append {c : Char} {mark before : List Char} (h : c ∉ before) (rest : List Char) :
    after (c :: mark) (before ++ c :: mark ++ rest) = some rest := by
  induction before with
  | nil =>
      have hprefix : (c :: mark).isPrefixOf (c :: mark ++ rest) = true := by simp
      rw [List.nil_append, List.cons_append, after, ← List.cons_append, hprefix]
      simp
  | cons first before ih =>
      rw [List.mem_cons, not_or] at h
      obtain ⟨hfirst, hbefore⟩ := h
      simpa [after, hfirst] using ih hbefore

/-- The data URL of bytes of some type. -/
def write (type : String) (bytes : List UInt8) : String :=
  .ofList (scheme ++ (type.toList ++ encodingMark ++ Base64.encode bytes))

/-- The bytes of a data URL come back. -/
theorem bytes?_write {type : String} (htype : ';' ∉ type.toList) (handle : String) :
    bytes? handle (write type bytes) = .ok (some bytes) := by
  have hscheme (rest : List Char) : scheme.isPrefixOf (scheme ++ rest) = true := by simp
  have hafter : after encodingMark (type.toList ++ encodingMark ++ Base64.encode bytes) =
      some (Base64.encode bytes) := after_append htype _
  simp only [bytes?, write, String.toList_ofList, hscheme, List.drop_left, hafter,
    Base64.decode_encode, if_true]

end DataUrl

/-! ## Pictures in the project -/

variable {decode : Decoder} {project : Project} {image : Bitmap} {handle source : String}

namespace AssetStore

/-- The state to which a data URL brings a handle. Other sources bring it to none. -/
def ofSource? (decode : Decoder) (handle source : String) : Option AssetState :=
  match DataUrl.bytes? handle source with
  | .ok bytes => bytes.map (decoded decode)
  | .error fault => some (.failed fault.message)

theorem isSome_ofSource? :
    (ofSource? decode handle source).isSome = DataUrl.scheme.isPrefixOf source.toList := by
  simp only [ofSource?, DataUrl.bytes?]
  by_cases hscheme : DataUrl.scheme.isPrefixOf source.toList = true
  · rw [if_pos hscheme, hscheme]
    cases DataUrl.after DataUrl.encodingMark (source.toList.drop DataUrl.scheme.length) with
    | none => rfl
    | some payload =>
        dsimp only
        cases Base64.decode (DataUrl.utf8 payload) <;> rfl
  · rw [if_neg hscheme, Bool.eq_false_iff.mpr hscheme]
    rfl

theorem decoded_eq_ready {bytes : List UInt8} :
    decoded decode bytes = .ready image ↔ decode bytes = some image := by
  unfold decoded
  cases decode bytes <;> simp

theorem ofSource?_eq_ready :
    ofSource? decode handle source = some (.ready image) ↔
      ∃ bytes, DataUrl.bytes? handle source = .ok (some bytes) ∧ decode bytes = some image := by
  unfold ofSource?
  cases DataUrl.bytes? handle source with
  | ok bytes => simp [decoded_eq_ready]
  | error fault => simp

end AssetStore

namespace AssetReference

variable {reference : AssetReference}

/-- The picture behind the reference stands in the project, or should. -/
def isEmbedded (project : Project) (reference : AssetReference) : Bool :=
  (reference.imageSource? project).any fun source => DataUrl.scheme.isPrefixOf source.toList

/-- The state to which the project itself brings the picture behind a reference. -/
def embedded? (decode : Decoder) (project : Project) (reference : AssetReference) :
    Option AssetState :=
  (reference.imageSource? project).bind (AssetStore.ofSource? decode reference.handle)

/-- This picture is behind the reference, and it stands in the project. -/
def Embeds (decode : Decoder) (project : Project) (reference : AssetReference) (image : Bitmap) :
    Prop :=
  ∃ source bytes, reference.imageSource? project = some source ∧
    DataUrl.bytes? reference.handle source = .ok (some bytes) ∧ decode bytes = some image

/-- A reference of a later kind has the same handle, and its picture stands in the project too. -/
def Overwritten (project : Project) (reference : AssetReference) : Prop :=
  ∃ later ∈ project.assetReferences, later.handle = reference.handle ∧
    reference.kind.rank < later.kind.rank ∧ later.isEmbedded project = true

theorem isSome_embedded? (decode : Decoder) :
    (reference.embedded? decode project).isSome = reference.isEmbedded project := by
  unfold embedded? isEmbedded
  cases reference.imageSource? project with
  | none => rfl
  | some source => exact AssetStore.isSome_ofSource?

theorem embeds_iff :
    reference.Embeds decode project image ↔
      reference.embedded? decode project = some (.ready image) := by
  simp [Embeds, embedded?, Option.bind_eq_some_iff, AssetStore.ofSource?_eq_ready]

theorem Embeds.isEmbedded (h : reference.Embeds decode project image) :
    reference.isEmbedded project = true := by
  rw [← isSome_embedded? decode, embeds_iff.mp h]
  rfl

/-- Only what is loaded later overwrites a reference. -/
theorem overwritten_iff {before behind : List AssetReference}
    (hlist : project.assetReferences = before ++ reference :: behind) :
    reference.Overwritten project ↔
      ∃ later ∈ behind, later.handle = reference.handle ∧ later.isEmbedded project = true := by
  have hsorted := sorted_assetReferences project
  rw [hlist] at hsorted
  obtain ⟨-, htail, hbefore⟩ := List.pairwise_append.mp hsorted
  have hbehind := (List.pairwise_cons.mp htail).1
  constructor
  · rintro ⟨later, hlater, hhandle, hrank, hembedded⟩
    refine ⟨later, ?_, hhandle, hembedded⟩
    rw [hlist] at hlater
    rcases List.mem_append.mp hlater with hearlier | hrest
    · have hprecedes := hbefore later hearlier reference List.mem_cons_self
      exact absurd (rank_lt_of_precedes hprecedes hhandle.symm) (Nat.lt_asymm hrank)
    · rcases List.mem_cons.mp hrest with hself | hlater
      · rw [hself] at hrank
        exact absurd hrank (Nat.lt_irrefl _)
      · exact hlater
  · rintro ⟨later, hlater, hhandle, hembedded⟩
    refine ⟨later, by simp [hlist, hlater], hhandle, ?_, hembedded⟩
    exact rank_lt_of_precedes (hbehind later hlater) hhandle

end AssetReference

namespace AssetStore

variable {reference : AssetReference}

/-- What loading a reference puts into the slot of a handle. -/
def putBy (decode : Decoder) (project : Project) (handle : String) (reference : AssetReference) :
    Option AssetState :=
  if reference.handle = handle then reference.embedded? decode project else none

/-- Loading a reference sets its own slot, and only if its picture stands in the project. -/
theorem loadReference_fst (sorted : AssetStore × List AssetReference) :
    (loadReference decode project sorted reference).1 =
      match reference.embedded? decode project with
      | some state => sorted.1.set reference.handle state
      | none => sorted.1 := by
  unfold loadReference AssetReference.embedded? ofSource?
  cases reference.imageSource? project with
  | none => rfl
  | some source =>
      dsimp only [Option.bind_some]
      cases DataUrl.bytes? reference.handle source with
      | error fault => rfl
      | ok bytes => cases bytes <;> rfl

theorem slot?_loadReference (sorted : AssetStore × List AssetReference) :
    (loadReference decode project sorted reference).1.slot? handle =
      (putBy decode project handle reference).or (sorted.1.slot? handle) := by
  rw [loadReference_fst, putBy]
  cases reference.embedded? decode project with
  | none => simp
  | some state =>
      rw [slot?_set]
      by_cases h : reference.handle = handle
      · simp [h]
      · simp [h, Ne.symm h]

theorem putBy_eq_none :
    putBy decode project handle reference = none ↔
      ¬(reference.handle = handle ∧ reference.isEmbedded project = true) := by
  rw [← AssetReference.isSome_embedded? decode, putBy]
  split <;> simp_all

/-- Of several references with a handle the last one that sets the slot counts. -/
theorem slot?_foldl_loadReference (references : List AssetReference)
    (sorted : AssetStore × List AssetReference) :
    (references.foldl (loadReference decode project) sorted).1.slot? handle =
      (references.reverse.findSome? (putBy decode project handle)).or (sorted.1.slot? handle) := by
  induction references generalizing sorted with
  | nil => rfl
  | cons first rest ih =>
      rw [List.foldl_cons, ih, slot?_loadReference, List.reverse_cons, List.findSome?_append,
        Option.or_assoc]
      simp

/-- The slot of a handle tells of the one reference that no later one overwrites. -/
theorem slot?_loadEmbedded_eq_some_iff {state : AssetState} :
    (loadEmbedded decode {} project).1.slot? handle = some state ↔
      ∃ last ∈ project.assetReferences, last.handle = handle ∧ ¬last.Overwritten project ∧
        last.embedded? decode project = some state := by
  have hempty : ({} : AssetStore).slot? handle = none := rfl
  rw [loadEmbedded, slot?_foldl_loadReference, hempty, Option.or_none, List.findSome?_eq_some_iff]
  constructor
  · rintro ⟨behind, last, before, hsplit, hstate, hbehind⟩
    have hlist : project.assetReferences = before.reverse ++ last :: behind.reverse := by
      rw [List.reverse_eq_iff] at hsplit
      simpa using hsplit
    have hhandle : last.handle = handle := by
      apply Decidable.byContradiction
      intro hne
      rw [putBy, if_neg hne] at hstate
      cases hstate
    rw [putBy, if_pos hhandle] at hstate
    refine ⟨last, by simp [hlist], hhandle, ?_, hstate⟩
    rw [AssetReference.overwritten_iff hlist, hhandle]
    rintro ⟨later, hlater, hboth⟩
    exact putBy_eq_none.mp (hbehind later (List.mem_reverse.mp hlater)) hboth
  · rintro ⟨last, hlast, hhandle, hfinal, hstate⟩
    obtain ⟨before, behind, hlist⟩ := List.append_of_mem hlast
    rw [AssetReference.overwritten_iff hlist, hhandle] at hfinal
    refine ⟨behind.reverse, last, before.reverse, by simp [hlist], ?_, ?_⟩
    · rw [putBy, if_pos hhandle, hstate]
    · intro later hlater
      rw [putBy_eq_none]
      intro hboth
      exact hfinal ⟨later, List.mem_reverse.mp hlater, hboth⟩

/-- What a store knows that has been filled from a project. -/
def embedded (decode : Decoder) (project : Project) : Catalogue :=
  (loadEmbedded decode {} project).1.catalogue

/-- The picture of a reference that is not overwritten is there. -/
theorem embedded_of_embeds (hmem : reference ∈ project.assetReferences)
    (hembeds : reference.Embeds decode project image) (hlast : ¬reference.Overwritten project) :
    embedded decode project reference.handle = .ready image := by
  have hslot := slot?_loadEmbedded_eq_some_iff.mpr
    ⟨reference, hmem, rfl, hlast, AssetReference.embeds_iff.mp hembeds⟩
  rw [embedded, catalogue_eq, hslot]
  rfl

/-- In the place of an overwritten picture there is that of a later reference with the handle. -/
theorem embedded_of_overwritten (h : reference.Overwritten project) :
    ∃ last ∈ project.assetReferences, last.handle = reference.handle ∧
      reference.kind.rank < last.kind.rank ∧ ¬last.Overwritten project ∧
      last.embedded? decode project = some (embedded decode project reference.handle) := by
  obtain ⟨later, hlater, hhandle, hrank, hembedded⟩ := h
  -- Some reference sets the slot, so the last one that does is there.
  have hsome : ((loadEmbedded decode {} project).1.slot? reference.handle).isSome = true := by
    rw [loadEmbedded, slot?_foldl_loadReference, Option.isSome_or, List.findSome?_isSome_iff.mpr,
      Bool.true_or]
    refine ⟨later, List.mem_reverse.mpr hlater, ?_⟩
    rw [putBy, if_pos hhandle, AssetReference.isSome_embedded?, hembedded]
  obtain ⟨state, hstate⟩ := Option.isSome_iff_exists.mp hsome
  obtain ⟨last, hlast, hsame, hfinal, hput⟩ := slot?_loadEmbedded_eq_some_iff.mp hstate
  refine ⟨last, hlast, hsame, ?_, hfinal, ?_⟩
  · apply Decidable.byContradiction
    intro hearlier
    exact hfinal ⟨later, hlater, hhandle.trans hsame.symm, by omega, hembedded⟩
  · rw [embedded, catalogue_eq, hstate, hput]
    rfl

end AssetStore

/-! ## Backgrounds and characters -/

section Scenes

open Layout Piece

variable {catalogue : Catalogue} {scene : Scene} {entry : AssetEntry} {bytes : List UInt8}
  {opacity : UInt8}

theorem AssetReference.embeds_background (hentry : project.findBackground? handle = some entry)
    (hbytes : DataUrl.bytes? handle entry.image = .ok (some bytes))
    (himage : decode bytes = some image) :
    Embeds decode project ⟨.background, handle⟩ image :=
  ⟨entry.image, bytes, by simp [imageSource?, hentry], hbytes, himage⟩

theorem AssetReference.embeds_character (hentry : project.findCharacter? handle = some entry)
    (hbytes : DataUrl.bytes? handle entry.image = .ok (some bytes))
    (himage : decode bytes = some image) :
    Embeds decode project ⟨.character, handle⟩ image :=
  ⟨entry.image, bytes, by simp [imageSource?, hentry], hbytes, himage⟩

theorem Layout.background_of_ready (hid : scene.backgroundId = some handle)
    (hready : catalogue handle = .ready image) (hopacity : opacity ≠ 0) :
    background catalogue scene opacity =
      ofOp .background (.fill canvas .black) ++
        ofOp .background (.image handle image.bounds canvas opacity) := by
  simp [background, backgroundPicture, hid, hready, hopacity]

theorem Layout.character_of_ready (hid : scene.characterId = some handle)
    (hready : catalogue handle = .ready image) (animation : Option FrameAnimation)
    (clockMs : UInt64) (hopacity : opacity ≠ 0) :
    character catalogue scene animation clockMs opacity =
      let source := spriteSource image.width image.height animation clockMs
      ofOp .character (.image handle source (stand source.width source.height) opacity) := by
  simp [character, characterPicture, hid, hready, hopacity]

/-- A store filled from a project has for each reference its own picture, provided that the project
holds it and that no reference of a later kind with the same handle brings a picture too. Then it has
the last of these. So a scene shows the entries that it names, if their pictures are not
overwritten. -/
theorem AssetStore.embedded_by_kind (decode : Decoder) (project : Project) :
    (∀ reference ∈ project.assetReferences, ∀ image, reference.Embeds decode project image →
      (¬reference.Overwritten project →
        embedded decode project reference.handle = .ready image) ∧
      (reference.Overwritten project →
        ∃ last ∈ project.assetReferences, last.handle = reference.handle ∧
          reference.kind.rank < last.kind.rank ∧ ¬last.Overwritten project ∧
          last.embedded? decode project = some (embedded decode project reference.handle))) ∧
    (∀ scene ∈ project.scenes, ∀ id, scene.backgroundId = some id → id ≠ "" →
      ∀ entry bytes image, project.findBackground? id = some entry →
        DataUrl.bytes? id entry.image = .ok (some bytes) → decode bytes = some image →
        ¬AssetReference.Overwritten project ⟨.background, id⟩ →
        embedded decode project id = .ready image ∧
          ∀ opacity : UInt8, opacity ≠ 0 → background (embedded decode project) scene opacity =
            ofOp .background (.fill canvas .black) ++
              ofOp .background (.image id image.bounds canvas opacity)) ∧
    (∀ scene ∈ project.scenes, ∀ id, scene.characterId = some id → id ≠ "" →
      ∀ entry bytes image, project.findCharacter? id = some entry →
        DataUrl.bytes? id entry.image = .ok (some bytes) → decode bytes = some image →
        ¬AssetReference.Overwritten project ⟨.character, id⟩ →
        embedded decode project id = .ready image ∧
          ∀ (animation : Option FrameAnimation) (clockMs : UInt64) (opacity : UInt8), opacity ≠ 0 →
            character (embedded decode project) scene animation clockMs opacity =
              let source := spriteSource image.width image.height animation clockMs
              ofOp .character
                (.image id source (stand source.width source.height) opacity)) := by
  refine ⟨?_, ?_, ?_⟩
  · intro reference hmem image hembeds
    exact ⟨embedded_of_embeds hmem hembeds, embedded_of_overwritten⟩
  · intro scene hscene id hid hne entry bytes image hentry hbytes himage hlast
    have hmem := Project.mem_assetReferences.mpr ⟨Project.background_mem_assetUses hscene hid, hne⟩
    have hready := embedded_of_embeds hmem
      (AssetReference.embeds_background hentry hbytes himage) hlast
    refine ⟨hready, ?_⟩
    intro opacity hopacity
    exact background_of_ready hid hready hopacity
  · intro scene hscene id hid hne entry bytes image hentry hbytes himage hlast
    have hmem := Project.mem_assetReferences.mpr ⟨Project.character_mem_assetUses hscene hid, hne⟩
    have hready := embedded_of_embeds hmem
      (AssetReference.embeds_character hentry hbytes himage) hlast
    refine ⟨hready, ?_⟩
    intro animation clockMs opacity hopacity
    exact character_of_ready hid hready animation clockMs hopacity

/-! ## The fox's den -/

/-- PNG files are the pictures. -/
def Png.decoder : Decoder := fun bytes => Png.decode? ⟨bytes.toArray⟩

def whiteDot : Bitmap := .filled 1 1 ⟨255, 255, 255, 255⟩

def whiteDotPng : List UInt8 :=
  [137, 80, 78, 71, 13, 10, 26, 10, 0, 0, 0, 13, 73, 72, 68, 82, 0, 0, 0, 1, 0, 0, 0, 1, 8, 0, 0,
    0, 0, 58, 126, 155, 85, 0, 0, 0, 10, 73, 68, 65, 84, 120, 218, 99, 248, 15, 0, 1, 1, 1, 0, 28,
    176, 140, 153, 0, 0, 0, 0, 73, 69, 78, 68, 174, 66, 96, 130]

theorem decoder_whiteDotPng : Png.decoder whiteDotPng = some whiteDot := by decide +kernel

def blackDot : Bitmap := .filled 1 1 .black

def blackDotPng : List UInt8 :=
  [137, 80, 78, 71, 13, 10, 26, 10, 0, 0, 0, 13, 73, 72, 68, 82, 0, 0, 0, 1, 0, 0, 0, 1, 8, 0, 0,
    0, 0, 58, 126, 155, 85, 0, 0, 0, 10, 73, 68, 65, 84, 120, 218, 99, 96, 0, 0, 0, 2, 0, 1, 229,
    39, 222, 252, 0, 0, 0, 0, 73, 69, 78, 68, 174, 66, 96, 130]

theorem decoder_blackDotPng : Png.decoder blackDotPng = some blackDot := by decide +kernel

def outside : Scene := { id := "outside", backgroundId := some "yard" }

/-- A fox in the fox's den, then an empty yard. -/
def foxDen : Project where
  scenes := [{ id := "inside", backgroundId := some "fox", characterId := some "fox" }, outside]
  characters := [⟨"fox", "Fox", DataUrl.write "image/png" blackDotPng⟩]
  backgrounds := [⟨"fox", "Den", DataUrl.write "image/png" whiteDotPng⟩,
    ⟨"yard", "Yard", DataUrl.write "image/png" whiteDotPng⟩]

theorem assetReferences_foxDen : foxDen.assetReferences =
    [⟨.background, "fox"⟩, ⟨.background, "yard"⟩, ⟨.character, "fox"⟩] := by decide +kernel

theorem embeds_den : AssetReference.Embeds Png.decoder foxDen ⟨.background, "fox"⟩ whiteDot :=
  AssetReference.embeds_background rfl (DataUrl.bytes?_write (by decide) _) decoder_whiteDotPng

theorem embeds_fox : AssetReference.Embeds Png.decoder foxDen ⟨.character, "fox"⟩ blackDot :=
  AssetReference.embeds_character rfl (DataUrl.bytes?_write (by decide) _) decoder_blackDotPng

theorem overwritten_den : AssetReference.Overwritten foxDen ⟨.background, "fox"⟩ :=
  ⟨⟨.character, "fox"⟩, by simp [assetReferences_foxDen], rfl, by decide, embeds_fox.isEmbedded⟩

theorem embedded_by_kind_foxDen :
    (AssetStore.embedded Png.decoder foxDen "yard" = .ready whiteDot ∧
        background (AssetStore.embedded Png.decoder foxDen) outside 255 =
          ofOp .background (.fill canvas .black) ++
            ofOp .background (.image "yard" whiteDot.bounds canvas 255)) ∧
      ∃ last ∈ foxDen.assetReferences, last.handle = "fox" ∧
        AssetKind.background.rank < last.kind.rank ∧ ¬last.Overwritten foxDen ∧
        last.embedded? Png.decoder foxDen =
          some (AssetStore.embedded Png.decoder foxDen "fox") := by
  obtain ⟨hreferences, hbackgrounds, -⟩ := AssetStore.embedded_by_kind Png.decoder foxDen
  constructor
  · have hlast : ¬AssetReference.Overwritten foxDen ⟨.background, "yard"⟩ := by
      simp [AssetReference.Overwritten, assetReferences_foxDen]
    obtain ⟨hready, hshown⟩ := hbackgrounds outside (by simp [foxDen]) "yard" rfl (by decide)
      ⟨"yard", "Yard", DataUrl.write "image/png" whiteDotPng⟩ whiteDotPng whiteDot rfl
      (DataUrl.bytes?_write (by decide) _) decoder_whiteDotPng hlast
    exact ⟨hready, hshown 255 (by decide)⟩
  · exact (hreferences ⟨.background, "fox"⟩ (by simp [assetReferences_foxDen]) whiteDot
      embeds_den).2 overwritten_den

/-- The fox takes the place of its den. -/
theorem not_own_picture_foxDen :
    ⟨.background, "fox"⟩ ∈ foxDen.assetReferences ∧
      AssetReference.Embeds Png.decoder foxDen ⟨.background, "fox"⟩ whiteDot ∧
      AssetStore.embedded Png.decoder foxDen "fox" = .ready blackDot ∧ whiteDot ≠ blackDot := by
  have hmem : ⟨.character, "fox"⟩ ∈ foxDen.assetReferences := by simp [assetReferences_foxDen]
  have hlast : ¬AssetReference.Overwritten foxDen ⟨.character, "fox"⟩ := by
    simp [AssetReference.Overwritten, assetReferences_foxDen, AssetKind.rank]
  have hready := AssetStore.embedded_of_embeds hmem embeds_fox hlast
  exact ⟨by simp [assetReferences_foxDen], embeds_den, hready, by decide +kernel⟩

end Scenes

end SceneScript
