import SceneScript.Asset.Store
import SceneScript.Proofs.Table

/-! # Slots for pictures

Each picture that a project uses either stands in the project, and is there from the start, or is
listed as one that comes from outside.
-/

namespace SceneScript

/-! ## References -/

section References

variable {project : Project} {reference other : AssetReference} {handle : String}

theorem AssetReference.mem_place {references : List AssetReference} :
    other ∈ reference.place references ↔ other = reference ∨ other ∈ references := by
  induction references with
  | nil => simp [place]
  | cons first rest ih =>
      unfold place
      split
      · exact List.mem_cons
      · split
        · next heq =>
            rw [heq, List.mem_cons]
            exact (or_self_left ..).symm
        · rw [List.mem_cons, ih, List.mem_cons]
          exact or_left_comm

theorem mem_foldl_place {uses references : List AssetReference} :
    reference ∈ uses.foldl (fun references reference => reference.place references) references ↔
      reference ∈ uses ∨ reference ∈ references := by
  induction uses generalizing references with
  | nil => simp
  | cons first rest ih =>
      rw [List.foldl_cons, ih, AssetReference.mem_place, List.mem_cons]
      exact or_left_comm.trans or_assoc.symm

theorem Project.mem_assetReferences :
    reference ∈ project.assetReferences ↔
      reference ∈ project.assetUses ∧ reference.handle ≠ "" := by
  simp [assetReferences, mem_foldl_place]

/-- The handle stands for a picture in some place of the project. -/
def Project.UsesImage (project : Project) (handle : String) : Prop :=
  ∃ reference ∈ project.assetUses,
    reference.handle = handle ∧ (reference.imageSource? project).isSome = true

theorem Project.background_mem_assetUses {scene : Scene} (hscene : scene ∈ project.scenes)
    (hid : scene.backgroundId = some handle) : ⟨.background, handle⟩ ∈ project.assetUses := by
  simp only [assetUses, List.mem_append, List.mem_filterMap]
  exact .inl (.inl (.inl (.inl (.inl ⟨scene, hscene, by rw [hid]; rfl⟩))))

theorem Project.usesImage_background {scene : Scene} (hscene : scene ∈ project.scenes)
    (hid : scene.backgroundId = some handle) : project.UsesImage handle :=
  ⟨⟨.background, handle⟩, background_mem_assetUses hscene hid, rfl, rfl⟩

theorem Project.character_mem_assetUses {scene : Scene} (hscene : scene ∈ project.scenes)
    (hid : scene.characterId = some handle) : ⟨.character, handle⟩ ∈ project.assetUses := by
  simp only [assetUses, List.mem_append, List.mem_filterMap]
  exact .inl (.inl (.inl (.inl (.inr ⟨scene, hscene, by rw [hid]; rfl⟩))))

theorem Project.usesImage_character {scene : Scene} (hscene : scene ∈ project.scenes)
    (hid : scene.characterId = some handle) : project.UsesImage handle :=
  ⟨⟨.character, handle⟩, character_mem_assetUses hscene hid, rfl, rfl⟩

theorem Project.usesImage_skin {skin : Option String}
    (hskin : skin ∈ [project.settings.messageBoxImage, project.settings.nameBoxImage,
      project.settings.choiceBoxImage])
    (hhandle : skin = some handle) : project.UsesImage handle := by
  refine ⟨⟨.skin, handle⟩, ?_, rfl, rfl⟩
  simp only [assetUses, List.mem_append, List.mem_filterMap]
  exact .inl (.inl (.inl (.inr ⟨skin, hskin, by rw [hhandle]; rfl⟩)))

theorem Project.usesImage_mask (hmask : project.settings.transitionImage = some handle) :
    project.UsesImage handle := by
  refine ⟨⟨.transitionMask, handle⟩, ?_, rfl, rfl⟩
  simp [assetUses, hmask]

end References

/-! ## Slots -/

namespace AssetStore

def slot? (store : AssetStore) (handle : String) : Option AssetState := store.slots.lookup handle

variable {store : AssetStore} {handle other : String} {state : AssetState} {decode : Decoder}
  {project : Project}

theorem lookup_put (slots : List (String × AssetState)) :
    (put handle state slots).lookup other =
      if other = handle then some state else slots.lookup other := by
  induction slots with
  | nil => rw [put, Table.lookup_cons]
  | cons slot rest ih =>
      unfold put
      by_cases hslot : slot.1 = handle
      · rw [if_pos hslot, Table.lookup_cons, Table.lookup_cons, hslot]
        by_cases hother : other = handle
        · simp only [if_pos hother]
        · simp only [if_neg hother]
      · rw [if_neg hslot, Table.lookup_cons, Table.lookup_cons, ih]
        by_cases hother : other = slot.1
        · have hne : other ≠ handle := by
            intro heq
            exact hslot (hother.symm.trans heq)
          simp only [if_pos hother, if_neg hne]
        · simp only [if_neg hother]

theorem slot?_set :
    (store.set handle state).slot? other =
      if other = handle then some state else store.slot? other :=
  lookup_put store.slots

theorem catalogue_eq (store : AssetStore) (handle : String) :
    store.catalogue handle = (store.slot? handle).getD (.failed notRegistered) := rfl

/-- Only a slot that says so is pending. -/
theorem catalogue_eq_pending :
    store.catalogue handle = .pending ↔ store.slot? handle = some .pending := by
  rw [catalogue_eq]
  cases store.slot? handle <;> simp

theorem decoded_ne_pending (decode : Decoder) (bytes : List UInt8) :
    decoded decode bytes ≠ .pending := by
  unfold decoded
  split <;> exact nofun

/-- A slot stays, whatever is set. -/
theorem isSome_slot?_set (h : (store.slot? other).isSome = true) :
    ((store.set handle state).slot? other).isSome = true := by
  rw [slot?_set]
  split
  · rfl
  · exact h

/-- Where nothing is pending, nothing is while no picture is set back. -/
theorem settled_set (h : ∀ other, store.slot? other ≠ some .pending) (hstate : state ≠ .pending)
    (handle other : String) : (store.set handle state).slot? other ≠ some .pending := by
  rw [slot?_set]
  split
  · simpa using hstate
  · exact h other

/-! ## Pictures in the project -/

/-- The references that have been seen are in the store or left for outside, and nothing in the
store is pending. -/
structure Sorts (project : Project) (seen : List AssetReference)
    (sorted : AssetStore × List AssetReference) : Prop where
  covered : ∀ reference ∈ seen, (reference.imageSource? project).isSome = true →
    (sorted.1.slot? reference.handle).isSome = true ∨ reference ∈ sorted.2
  images : ∀ reference ∈ sorted.2, (reference.imageSource? project).isSome = true
  settled : ∀ handle, sorted.1.slot? handle ≠ some .pending

variable {seen : List AssetReference} {sorted : AssetStore × List AssetReference}

theorem sorts_empty (project : Project) : Sorts project [] ({}, []) :=
  ⟨nofun, nofun, nofun⟩

/-- A reference whose picture gets a state that is not pending. -/
theorem Sorts.set (h : Sorts project seen sorted) (reference : AssetReference)
    (hstate : state ≠ .pending) :
    Sorts project (seen ++ [reference]) (sorted.1.set reference.handle state, sorted.2) := by
  refine ⟨?_, h.images, settled_set h.settled hstate reference.handle⟩
  intro other hother himage
  rcases List.mem_append.mp hother with hseen | hnew
  · exact (h.covered other hseen himage).imp_left isSome_slot?_set
  · rw [List.mem_singleton.mp hnew, slot?_set, if_pos rfl]
    exact .inl rfl

theorem Sorts.loadReference (h : Sorts project seen sorted) (reference : AssetReference) :
    Sorts project (seen ++ [reference]) (loadReference decode project sorted reference) := by
  unfold AssetStore.loadReference
  dsimp only
  split
  · next hsource =>
      refine ⟨?_, h.images, h.settled⟩
      intro other hother himage
      rcases List.mem_append.mp hother with hseen | hnew
      · exact h.covered other hseen himage
      · rw [List.mem_singleton.mp hnew, hsource] at himage
        cases himage
  · next source hsource =>
      split
      · exact h.set reference (decoded_ne_pending decode _)
      · refine ⟨?_, ?_, h.settled⟩
        · intro other hother himage
          rcases List.mem_append.mp hother with hseen | hnew
          · exact (h.covered other hseen himage).imp_right (List.mem_append_left _)
          · exact .inr (List.mem_append_right _ hnew)
        · intro other hother
          rcases List.mem_append.mp hother with hold | hnew
          · exact h.images other hold
          · rw [List.mem_singleton.mp hnew, hsource]
            rfl
      · exact h.set reference nofun

theorem Sorts.foldl (h : Sorts project seen sorted) (references : List AssetReference) :
    Sorts project (seen ++ references)
      (references.foldl (AssetStore.loadReference decode project) sorted) := by
  induction references generalizing seen sorted with
  | nil =>
      rw [List.append_nil]
      exact h
  | cons reference rest ih =>
      rw [List.append_cons, List.foldl_cons]
      exact ih (h.loadReference reference)

theorem sorts_loadEmbedded (decode : Decoder) (project : Project) :
    Sorts project project.assetReferences (loadEmbedded decode {} project) :=
  (sorts_empty project).foldl project.assetReferences

/-! ## Pictures from outside -/

theorem slot?_foldl_pending (external : List (String × String)) (store : AssetStore) :
    (external.foldl (fun store entry => store.set entry.1 .pending) store).slot? handle =
      if handle ∈ external.map (·.1) then some .pending else store.slot? handle := by
  induction external generalizing store with
  | nil => rfl
  | cons entry rest ih =>
      rw [List.foldl_cons, ih, slot?_set]
      by_cases hrest : handle ∈ rest.map (·.1)
      · simp [hrest]
      · simp [hrest]

end AssetStore
end SceneScript
