import SceneScript.Proofs.Project.RoundTrip
import SceneScript.Proofs.Show.Lookups
import SceneScript.Show.Page

/-! # Pictures on a web page

A page fetches the pictures that are listed as external, in any order, while the show runs. No frame
waits for a picture that is not listed, and none waits any more once the page has delivered or given
up each picture of the list.
-/

namespace SceneScript

/-! ## Frames without pending pictures -/

namespace Player

variable {player : Player} {catalogue : Catalogue} {now : Duration}

/-- A run of a project with scenes always stands in the script. -/
theorem Intact.stands_of_scenes (h : player.Intact) (hscenes : player.project.scenes ≠ []) :
    player.interpreter.state.Stands player.project := by
  rcases h.stands.stands with hstands | ⟨hnone, -, -⟩
  · exact hstands
  · exact absurd hnone hscenes

theorem Intact.exists_image_of_redraw (h : player.Intact) (hscenes : player.project.scenes ≠ [])
    (hsettled : ∀ handle, catalogue handle ≠ .pending) (now : Duration) :
    ∃ image, (player.redraw catalogue now).2 = .ok (some image) := by
  obtain ⟨drawing, hdrawing⟩ :=
    exists_drawingOf (h.stands_of_scenes hscenes) player.clock catalogue now
  have hready := Drawing.staging_of_settled hsettled drawing
  refine ⟨drawing.render catalogue player.font, ?_⟩
  simp only [Player.redraw, hdrawing, hready, Staging.isReady, if_true]

theorem Intact.exists_image_of_frame (h : player.Intact) (hscenes : player.project.scenes ≠ [])
    (hsettled : ∀ handle, catalogue handle ≠ .pending) (now : Duration) :
    ∃ image, (player.frame catalogue now).2 = .ok (some image) := by
  have hframed := h.framed catalogue now
  generalize player.frame catalogue now = result at hframed ⊢
  cases hframed with
  | still _ => exact h.exists_image_of_redraw hscenes hsettled now
  | shown _ _ => exact ⟨_, rfl⟩
  | ended hrunning _ hpending =>
      exact (h.committed hrunning hpending now).exists_image_of_redraw hscenes hsettled now

end Player

/-! ## Calls -/

namespace PageShow

/-- The calls that a page makes. -/
inductive Call where
  | load (handle : String) (bytes : List UInt8)
  | fail (handle message : String)
  | start (now : Duration)
  | click (x y : Binary) (scale : UInt32) (now : Duration)
  | frame (now : Duration)
  | takeEffects

/-- The handle that the call delivers or gives up. -/
def Call.handle? : Call → Option String
  | .load handle _ => some handle
  | .fail handle _ => some handle
  | _ => none

/-- The page after a call, whatever it has answered. -/
def afterCall (decode : Decoder) (page : PageShow) : Call → PageShow
  | .load handle bytes => page.load decode handle bytes
  | .fail handle message => page.fail handle message
  | .start now => (page.start now).1
  | .click x y scale now => (page.click x y scale now).1
  | .frame now => (page.frame now).1
  | .takeEffects => page.takeEffects.1

def afterCalls (decode : Decoder) (page : PageShow) (calls : List Call) : PageShow :=
  calls.foldl (afterCall decode) page

/-- How a call changes a page: one slot gets a state that is not pending, or the player makes a
move of its own. -/
inductive Changes (page : PageShow) : Call → PageShow → Prop where
  | set {call : Call} {handle : String} {state : AssetState} (hhandle : call.handle? = some handle)
      (hstate : state ≠ .pending) :
      Changes page call { page with store := page.store.set handle state }
  | plays {call : Call} (move : Player.Call) (hhandle : call.handle? = none) :
      Changes page call { page with player := (page.player.call move).1 }

variable {decode : Decoder} {page : PageShow}

theorem changes (decode : Decoder) (page : PageShow) (call : Call) :
    page.Changes call (page.afterCall decode call) := by
  cases call with
  | load handle bytes => exact .set rfl (AssetStore.decoded_ne_pending decode bytes)
  | fail handle message => exact .set rfl nofun
  | start now => exact .plays (.start page.store.catalogue now) rfl
  | click x y scale now =>
      exact .plays (.click (canvasPlace x scale) (canvasPlace y scale) page.store.catalogue now) rfl
  | frame now => exact .plays (.frame page.store.catalogue now) rfl
  | takeEffects => exact .plays .takeEffects rfl

/-! ## Slots -/

/-- Each picture that the project uses has a slot. -/
structure Stocked (page : PageShow) : Prop where
  intact : page.player.Intact
  slots : ∀ handle, handle ≠ "" → page.player.project.UsesImage handle →
    (page.store.slot? handle).isSome = true

theorem slot?_ofProject (decode : Decoder) (project : Project) (handle : String) :
    (ofProject decode project).store.slot? handle =
      if handle ∈ (ofProject decode project).external.map (·.1) then some .pending
      else (AssetStore.loadEmbedded decode {} project).1.slot? handle :=
  AssetStore.slot?_foldl_pending _ _

/-- A picture that is left for outside is listed. -/
theorem mem_external_ofProject {project : Project} {reference : AssetReference}
    (hleft : reference ∈ (AssetStore.loadEmbedded decode {} project).2)
    (himage : (reference.imageSource? project).isSome = true) :
    reference.handle ∈ (ofProject decode project).external.map (·.1) := by
  obtain ⟨source, hsource⟩ := Option.isSome_iff_exists.mp himage
  have hentry : (reference.handle, source) ∈ (ofProject decode project).external := by
    apply List.mem_filterMap.mpr
    refine ⟨reference, hleft, ?_⟩
    rw [hsource]
    rfl
  exact List.mem_map_of_mem hentry

theorem stocked_ofProject (decode : Decoder) (project : Project) :
    (ofProject decode project).Stocked := by
  have hsorts := AssetStore.sorts_loadEmbedded decode project
  refine ⟨Player.intact_new project .default, ?_⟩
  rintro handle hnonempty ⟨reference, huse, rfl, himage⟩
  have hreference : reference ∈ project.assetReferences :=
    Project.mem_assetReferences.mpr ⟨huse, hnonempty⟩
  rw [slot?_ofProject]
  split
  · rfl
  · next hunlisted =>
      rcases hsorts.covered reference hreference himage with hslot | hleft
      · exact hslot
      · exact absurd (mem_external_ofProject hleft himage) hunlisted

/-- From the start only listed pictures are pending. -/
theorem pending_ofProject {project : Project} {handle : String}
    (h : (ofProject decode project).store.slot? handle = some .pending) :
    handle ∈ (ofProject decode project).external.map (·.1) := by
  rw [slot?_ofProject] at h
  split at h
  · next hlisted => exact hlisted
  · exact absurd h ((AssetStore.sorts_loadEmbedded decode project).settled handle)

theorem Stocked.afterCall (h : page.Stocked) (call : Call) :
    (page.afterCall decode call).Stocked := by
  have hchanges := changes decode page call
  generalize page.afterCall decode call = next at hchanges ⊢
  cases hchanges with
  | set _ _ =>
      refine ⟨h.intact, ?_⟩
      intro handle hnonempty huses
      exact AssetStore.isSome_slot?_set (h.slots handle hnonempty huses)
  | plays move _ =>
      refine ⟨h.intact.call move, ?_⟩
      have hsame : page.player.SameShow (page.player.call move).1 :=
        h.intact.sameShow_afterRequest (.call move)
      rw [hsame.project]
      exact h.slots

theorem Stocked.afterCalls (h : page.Stocked) (calls : List Call) :
    (page.afterCalls decode calls).Stocked := by
  induction calls generalizing page with
  | nil => exact h
  | cons call rest ih => exact ih (h.afterCall call)

/-- A picture that is still pending has been so, and no call has delivered it or given it up. -/
theorem pending_of_afterCall {call : Call} {handle : String}
    (h : (page.afterCall decode call).store.slot? handle = some .pending) :
    page.store.slot? handle = some .pending ∧ call.handle? ≠ some handle := by
  have hchanges := changes decode page call
  generalize page.afterCall decode call = next at hchanges h
  cases hchanges with
  | set hhandle hstate =>
      rw [AssetStore.slot?_set] at h
      split at h
      · exact absurd (Option.some.inj h) hstate
      · next hother =>
          refine ⟨h, ?_⟩
          rw [hhandle]
          intro heq
          exact hother (Option.some.inj heq).symm
  | plays _ hhandle =>
      refine ⟨h, ?_⟩
      rw [hhandle]
      exact nofun

theorem pending_of_afterCalls {calls : List Call} {handle : String}
    (h : (page.afterCalls decode calls).store.slot? handle = some .pending) :
    page.store.slot? handle = some .pending ∧ ∀ call ∈ calls, call.handle? ≠ some handle := by
  induction calls generalizing page with
  | nil => exact ⟨h, nofun⟩
  | cons call rest ih =>
      obtain ⟨hfirst, hrest⟩ := ih h
      obtain ⟨hpending, hcall⟩ := pending_of_afterCall hfirst
      exact ⟨hpending, List.forall_mem_cons.mpr ⟨hcall, hrest⟩⟩

/-! ## Whole shows -/

/-- Each picture that layouts and transitions ask for has a slot, only listed pictures are pending,
and once each listed one has been delivered or given up, every drawing is ready and every frame
shows an image. -/
theorem staged_of_supplied {text : String} (hpage : ofText decode text = .ok page)
    (calls : List Call) :
    let later := page.afterCalls decode calls
    (∀ handle, handle ≠ "" → later.player.Asks handle →
      (later.store.slot? handle).isSome = true) ∧
    (∀ handle, later.store.slot? handle = some .pending → handle ∈ page.external.map (·.1)) ∧
    ((∀ handle ∈ page.external.map (·.1), ∃ call ∈ calls, call.handle? = some handle) →
      (∀ interpreter clock now drawing,
        later.player.drawingOf interpreter clock later.store.catalogue now = .ok drawing →
          drawing.staging later.store.catalogue = .ready) ∧
      (later.player.project.scenes ≠ [] →
        ∀ now, ∃ image, (later.frame now).2 = .ok (some image))) := by
  intro later
  obtain ⟨project, rfl⟩ : ∃ project, page = ofProject decode project := by
    unfold ofText at hpage
    split at hpage
    · next project _ => exact ⟨project, (Except.ok.inj hpage).symm⟩
    · cases hpage
  have hstocked : later.Stocked := (stocked_ofProject decode project).afterCalls calls
  have hlisted : ∀ handle, later.store.slot? handle = some .pending →
      handle ∈ (ofProject decode project).external.map (·.1) := by
    intro handle hpending
    exact pending_ofProject (pending_of_afterCalls hpending).1
  refine ⟨?_, hlisted, ?_⟩
  · intro handle hnonempty hasks
    exact hstocked.slots handle hnonempty hasks.usesImage
  · intro hsupplied
    have hsettled : ∀ handle, later.store.catalogue handle ≠ .pending := by
      intro handle hpending
      rw [AssetStore.catalogue_eq_pending] at hpending
      obtain ⟨call, hcall, hhandle⟩ := hsupplied handle (hlisted handle hpending)
      exact (pending_of_afterCalls hpending).2 call hcall hhandle
    refine ⟨?_, ?_⟩
    · intro interpreter clock now drawing _
      exact Drawing.staging_of_settled hsettled drawing
    · intro hscenes now
      exact hstocked.intact.exists_image_of_frame hscenes hsettled now

/-- One picture stands in the project, and two have to be fetched. -/
def stage : Project where
  scenes := [{
    id := "one"
    backgroundId := some "hall"
    characterId := some "hero"
    commands := [.dialogue "1" "Hero" "Here" [], ⟨"2", .goto 0 true⟩] }]
  backgrounds := [{ id := "hall", image := "data:image/png;base64,AAAA" }]
  characters := [{ id := "hero", image := "hero.png" }]
  settings := { transitionImage := some "fade.png" }

/-- Takes all bytes for one picture. -/
def whitePicture : Decoder := fun bytes =>
  if bytes.isEmpty then none else some (.filled 16 16 .white)

/-- No bytes come for the hero, and the mask is given up. -/
def stageCalls : List Call :=
  [.start .zero, .frame .zero, .load "hero" [], .frame .zero, .fail "fade.png" "gone"]

/-- The page when it has been supplied. -/
def supplied : PageShow := (ofProject whitePicture stage).afterCalls whitePicture stageCalls

theorem asks_supplied : supplied.player.Asks "fade.png" := by
  have hmask : supplied.player.project.settings.transitionImage = some "fade.png" := by
    decide +kernel
  refine .mask ⟨fun _ => .pending,
    fun handle => if handle = "fade.png" then .ready (.filled 1 1 .white) else .pending, ?_, ?_⟩
  · intro handle hother
    exact if_neg hother
  · simp [Player.mask, hmask]

theorem staged_of_supplied_stage :
    ofText whitePicture stage.toText = .ok (ofProject whitePicture stage) ∧
      (ofProject whitePicture stage).external.map (·.1) = ["hero", "fade.png"] ∧
      supplied.player.Asks "fade.png" ∧ (supplied.store.slot? "fade.png").isSome = true ∧
      (∀ interpreter clock now drawing,
        supplied.player.drawingOf interpreter clock supplied.store.catalogue now = .ok drawing →
          drawing.staging supplied.store.catalogue = .ready) ∧
      ∃ image, (supplied.frame .zero).2 = .ok (some image) := by
  have hdepth : stage.toJson.depth ≤ Reader.nesting := by decide +kernel
  have hproject : Project.ofText stage.toText = .ok stage := by
    rw [Project.ofText_toText_eq, if_pos hdepth, Project.checkResolution_eq_ok rfl]
  have hpage : ofText whitePicture stage.toText = .ok (ofProject whitePicture stage) := by
    rw [ofText, hproject]
  have hexternal : (ofProject whitePicture stage).external.map (·.1) = ["hero", "fade.png"] := by
    decide +kernel
  obtain ⟨hslots, -, hready⟩ := staged_of_supplied hpage stageCalls
  have hsupplied : ∀ handle ∈ (ofProject whitePicture stage).external.map (·.1),
      ∃ call ∈ stageCalls, call.handle? = some handle := by
    rw [hexternal]
    simp [stageCalls, Call.handle?]
  obtain ⟨hdrawings, hframes⟩ := hready hsupplied
  have hscenes : supplied.player.project.scenes ≠ [] := by
    apply List.isEmpty_eq_false_iff.mp
    decide +kernel
  exact ⟨hpage, hexternal, asks_supplied, hslots "fade.png" (by decide) asks_supplied, hdrawings,
    hframes hscenes .zero⟩

end PageShow
end SceneScript
