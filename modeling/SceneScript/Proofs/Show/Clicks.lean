import SceneScript.Proofs.Run.Agreement
import SceneScript.Proofs.Show.Requests

/-! # Clicks on choices

Clicks go by the boxes of the last complete drawing. The choice whose row is clicked is one of the
dialogue that was drawn; the interpreter takes it for a choice of the dialogue that it waits at. The
two are the same as long as the run has not moved since.
-/

namespace SceneScript

/-! ## Rows -/

theorem Layout.choiceRows_eq_some {font : Font} {text : String} {choices : List Choice}
    {place : Nat} {choice : Choice} {row : Rect}
    (h : (choiceRows font text choices)[place]? = some (choice, row)) :
    choices[place]? = some choice := by
  simp only [choiceRows, List.getElem?_map, List.getElem?_zipIdx, Option.map_map,
    Option.map_eq_some_iff] at h
  obtain ⟨found, hfound, heq⟩ := h
  cases heq
  exact hfound

/-- A box that is hit belongs to the choice whose row is drawn at the point. -/
theorem Layout.exists_row_of_test {font : Font} {text : String} {choices : List Choice}
    {x y : Int32} {index : Index} (hcount : choices.length < UInt64.size)
    (hhit : HitBox.test (hits font text choices) x y = some index) :
    ∃ choice row, (choiceRows font text choices)[index.toNat]? = some (choice, row) ∧
      row.contains x y = true := by
  obtain ⟨box, hfound, rfl⟩ := Option.map_eq_some_iff.mp hhit
  have hcontains : box.rect.contains x y = true := by simpa using List.find?_some hfound
  obtain ⟨⟨⟨choice, row⟩, place⟩, hmem, rfl⟩ := List.mem_map.mp (List.mem_of_find?_eq_some hfound)
  have hrow := List.mem_zipIdx_iff_getElem?.mp hmem
  have hplace : place < choices.length :=
    (List.getElem?_eq_some_iff.mp (choiceRows_eq_some hrow)).1
  have hindex : (UInt64.ofNat place).toNat = place :=
    UInt64.toNat_ofNat_of_lt (Nat.lt_trans hplace hcount)
  refine ⟨choice, row, ?_, hcontains⟩
  change (choiceRows font text choices)[(UInt64.ofNat place).toNat]? = some (choice, row)
  rw [hindex]
  exact hrow

/-- Only the drawing of a dialogue has boxes. -/
theorem Shot.hits_of_layout {shot : Shot} {catalogue : Catalogue} {font : Font} {drawing : Drawing}
    (h : shot.layout catalogue font = .ok drawing) (hhits : drawing.hits ≠ []) :
    ∃ command speaker text choices, shot.active = some command ∧
      command.action = .dialogue speaker text choices ∧
        drawing.hits = Layout.hits font text choices := by
  unfold layout at h
  obtain ⟨scene, -, h⟩ := bind_eq_ok.mp h
  cases pure_eq_ok.mp h
  cases hactive : shot.active with
  | none => simp [dialogue?, hactive] at hhits
  | some command =>
      obtain ⟨id, action⟩ := command
      cases action with
      | dialogue speaker text choices =>
          exact ⟨_, speaker, text, choices, rfl, rfl, by simp [dialogue?, hactive]⟩
      | _ => simp [dialogue?, hactive] at hhits

theorem State.commandAt_of_activeCommand {project : Project} {state : State} {command : Command}
    (h : state.activeCommand project = .ok (some command)) :
    project.commandAt state.position = .ok command := by
  unfold activeCommand at h
  split at h
  · obtain ⟨found, hfound, hsame⟩ := map_eq_ok.mp h
    cases hsame
    exact hfound
  · cases h

/-- The drawing has the boxes of the dialogue at the position. -/
structure LaidOut (project : Project) (font : Font) (position : Position) (text : String)
    (choices : List Choice) (drawing : Drawing) : Prop where
  dialogue : ∃ command speaker, project.commandAt position = .ok command ∧
    command.action = .dialogue speaker text choices
  hits : drawing.hits = Layout.hits font text choices

theorem LaidOut.length_lt {project : Project} {font : Font} {position : Position} {text : String}
    {choices : List Choice} {drawing : Drawing}
    (h : LaidOut project font position text choices drawing) (hcounts : project.CountsChoices) :
    choices.length < UInt64.size := by
  obtain ⟨command, speaker, hcommand, haction⟩ := h.dialogue
  exact hcounts.commandAt hcommand (by simp [Command.choices?, haction])

namespace Player

variable {player : Player} {catalogue : Catalogue} {now : Duration} {drawing : Drawing}

/-- The position at which the player's interpreter stands. -/
def position (player : Player) : Position := player.interpreter.state.position

/-- A drawing with boxes is one of the dialogue that waits. -/
theorem laidOut_of_here? (h : player.here? catalogue now = some drawing)
    (hhits : drawing.hits ≠ []) :
    ∃ text choices, LaidOut player.project player.font player.position text choices drawing := by
  have hdrawing := (stagedDrawing?_eq_some.mp h).1
  obtain ⟨shot, hshot, hlayout⟩ := bind_eq_ok.mp hdrawing
  obtain ⟨active, follows, hactive, -, rfl⟩ := ofState_eq_ok.mp (mapError_eq_ok.mp hshot)
  obtain ⟨command, speaker, text, choices, hcommand, haction, heq⟩ :=
    Shot.hits_of_layout (mapError_eq_ok.mp hlayout) hhits
  cases hcommand
  exact ⟨text, choices, ⟨command, speaker, State.commandAt_of_activeCommand hactive, haction⟩, heq⟩

/-! ## The last complete frame -/

/-- The complete drawing that a frame of the player shows, if no transition covers it. -/
def onShow? (player : Player) (catalogue : Catalogue) (now : Duration) : Option Drawing :=
  if player.inTransition then none else player.here? catalogue now

/-- The complete drawing that the request shows, if it is a frame. -/
def newDrawing? (player : Player) : Request → Option Drawing
  | .call (.frame catalogue now) => (player.frame catalogue now).1.onShow? catalogue now
  | _ => none

/-- Where the player has stood at the last complete frame. -/
def drawnAt? (player : Player) (before : Option Position) : List Request → Option Position
  | [] => before
  | request :: rest =>
    let next := player.afterRequest request
    next.drawnAt? (if (player.newDrawing? request).isSome then some next.position else before) rest

/-- Drawing anew stores the drawing that is on show then. -/
theorem drawing_redraw (hidle : player.transition = none) (catalogue : Catalogue)
    (now : Duration) :
    (player.redraw catalogue now).1.drawing =
      ((player.redraw catalogue now).1.onShow? catalogue now).or player.drawing := by
  obtain ⟨hhere, htransition⟩ := player.here?_redraw catalogue now
  have hshow : (player.redraw catalogue now).1.onShow? catalogue now =
      player.here? catalogue now := by
    simp [onShow?, inTransition, htransition, hidle, hhere]
  rw [hshow, redraw_eq]
  cases player.here? catalogue now <;> rfl

theorem Intact.drawing_frame (h : player.Intact) (catalogue : Catalogue) (now : Duration) :
    (player.frame catalogue now).1.drawing =
      ((player.frame catalogue now).1.onShow? catalogue now).or player.drawing := by
  have hframed := h.framed catalogue now
  generalize player.frame catalogue now = result at hframed ⊢
  cases hframed with
  | still hidle => exact drawing_redraw hidle catalogue now
  | shown hrunning _ => simp [onShow?, inTransition, hrunning]
  | ended _ _ _ => exact drawing_redraw rfl catalogue now

/-- A request stores the drawing that it completes, and keeps the stored one if there is none. -/
theorem Intact.drawing_afterRequest (h : player.Intact) (request : Request) :
    (player.afterRequest request).drawing = (player.newDrawing? request).or player.drawing := by
  by_cases hframe : ∃ catalogue now, request = .call (.frame catalogue now)
  · obtain ⟨catalogue, now, rfl⟩ := hframe
    exact h.drawing_frame catalogue now
  · have hview : player.SameView (player.afterRequest request) :=
      h.sameView_afterRequest fun catalogue now heq => hframe ⟨catalogue, now, heq⟩
    have hnone : player.newDrawing? request = none := by
      unfold newDrawing?
      split
      · next catalogue now => exact absurd ⟨catalogue, now, rfl⟩ hframe
      · rfl
    rw [hnone]
    exact hview.drawing

theorem laidOut_of_newDrawing? {request : Request}
    (h : player.newDrawing? request = some drawing) (hhits : drawing.hits ≠ []) :
    ∃ text choices, LaidOut (player.afterRequest request).project (player.afterRequest request).font
      (player.afterRequest request).position text choices drawing := by
  unfold newDrawing? at h
  split at h
  · unfold onShow? at h
    split at h
    · cases h
    · exact laidOut_of_here? h hhits
  · cases h

/-- The stored boxes are those of the dialogue at the position. -/
def Drawn (player : Player) (position : Option Position) : Prop :=
  ∀ drawing, player.drawing = some drawing → drawing.hits ≠ [] → ∃ drawn text choices,
    position = some drawn ∧ LaidOut player.project player.font drawn text choices drawing

theorem Drawn.afterRequest {before : Option Position} (h : player.Drawn before)
    (hintact : player.Intact) (request : Request) :
    (player.afterRequest request).Drawn (if (player.newDrawing? request).isSome
      then some (player.afterRequest request).position else before) := by
  have hsame := hintact.sameShow_afterRequest request
  intro drawing hdrawing hhits
  rw [hintact.drawing_afterRequest request] at hdrawing
  cases hnew : player.newDrawing? request with
  | some new =>
      rw [hnew] at hdrawing
      cases hdrawing
      obtain ⟨text, choices, hlaid⟩ := laidOut_of_newDrawing? hnew hhits
      exact ⟨_, text, choices, rfl, hlaid⟩
  | none =>
      rw [hnew] at hdrawing
      rw [hsame.project, hsame.font]
      exact h drawing hdrawing hhits

theorem Drawn.afterRequests {before : Option Position} (h : player.Drawn before)
    (hintact : player.Intact) (requests : List Request) :
    (player.afterRequests requests).Drawn (player.drawnAt? before requests) := by
  induction requests generalizing player before with
  | nil => exact h
  | cons request rest ih => exact ih (h.afterRequest hintact request) (hintact.afterRequest request)

/-! ## Faults of clicks -/

theorem Intact.feed_error (h : player.Intact) (hidle : player.transition = none)
    {input : Option Input} {fault : ShowFault}
    (hfault : (player.feed input catalogue now).2 = .error fault) :
    ∃ cause, fault = .script cause ∧ (cause.OfCommand ∨
      ∃ given, input = some given ∧ cause.OfAnswer player.waiting given) := by
  have hfed := h.fed hidle input catalogue now
  generalize player.feed input catalogue now = result at hfed hfault
  cases hfed with
  | settled _ _ | began _ _ _ _ => cases hfault
  | @failed next cause htick =>
      cases hfault
      exact ⟨cause, rfl, h.stands.tick_error (by rw [htick])⟩
  | @stranded next _ _ _ cause htick _ hjump =>
      cases hfault
      refine ⟨cause, rfl, ?_⟩
      -- The jump that is run ahead answers nothing.
      rcases (h.stands.of_tick htick).tick_error (by rw [hjump]) with
        hcommand | ⟨given, hgiven, _, index, -, hchoice, -⟩
      · exact .inl hcommand
      · cases hgiven
        cases hchoice

/-! ## Clicks on rows -/

section

variable {count index : Index} {x y : Int32}

/-- While a choice is waited for, a click on a box gives its choice to the interpreter. -/
theorem Intact.click_eq (h : player.Intact) (hwaiting : player.waiting = .choice count)
    (hdrawing : player.drawing = some drawing)
    (hhit : HitBox.test drawing.hits x y = some index) (catalogue : Catalogue) (now : Duration) :
    player.transition = none ∧ player.click x y catalogue now =
      ((player.feed (some (.choose index)) catalogue now).1,
        (player.feed (some (.choose index)) catalogue now).2.map fun _ => .chose index) := by
  have hpending : player.pending = none := by
    cases hpending : player.pending with
    | none => rfl
    | some jump =>
        obtain ⟨target, _, htarget, -⟩ := h.pending jump hpending
        cases hwaiting.symm.trans htarget
  have hidle : player.transition = none := by
    have hpaired := h.paired
    rw [hpending] at hpaired
    exact Option.isSome_eq_false_iff.mp hpaired |> Option.isNone_iff_eq_none.mp
  have hintent : player.intent x y = (some (.choose index), .chose index) := by
    simp [intent, hidle, hpending, hwaiting, hdrawing, hhit]
  refine ⟨hidle, ?_⟩
  unfold Player.click
  rw [hintent]

/-- At the position of the drawing, the interpreter counts the choices that are drawn. -/
theorem Intact.choose_eq_pick (h : player.Intact) (hcounts : player.project.CountsChoices)
    (hwaiting : player.waiting = .choice count) {text : String} {choices : List Choice}
    (hlaid : LaidOut player.project player.font player.position text choices drawing)
    {choice : Choice} (hchoice : choices[index.toNat]? = some choice) :
    index < count ∧ player.interpreter.state.choose player.project count index =
      player.interpreter.state.pick player.project choice := by
  have hwaits : player.interpreter.state.waiting ≠ .nothing := fun hnothing => by
    cases hwaiting.symm.trans hnothing
  have hstands := h.stands.of_waiting hwaits
  obtain ⟨command, hcommand, speaker, said, offered, haction, -, rfl⟩ :=
    hstands.suits hwaiting nofun
  obtain ⟨drawn, speaker', hdrawn, hdialogue⟩ := hlaid.dialogue
  cases hcommand.symm.trans hdrawn
  cases haction.symm.trans hdialogue
  have hindex : index.toNat < choices.length := (List.getElem?_eq_some_iff.mp hchoice).1
  have hcount : (UInt64.ofNat choices.length).toNat = choices.length :=
    UInt64.toNat_ofNat_of_lt (hlaid.length_lt hcounts)
  have hbelow : index < UInt64.ofNat choices.length :=
    UInt64.lt_iff_toNat_lt.mpr (hcount.symm ▸ hindex)
  refine ⟨hbelow, ?_⟩
  rw [State.choose_of_lt hbelow hcommand]
  simp [Command.choices?, haction, hchoice]

/-- A box that is hit stands for a choice that the last complete frame has drawn at the point. -/
theorem Drawn.exists_row {before : Option Position} (h : player.Drawn before)
    (hcounts : player.project.CountsChoices) (hdrawing : player.drawing = some drawing)
    (hhit : HitBox.test drawing.hits x y = some index) :
    ∃ drawn text choices choice row, before = some drawn ∧
      LaidOut player.project player.font drawn text choices drawing ∧
      (Layout.choiceRows player.font text choices)[index.toNat]? = some (choice, row) ∧
      row.contains x y = true := by
  have hhits : drawing.hits ≠ [] := by
    intro hnone
    rw [hnone] at hhit
    cases hhit
  obtain ⟨drawn, text, choices, hbefore, hlaid⟩ := h drawing hdrawing hhits
  rw [hlaid.hits] at hhit
  obtain ⟨choice, row, hrow, hcontains⟩ :=
    Layout.exists_row_of_test (hlaid.length_lt hcounts) hhit
  exact ⟨drawn, text, choices, choice, row, hbefore, hlaid, hrow, hcontains⟩

/-- What a click on a box answers. -/
theorem Intact.click_answer (h : player.Intact) (hwaiting : player.waiting = .choice count)
    (hdrawing : player.drawing = some drawing)
    (hhit : HitBox.test drawing.hits x y = some index) (catalogue : Catalogue) (now : Duration) :
    (player.click x y catalogue now).2 = .ok (.chose index) ∨
      ∃ fault, (player.click x y catalogue now).2 = .error (.script fault) ∧
        (fault.OfCommand ∨ count ≤ index ∧ fault = .invalidChoice index count) := by
  obtain ⟨hidle, hclick⟩ := h.click_eq hwaiting hdrawing hhit catalogue now
  rw [hclick]
  cases hresult : (player.feed (some (.choose index)) catalogue now).2 with
  | ok _ => exact .inl rfl
  | error fault =>
      obtain ⟨cause, rfl, hcause⟩ := h.feed_error hidle hresult
      refine .inr ⟨cause, rfl, hcause.imp_right ?_⟩
      rintro ⟨_, hgiven, counted, chosen, hcounted, hchosen, hbeyond, heq⟩
      cases hgiven
      cases hchosen
      cases hwaiting.symm.trans hcounted
      exact ⟨hbeyond, heq⟩

end

/-! ## Runs -/

theorem Intact.afterRequests_kept (h : player.Intact) (requests : List Request) :
    (player.afterRequests requests).project = player.project ∧
      (player.afterRequests requests).font = player.font := by
  have hsame := h.sameShow_afterRequests requests
  exact ⟨hsame.project, hsame.font⟩

/-- While a choice is waited for, a click on a box stands for the choice whose row was drawn at the
point by the last complete frame. If the run has not moved since, the interpreter counts that choice
and picks it, and the click cannot fail for there being too few choices. -/
theorem clicked_choice {project : Project} {font : Font} {requests : List Request}
    {player : Player} {drawing : Drawing} {count index : Index} {x y : Int32}
    (hcounts : project.CountsChoices)
    (hreached : (Player.new project font).afterRequests requests = player)
    (hwaiting : player.waiting = .choice count) (hdrawing : player.drawing = some drawing)
    (hhit : HitBox.test drawing.hits x y = some index) :
    ∃ drawn text choices choice row,
      (Player.new project font).drawnAt? none requests = some drawn ∧
      LaidOut project font drawn text choices drawing ∧
      (Layout.choiceRows font text choices)[index.toNat]? = some (choice, row) ∧
      row.contains x y = true ∧
      (player.position = drawn →
        index < count ∧
        player.interpreter.state.choose project count index =
          player.interpreter.state.pick project choice ∧
        ∀ catalogue now,
          (player.click x y catalogue now).2 = .ok (.chose index) ∨
            ∃ fault, (player.click x y catalogue now).2 = .error (.script fault) ∧
              ∀ refused total, fault ≠ .invalidChoice refused total) := by
  have hnew := intact_new project font
  have hintact : player.Intact := hreached ▸ hnew.afterRequests requests
  obtain ⟨hproject, hfont⟩ : player.project = project ∧ player.font = font :=
    hreached ▸ hnew.afterRequests_kept requests
  have hblank : (Player.new project font).Drawn none := nofun
  have hstored : player.Drawn ((Player.new project font).drawnAt? none requests) :=
    hreached ▸ hblank.afterRequests hnew requests
  subst hproject hfont
  obtain ⟨drawn, text, choices, choice, row, hdrawn, hlaid, hrow, hcontains⟩ :=
    hstored.exists_row hcounts hdrawing hhit
  refine ⟨drawn, text, choices, choice, row, hdrawn, hlaid, hrow, hcontains, ?_⟩
  rintro rfl
  obtain ⟨hbelow, hpick⟩ :=
    hintact.choose_eq_pick hcounts hwaiting hlaid (Layout.choiceRows_eq_some hrow)
  refine ⟨hbelow, hpick, fun catalogue now => ?_⟩
  refine (hintact.click_answer hwaiting hdrawing hhit catalogue now).imp_right ?_
  rintro ⟨fault, hfault, hcommand | ⟨hbeyond, -⟩⟩
  · exact ⟨fault, hfault, hcommand.ne_invalidChoice⟩
  · exact absurd hbelow (UInt64.not_lt.mpr hbeyond)

/-- Two questions, one right behind the other. The second one has only one answer. -/
def quiz : Project where
  scenes := [
    { id := "room", commands := [
      .dialogue "1" "" "Tea?" [{ text := "Yes" }, { text := "No" }],
      .dialogue "2" "" "Milk?" [{ text := "No" }]] }]

theorem countsChoices_quiz : quiz.CountsChoices := by
  refine ⟨?_, by simp [quiz]⟩
  simp [quiz, Command.CountsChoices, Command.listSubcommands, Command.subcommands,
    Command.choices?, Command.dialogue, UInt64.size]

/-- A show of the first question. -/
def quizRequests : List Request :=
  [.call (.start (fun _ => .pending) .zero), .call (.frame (fun _ => .pending) .zero)]

def quizShown : Player := (Player.new quiz .default).afterRequests quizRequests

/-- A click on the lower row picks the second answer to the first question. -/
theorem clicked_choice_quiz :
    quiz.CountsChoices ∧ quizShown.waiting = .choice 2 ∧ ∃ drawing,
      quizShown.drawing = some drawing ∧ HitBox.test drawing.hits 20 165 = some 1 ∧
      ∃ text choices choice row,
        (Player.new quiz .default).drawnAt? none quizRequests = some quizShown.position ∧
        LaidOut quiz .default quizShown.position text choices drawing ∧
        (Layout.choiceRows .default text choices)[1]? = some (choice, row) ∧
        quizShown.interpreter.state.choose quiz 2 1 =
          quizShown.interpreter.state.pick quiz choice := by
  have hwaiting : quizShown.waiting = .choice 2 := by decide +kernel
  have hboxes : (quizShown.drawing.bind fun drawing => HitBox.test drawing.hits 20 165) =
      some 1 := by
    decide +kernel
  have hposition : (Player.new quiz .default).drawnAt? none quizRequests =
      some quizShown.position := by
    decide +kernel
  obtain ⟨drawing, hdrawing, hhit⟩ := Option.bind_eq_some_iff.mp hboxes
  obtain ⟨drawn, text, choices, choice, row, hdrawn, hlaid, hrow, -, hpicks⟩ :=
    clicked_choice countsChoices_quiz rfl hwaiting hdrawing hhit
  cases hposition.symm.trans hdrawn
  obtain ⟨-, hpick, -⟩ := hpicks rfl
  exact ⟨countsChoices_quiz, hwaiting, drawing, hdrawing, hhit, text, choices, choice, row,
    hposition, hlaid, hrow, hpick⟩

/-- The player when the first question has been answered, and no frame has shown the second one. -/
def quizAnswered : Player :=
  (Player.new quiz .default).afterRequests
    (quizRequests ++ [.call (.click 20 150 (fun _ => .pending) .zero)])

/-- The rows of the first question still take clicks, and its second answer is one too many. -/
theorem invalidChoice_quiz :
    quizAnswered.waiting = .choice 1 ∧
      (quizAnswered.drawing.bind fun drawing => HitBox.test drawing.hits 20 165) = some 1 ∧
      (quizAnswered.click 20 165 (fun _ => .pending) .zero).2 =
        .error (.script (.invalidChoice 1 1)) := by
  decide +kernel

end Player
end SceneScript
