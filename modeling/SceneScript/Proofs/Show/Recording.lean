import SceneScript.Proofs.Asset.Store
import SceneScript.Proofs.Show.Deferral
import SceneScript.Proofs.Show.QuestionBoxes

/-! # Questions in recordings

A recording answers a question by a click into the middle of the box that the last frame has drawn for
the choice. No picture is awaited in a recording, so the last frame is always one of the question, and
the questions of a run are given the answers of the plan, one after the other.
-/

namespace SceneScript

/-! ## Pictures -/

section

variable {decode : Decoder} {readFile : String → Except String (List UInt8)} {project : Project}

/-- A recording has all its pictures, or knows that they have failed, before it begins. -/
theorem Recording.catalogue_pictures_ne_pending (handle : String) :
    (pictures decode readFile project).catalogue handle ≠ .pending := by
  have hembedded := (AssetStore.sorts_loadEmbedded decode project).settled
  rw [Ne, AssetStore.catalogue_eq_pending, pictures]
  generalize AssetStore.loadEmbedded decode {} project = embedded at hembedded
  obtain ⟨store, references⟩ := embedded
  dsimp only at hembedded ⊢
  induction references generalizing store with
  | nil => exact hembedded handle
  | cons reference rest ih =>
      rw [List.foldl_cons]
      refine ih _ fun other => ?_
      split
      · exact hembedded other
      · split
        · exact AssetStore.settled_set hembedded (AssetStore.decoded_ne_pending decode _) _ other
        · exact AssetStore.settled_set hembedded AssetState.noConfusion _ other

end

/-! ## Questions -/

def Input.choice? : Input → Option Index
  | .choose choice => some choice
  | _ => none

def ClickOutcome.choice? : ClickOutcome → Option Index
  | .chose choice => some choice
  | _ => none

/-- Where a click goes on, it gives no answer. -/
theorem Player.choice?_of_click {player : Player} {x y : Int32} {catalogue : Catalogue}
    {now : Duration} {outcome : ClickOutcome} (hwaiting : player.waiting = .click)
    (hclick : (player.click x y catalogue now).2 = .ok outcome) : outcome.choice? = none := by
  unfold click at hclick
  split at hclick
  · next hintent =>
      cases hclick
      rcases intent_eq_none hintent with rfl | rfl <;> rfl
  · next input meant hintent =>
      obtain ⟨_, -, rfl⟩ := map_eq_ok.mp hclick
      rcases (intent_eq_some hintent).2 with ⟨-, -, rfl⟩ | ⟨count, choice, hasks, -⟩
      · rfl
      · cases hwaiting.symm.trans hasks

namespace Recording

/-- A question that a recording comes to, and the answer that it is to be given. -/
structure Question where
  player : Player
  count : Index
  requested : Index
  now : Duration

/-- The question that stands behind a frame, as the recording finds it. -/
def question? (player : Player) (choices : List Index) (now : Duration) : Option Question :=
  if player.inTransition || player.interpreter.state.finished then none
  else
    match player.waiting with
    | .choice count => some ⟨player, count, choices.headD 0, now⟩
    | _ => none

/-- `take`, with the questions that are come to. -/
def takeNoting (catalogue : Catalogue) (step : Duration) (number : Nat) (player : Player)
    (choices : List Index) (now : Duration) (rest : Nat) : Recording × List Question :=
  match player.frame catalogue now with
  | (_, .error fault) => ({ outcome := .error (.show fault) }, [])
  | (player, .ok image) =>
    let frames := (image.map (number, ·)).toList
    let player := player.takeEffects.1
    match rest with
    | 0 => ({ frames, outcome := .ok player }, [])
    | rest + 1 =>
      let asked := (question? player choices now).toList
      match proceed player choices catalogue now with
      | .error fault => ({ frames, outcome := .error fault }, asked)
      | .ok none => ({ frames, outcome := .ok player }, asked)
      | .ok (some (player, choices)) =>
        let (later, questions) := takeNoting catalogue step (number + 1) player choices (now + step)
          rest
        ({ later with frames := frames ++ later.frames }, asked ++ questions)

/-- The player of a recording. -/
def recorder (plan : RecordingPlan) (project : Project) : Player :=
  { Player.new project .default with showSceneIndex := plan.showSceneIndex }

/-- `ofProject`, with the questions that are come to. -/
def noting (catalogue : Catalogue) (plan : RecordingPlan) (project : Project) :
    Recording × List Question :=
  match (recorder plan project).start catalogue .zero with
  | (_, .error fault) => ({ outcome := .error (.show fault) }, [])
  | (player, .ok ()) =>
    takeNoting catalogue (step plan) 0 player plan.choices .zero (plan.maxFrames - 1)

variable {catalogue : Catalogue} {interval now : Duration} {player next : Player}
  {choices left : List Index} {question : Question} {project : Project}

/-- To note the questions changes nothing. -/
theorem takeNoting_fst (catalogue : Catalogue) (interval : Duration) (number : Nat)
    (player : Player) (choices : List Index) (now : Duration) (rest : Nat) :
    (takeNoting catalogue interval number player choices now rest).1 =
      take catalogue interval number player choices now rest := by
  induction rest generalizing number player choices now with
  | zero =>
      unfold takeNoting take
      cases player.frame catalogue now with
      | mk drawn result => cases result <;> rfl
  | succ rest ih =>
      unfold takeNoting take
      cases player.frame catalogue now with
      | mk drawn result =>
          cases result with
          | error fault => rfl
          | ok image =>
              dsimp only
              cases proceed drawn.takeEffects.1 choices catalogue now with
              | error fault => rfl
              | ok going =>
                  cases going with
                  | none => rfl
                  | some going => simp only [← ih]

theorem noting_fst (catalogue : Catalogue) (plan : RecordingPlan) (project : Project) :
    (noting catalogue plan project).1 = ofProject catalogue plan project := by
  unfold noting ofProject
  change _ = match (recorder plan project).start catalogue .zero with
    | (_, .error fault) => ({ outcome := .error (.show fault) } : Recording)
    | (player, .ok ()) =>
      take catalogue (step plan) 0 player plan.choices .zero (plan.maxFrames - 1)
  cases (recorder plan project).start catalogue .zero with
  | mk started result =>
      cases result with
      | error fault => rfl
      | ok _ => exact takeNoting_fst ..

/-! ## What comes between two frames -/

theorem question?_eq_some :
    question? player choices now = some question ↔
      (player.inTransition = false ∧ player.interpreter.state.finished = false) ∧
        player.waiting = .choice question.count ∧
        question = ⟨player, question.count, choices.headD 0, now⟩ := by
  unfold question?
  cases player.inTransition with
  | true => simp
  | false =>
      cases player.interpreter.state.finished with
      | true => simp
      | false =>
          simp only [Bool.or_self, Bool.false_eq_true, if_false, and_self, true_and]
          split
          · next count hwaiting =>
              rw [Option.some.injEq, hwaiting]
              constructor
              · rintro rfl
                exact ⟨rfl, rfl⟩
              · rintro ⟨hcount, heq⟩
                cases hcount
                exact heq.symm
          · next hother => simpa using fun heq => absurd heq (hother question.count)

/-- A question is answered by a click for the choice that comes next in the list. -/
theorem proceed_of_question (h : question? player choices now = some question)
    (catalogue : Catalogue) :
    proceed player choices catalogue now = do
      let place ← clickPlace player question.count question.requested
      return some (← click player place catalogue now, choices.tail) := by
  obtain ⟨⟨hidle, hfinished⟩, hwaiting, heq⟩ := question?_eq_some.mp h
  have hrequested : question.requested = choices.headD 0 := by rw [heq]
  simp only [proceed, hidle, hfinished, Bool.false_eq_true, if_false, hwaiting, hrequested]

/-- Where no question stands, no answer is used up. -/
theorem proceed_of_quiet (h : question? player choices now = none) (catalogue : Catalogue) :
    proceed player choices catalogue now = .ok (some (player, choices)) ∨
      proceed player choices catalogue now = .ok none ∨
      (player.waiting = .click ∧ proceed player choices catalogue now = do
        return some (← click player (0, 0) catalogue now, choices)) := by
  unfold question? at h
  unfold proceed
  cases hrunning : player.inTransition with
  | true => exact .inl rfl
  | false =>
      cases hfinished : player.interpreter.state.finished with
      | true => exact .inr (.inl rfl)
      | false =>
          rw [hrunning, hfinished] at h
          cases hwaiting : player.waiting with
          | choice count =>
              rw [hwaiting] at h
              cases h
          | click => exact .inr (.inr ⟨rfl, rfl⟩)
          | nothing | transition _ => exact .inr (.inl rfl)

end Recording

/-! ## Answers of sessions -/

namespace Session

/-- The answers that the bare run of a session has been given. -/
def answers (session : Session) : List Index := session.inputs.filterMap (·.bind Input.choice?)

/-- A session of a recording is one in the default font. -/
structure Records (project : Project) (session : Session) : Prop where
  inStep : InStep project session
  font_eq : session.player.font = .default

variable {project : Project} {session : Session} {catalogue : Catalogue} {now : Duration}
  {after : Player}

theorem Records.call (h : Records project session) {call : Player.Call} {reply : Player.Reply}
    (hcall : session.player.call call = (after, .ok reply)) :
    ∃ next, next.player = after ∧ Records project next ∧ next.answers =
      session.answers ++ (call.inputs session.player after reply).filterMap
        (·.bind Input.choice?) := by
  have hfont := (h.inStep.intact.sameShow_afterRequest (.call call)).font
  rw [Player.afterRequest, hcall] at hfont
  have hnext := call_eq_ok.mpr ⟨after, reply, hcall, rfl⟩
  exact ⟨_, rfl, ⟨h.inStep.call hnext, hfont.trans h.font_eq⟩, List.filterMap_append ..⟩

/-- A frame whose effects are taken gives no answer. -/
theorem Records.frame (h : Records project session) {image : Option Bitmap}
    (hframe : session.player.frame catalogue now = (after, .ok image)) :
    ∃ next, next.player = after.takeEffects.1 ∧ Records project next ∧
      next.answers = session.answers := by
  have hdrawn : session.player.call (.frame catalogue now) = (after, .ok (.drawn image)) := by
    rw [Player.call, hframe]
    rfl
  obtain ⟨shown, rfl, hshown, hanswers⟩ := h.call hdrawn
  have htaken : shown.player.call .takeEffects =
      (shown.player.takeEffects.1, .ok (.taken shown.player.takeEffects.2)) := rfl
  obtain ⟨next, hplayer, hnext, hsame⟩ := hshown.call htaken
  refine ⟨next, hplayer, hnext, ?_⟩
  have hnone : ((Player.Call.frame catalogue now).inputs session.player shown.player
      (.drawn image)).filterMap (·.bind Input.choice?) = [] := by
    simp only [Player.Call.inputs]
    split <;> rfl
  rw [hsame, hanswers, hnone, List.append_nil]
  exact List.append_nil _

/-- A click gives the answer that it says. -/
theorem Records.click (h : Records project session) {x y : Int32} {outcome : ClickOutcome}
    (hclick : session.player.click x y catalogue now = (after, .ok outcome)) :
    ∃ next, next.player = after ∧ Records project next ∧
      next.answers = session.answers ++ outcome.choice?.toList := by
  have hclicked : session.player.call (.click x y catalogue now) =
      (after, .ok (.clicked outcome)) := by
    rw [Player.call, hclick]
    rfl
  obtain ⟨next, hplayer, hnext, hanswers⟩ := h.call hclicked
  refine ⟨next, hplayer, hnext, hanswers.trans ?_⟩
  cases outcome <;> rfl

end Session

/-! ## Answers of recordings -/

namespace Recording

/-- All rows of the dialogue that asks the question have their exact places. -/
def Question.RowsFit (project : Project) (question : Question) : Prop :=
  ∀ command speaker text choices,
    project.commandAt question.player.position = .ok command →
    command.action = .dialogue speaker text choices → Layout.RowsFit .default text choices

/-- The box of the choice is one of the last frame, and of the dialogue that asks the question. The
click goes into its middle and gives the choice, unless the script fails then. -/
def Question.Offered (project : Project) (catalogue : Catalogue) (question : Question) : Prop :=
  ∃ drawing text choices box,
    question.player.drawing = some drawing ∧
    LaidOut project .default question.player.position text choices drawing ∧
    box ∈ drawing.hits ∧ box.choice = question.requested ∧
    clickPlace question.player question.count question.requested = .ok (middle box.rect) ∧
    (question.RowsFit project →
      (question.player.click (middle box.rect).1 (middle box.rect).2 catalogue question.now).2 =
          .ok (.chose question.requested) ∨
        ∃ fault, (question.player.click (middle box.rect).1 (middle box.rect).2 catalogue
            question.now).2 = .error (.script fault) ∧
          ∀ refused total, fault ≠ .invalidChoice refused total)

variable {catalogue : Catalogue} {interval now : Duration} {choices : List Index}
  {question : Question} {project : Project} {session : Session} {drawn : Player}

theorem offered_of_frame (h : Session.Records project session)
    (hsettled : ∀ handle, catalogue handle ≠ .pending) {image : Option Bitmap}
    (hframe : session.player.frame catalogue now = (drawn, .ok image))
    (hquestion : question? drawn.takeEffects.1 choices now = some question)
    (hbelow : question.requested < question.count) : question.Offered project catalogue := by
  obtain ⟨⟨hidle, hfinished⟩, hwaiting, heq⟩ := question?_eq_some.mp hquestion
  have hafter : (session.player.frame catalogue now).1 = drawn := by rw [hframe]
  have hcount : drawn.waiting = .choice question.count := hwaiting
  rw [← hafter] at hidle hfinished hcount
  obtain ⟨drawing, text, choices, hdrawing, hlaid, hlength⟩ :=
    h.inStep.intact.exists_laidOut hsettled hidle hfinished hcount
  rw [hafter] at hdrawing hlaid
  rw [h.inStep.project_eq, h.font_eq] at hlaid
  have hindex : question.requested.toNat < choices.length := by
    have hlt := UInt64.lt_iff_toNat_lt.mp hbelow
    have hle : question.count.toNat ≤ choices.length := by
      rw [hlength]
      exact Nat.mod_le ..
    omega
  have hfound : drawing.hits.find? (·.choice == question.requested) = some
      ⟨Layout.choiceRow .default (Wrap.lines .default Layout.textWidth text).length choices.length
        question.requested.toNat, question.requested⟩ := by
    rw [hlaid.hits]
    exact Layout.find?_hits hindex
  have hplayer : question.player = drawn.takeEffects.1 := by rw [heq]
  have hplace : question.player.drawing = some drawing := by
    rw [hplayer]
    exact hdrawing
  refine ⟨drawing, text, choices, _, hplace, ?_, List.mem_of_find?_eq_some hfound, rfl, ?_, ?_⟩
  · rw [hplayer]
    exact hlaid
  · rw [clickPlace, if_neg (UInt64.not_le.mpr hbelow), hplace]
    simp only [Option.bind_some, hfound]
  · intro hrows
    obtain ⟨next, hnext, hrecords, -⟩ := h.frame hframe
    obtain ⟨command, speaker, hcommand, haction⟩ := hlaid.dialogue
    have hfits : Layout.RowsFit .default text choices := by
      refine hrows command speaker text choices ?_ haction
      rw [hplayer]
      exact hcommand
    have hintact := hrecords.inStep.intact
    rw [hnext] at hintact
    rw [hplayer] at hplace ⊢
    exact hintact.click_middle hwaiting hplace hlaid hbelow hindex hfits catalogue question.now

/-- What there is to say about a recording that goes on from a session, and about its questions. -/
structure Answers (project : Project) (catalogue : Catalogue) (session : Session)
    (choices : List Index) (noted : Recording × List Question) : Prop where
  clickable : ∀ choice, noted.1.outcome ≠ .error (.choiceUnclickable choice)
  asked : ∀ (place : Nat) (question : Question), noted.2[place]? = some question →
    question.player.waiting = .choice question.count ∧
      question.requested = choices.getD place 0 ∧
      (question.requested < question.count → question.Offered project catalogue)
  given : ∀ player, noted.1.outcome = .ok player →
    (∀ question ∈ noted.2, question.RowsFit project) →
    ∃ last, last.player = player ∧ Session.Records project last ∧
      last.answers = session.answers ++ noted.2.map (·.requested)

variable {frames : List (Nat × Bitmap)} {fault : RecordingFault} {next : Session}
  {noted : Recording × List Question}

theorem answers_failed (h : ∀ choice, fault ≠ .choiceUnclickable choice) :
    Answers project catalogue session choices ({ frames, outcome := .error fault }, []) := by
  constructor
  · intro choice heq
    exact h choice (Except.error.inj heq)
  · intro place question hquestion
    cases hquestion
  · intro player heq
    cases heq

theorem answers_ended (h : Session.Records project session) :
    Answers project catalogue session choices ({ frames, outcome := .ok session.player }, []) := by
  constructor
  · intro choice heq
    cases heq
  · intro place question hquestion
    cases hquestion
  · intro player heq _
    exact ⟨session, Except.ok.inj heq, h, (List.append_nil _).symm⟩

/-- Without a question between the frames, the answers are those of the rest. -/
theorem Answers.quiet (h : Answers project catalogue next choices noted)
    (hsame : next.answers = session.answers) (frames : List (Nat × Bitmap)) :
    Answers project catalogue session choices ({ noted.1 with frames }, noted.2) := by
  refine ⟨h.clickable, h.asked, ?_⟩
  rw [← hsame]
  exact h.given

/-- A question goes before those of the rest, and its answer before theirs. -/
theorem Answers.cons (h : Answers project catalogue next choices.tail noted)
    (hwaiting : question.player.waiting = .choice question.count)
    (hrequested : question.requested = choices.headD 0)
    (hoffered : question.requested < question.count → question.Offered project catalogue)
    (hgiven : ∀ player, noted.1.outcome = .ok player → question.RowsFit project →
      next.answers = session.answers ++ [question.requested]) (frames : List (Nat × Bitmap)) :
    Answers project catalogue session choices
      ({ noted.1 with frames }, question :: noted.2) := by
  refine ⟨h.clickable, ?_, ?_⟩
  · intro place other hother
    cases place with
    | zero =>
        cases hother
        exact ⟨hwaiting, by cases choices <;> exact hrequested, hoffered⟩
    | succ place =>
        obtain ⟨hwaits, hnext, hbox⟩ := h.asked place other hother
        refine ⟨hwaits, hnext.trans ?_, hbox⟩
        cases choices <;> rfl
  · intro player houtcome hrows
    obtain ⟨hrow, hothers⟩ := List.forall_mem_cons.mp hrows
    obtain ⟨last, hplayer, hlast, hanswers⟩ := h.given player houtcome hothers
    refine ⟨last, hplayer, hlast, ?_⟩
    rw [hanswers, hgiven player houtcome hrow, List.append_assoc]
    rfl

theorem click_cases (h : Session.Records project session) (place : Int32 × Int32)
    (catalogue : Catalogue) (now : Duration) :
    (∃ next outcome, (session.player.click place.1 place.2 catalogue now).2 = .ok outcome ∧
      click session.player place catalogue now = .ok next.player ∧
      Session.Records project next ∧
      next.answers = session.answers ++ outcome.choice?.toList) ∨
    ∃ fault, click session.player place catalogue now = .error (.show fault) ∧
      (session.player.click place.1 place.2 catalogue now).2 = .error fault := by
  unfold Recording.click
  cases hclick : session.player.click place.1 place.2 catalogue now with
  | mk after result =>
      cases result with
      | error fault => exact .inr ⟨fault, rfl, rfl⟩
      | ok outcome =>
          obtain ⟨next, rfl, hnext, hanswers⟩ := h.click hclick
          exact .inl ⟨next, outcome, rfl, rfl, hnext, hanswers⟩

/-- Where no question stands, the recording ends, fails or goes on without an answer. -/
theorem proceed_cases_of_quiet (h : Session.Records project session)
    (hquestion : question? session.player choices now = none) (catalogue : Catalogue) :
    (∃ next, proceed session.player choices catalogue now = .ok (some (next.player, choices)) ∧
      Session.Records project next ∧ next.answers = session.answers) ∨
    proceed session.player choices catalogue now = .ok none ∨
    ∃ fault, proceed session.player choices catalogue now = .error fault ∧
      ∀ choice, fault ≠ .choiceUnclickable choice := by
  rcases proceed_of_quiet hquestion catalogue with hproceed | hproceed | ⟨hclicks, hproceed⟩
  · exact .inl ⟨session, hproceed, h, rfl⟩
  · exact .inr (.inl hproceed)
  · rcases click_cases h (0, 0) catalogue now with
      ⟨next, outcome, hclick, hnext, hrecords, hanswers⟩ | ⟨fault, hclick, -⟩
    · rw [Player.choice?_of_click hclicks hclick] at hanswers
      refine .inl ⟨next, ?_, hrecords, hanswers.trans (List.append_nil _)⟩
      rw [hproceed, hnext]
      rfl
    · refine .inr (.inr ⟨.show fault, ?_, nofun⟩)
      rw [hproceed, hclick]
      rfl

/-- Where a question stands, the recording fails or goes on with the answer that comes next. -/
theorem proceed_cases_of_question (h : Session.Records project session)
    (hquestion : question? session.player choices now = some question)
    (hoffered : question.requested < question.count → question.Offered project catalogue) :
    (∃ next, proceed session.player choices catalogue now =
        .ok (some (next.player, choices.tail)) ∧
      Session.Records project next ∧
      (question.RowsFit project → next.answers = session.answers ++ [question.requested])) ∨
    ∃ fault, proceed session.player choices catalogue now = .error fault ∧
      ∀ choice, fault ≠ .choiceUnclickable choice := by
  obtain ⟨-, -, heq⟩ := question?_eq_some.mp hquestion
  have hplayer : question.player = session.player := by rw [heq]
  have hnow : question.now = now := by rw [heq]
  rw [proceed_of_question hquestion catalogue]
  by_cases hbelow : question.requested < question.count
  · obtain ⟨_, _, _, box, -, -, -, -, hplace, hclicks⟩ := hoffered hbelow
    rw [hplayer] at hplace hclicks
    rw [hnow] at hclicks
    rw [hplace]
    rcases click_cases h (middle box.rect) catalogue now with
      ⟨next, outcome, hclick, hnext, hrecords, hanswers⟩ | ⟨fault, hclick, -⟩
    · refine .inl ⟨next, ?_, hrecords, fun hrow => ?_⟩
      · simp only [bind, Except.bind, hnext, pure, Except.pure]
      · rcases hclicks hrow with hchose | ⟨fault, hfault, -⟩
        · cases hclick.symm.trans hchose
          exact hanswers
        · cases hclick.symm.trans hfault
    · refine .inr ⟨.show fault, ?_, nofun⟩
      simp only [bind, Except.bind, hclick]
  · refine .inr ⟨.choiceMissing question.requested question.count, ?_, nofun⟩
    rw [clickPlace, if_pos (UInt64.not_lt.mp hbelow)]
    rfl

/-- Between two frames, the answer that comes next is given if a question stands there. -/
theorem answers_proceed (h : Session.Records project session)
    (hoffered : ∀ question, question? session.player choices now = some question →
      question.requested < question.count → question.Offered project catalogue)
    (later : Player → List Index → Recording × List Question)
    (hlater : ∀ next left, Session.Records project next →
      Answers project catalogue next left (later next.player left)) (frames : List (Nat × Bitmap)) :
    Answers project catalogue session choices
      (match proceed session.player choices catalogue now with
      | .error fault =>
        ({ frames, outcome := .error fault }, (question? session.player choices now).toList)
      | .ok none =>
        ({ frames, outcome := .ok session.player }, (question? session.player choices now).toList)
      | .ok (some (player, left)) =>
        ({ (later player left).1 with frames := frames ++ (later player left).1.frames },
          (question? session.player choices now).toList ++ (later player left).2)) := by
  cases hquestion : question? session.player choices now with
  | none =>
      rcases proceed_cases_of_quiet h hquestion catalogue with
        ⟨next, hproceed, hrecords, hsame⟩ | hproceed | ⟨fault, hproceed, hfault⟩ <;> rw [hproceed]
      · exact (hlater next choices hrecords).quiet hsame _
      · exact answers_ended h
      · exact answers_failed hfault
  | some question =>
      obtain ⟨-, hwaiting, heq⟩ := question?_eq_some.mp hquestion
      have hasks : question.player.waiting = .choice question.count := by
        rw [heq]
        exact hwaiting
      have hrequested : question.requested = choices.headD 0 := by rw [heq]
      have hbox := hoffered question hquestion
      rcases proceed_cases_of_question h hquestion hbox with
        ⟨next, hproceed, hrecords, hgiven⟩ | ⟨fault, hproceed, hfault⟩ <;> rw [hproceed]
      · exact (hlater next choices.tail hrecords).cons hasks hrequested hbox (fun _ _ => hgiven) _
      · have hfailed : Answers project catalogue session choices.tail
            ({ frames, outcome := .error fault }, []) := answers_failed hfault
        exact hfailed.cons hasks hrequested hbox (fun _ hended => by cases hended) frames

theorem answers_takeNoting (h : Session.Records project session)
    (hsettled : ∀ handle, catalogue handle ≠ .pending) (interval : Duration) (number : Nat)
    (choices : List Index) (now : Duration) (rest : Nat) :
    Answers project catalogue session choices
      (takeNoting catalogue interval number session.player choices now rest) := by
  induction rest generalizing session number choices now with
  | zero =>
      unfold takeNoting
      cases hframe : session.player.frame catalogue now with
      | mk drawn result =>
          cases result with
          | error fault => exact answers_failed nofun
          | ok image =>
              obtain ⟨shown, hplayer, hshown, hsame⟩ := h.frame hframe
              have hended : Answers project catalogue shown choices
                  ({ outcome := .ok shown.player }, []) := answers_ended hshown
              rw [hplayer] at hended
              exact hended.quiet hsame _
  | succ rest ih =>
      unfold takeNoting
      cases hframe : session.player.frame catalogue now with
      | mk drawn result =>
          cases result with
          | error fault => exact answers_failed nofun
          | ok image =>
              obtain ⟨shown, hplayer, hshown, hsame⟩ := h.frame hframe
              have hoffered (question : Question)
                  (hquestion : question? drawn.takeEffects.1 choices now = some question)
                  (hbelow : question.requested < question.count) :
                  question.Offered project catalogue :=
                offered_of_frame h hsettled hframe hquestion hbelow
              dsimp only
              generalize drawn.takeEffects.1 = taken at hplayer hoffered ⊢
              subst hplayer
              have hlater (next : Session) (left : List Index)
                  (hnext : Session.Records project next) :
                  Answers project catalogue next left (takeNoting catalogue interval (number + 1)
                    next.player left (now + interval) rest) :=
                ih hnext (number + 1) left (now + interval)
              exact (answers_proceed hshown hoffered _ hlater _).quiet hsame _

theorem records_start {plan : RecordingPlan} {started : Player}
    (hstart : (recorder plan project).start catalogue .zero = (started, .ok ())) :
    ∃ session, session.player = started ∧ Session.Records project session ∧
      session.answers = [] := by
  have hnew : Session.Records project { player := recorder plan project } :=
    ⟨⟨rfl, (Player.intact_new project .default).afterRequest (.numberScenes plan.showSceneIndex),
      rfl⟩, rfl⟩
  have hcall : (recorder plan project).call (.start catalogue .zero) = (started, .ok .begun) := by
    rw [Player.call, hstart]
    rfl
  obtain ⟨session, hplayer, hrecords, hanswers⟩ := hnew.call hcall
  exact ⟨session, hplayer, hrecords, hanswers⟩

/-- A recording in which no picture is awaited never lacks a box to click. Its questions, noted on the
way, are to be given the answers of the plan in order, and the first choice when these are used up.
If there is such a choice, its box is in the last frame, and the click into the middle gives that
answer or makes the script fail. So a recording that does not fail ends where the bare run ends that
is given these answers. -/
theorem answers_ofProject (hsettled : ∀ handle, catalogue handle ≠ .pending)
    (plan : RecordingPlan) (project : Project) :
    let noted := noting catalogue plan project
    noted.1 = ofProject catalogue plan project ∧
    (∀ choice, noted.1.outcome ≠ .error (.choiceUnclickable choice)) ∧
    (∀ (place : Nat) (question : Question), noted.2[place]? = some question →
      question.player.waiting = .choice question.count ∧
        question.requested = plan.choices.getD place 0 ∧
        (question.requested < question.count → question.Offered project catalogue)) ∧
    ∀ player, noted.1.outcome = .ok player → (∀ question ∈ noted.2, question.RowsFit project) →
      ∃ inputs effects,
        (Interpreter.new project).drive project inputs = .ok (player.interpreter, effects) ∧
        inputs.filterMap (·.bind Input.choice?) = noted.2.map (·.requested) := by
  intro noted
  have hanswers : (∃ session, session.answers = [] ∧
      Answers project catalogue session plan.choices noted) := by
    simp only [noted, noting]
    cases hstart : (recorder plan project).start catalogue .zero with
    | mk started result =>
        cases result with
        | error fault => exact ⟨{ player := recorder plan project }, rfl, answers_failed nofun⟩
        | ok _ =>
            obtain ⟨session, rfl, hrecords, hnone⟩ := records_start hstart
            exact ⟨session, hnone, answers_takeNoting hrecords hsettled _ _ _ _ _⟩
  obtain ⟨session, hnone, hclickable, hasked, hgiven⟩ := hanswers
  refine ⟨noting_fst catalogue plan project, hclickable, hasked, fun player hplayer hrows => ?_⟩
  obtain ⟨last, rfl, hrecords, hlast⟩ := hgiven player hplayer hrows
  rw [hnone] at hlast
  exact ⟨last.inputs, _, hrecords.inStep.drive, hlast⟩

/-- The second choice for the first question; the only choice of the second one is not asked for. -/
def quizPlan : RecordingPlan := { choices := [1], maxFrames := 5, intervalMs := 40 }

def quizPictures : Catalogue :=
  (pictures (fun _ => none) (fun _ => .error "no files") Player.quiz).catalogue

theorem noting_quiz :
    (noting quizPictures quizPlan Player.quiz).2.map
        (fun question => (question.player.position, question.requested, question.count)) =
      [(⟨0, [], 0⟩, 1, 2), (⟨0, [], 1⟩, 0, 1)] ∧
    (noting quizPictures quizPlan Player.quiz).1.outcome.isOk = true := by
  decide +kernel

/-- The bare run that ends where the recording ends has been given both answers. -/
theorem answers_quiz : (∀ handle, quizPictures handle ≠ .pending) ∧
    ∃ player inputs effects,
      (ofProject quizPictures quizPlan Player.quiz).outcome = .ok player ∧
      (Interpreter.new Player.quiz).drive Player.quiz inputs =
        .ok (player.interpreter, effects) ∧
      inputs.filterMap (·.bind Input.choice?) = [1, 0] := by
  have hsettled : ∀ handle, quizPictures handle ≠ .pending := catalogue_pictures_ne_pending
  obtain ⟨hquestions, hends⟩ := noting_quiz
  obtain ⟨hsame, -, -, hgiven⟩ := answers_ofProject hsettled quizPlan Player.quiz
  have hrows : ∀ question ∈ (noting quizPictures quizPlan Player.quiz).2,
      question.RowsFit Player.quiz := by
    intro question hquestion command speaker text choices hcommand haction
    have hmem := List.mem_map_of_mem (f := fun question : Question =>
      (question.player.position, question.requested, question.count)) hquestion
    simp only [hquestions, List.mem_cons, Prod.mk.injEq, List.not_mem_nil, or_false] at hmem
    rcases hmem with ⟨hposition, -⟩ | ⟨hposition, -⟩
    · rw [hposition] at hcommand
      cases hcommand
      cases haction
      decide +kernel
    · rw [hposition] at hcommand
      cases hcommand
      cases haction
      decide +kernel
  rw [← hsame]
  cases houtcome : (noting quizPictures quizPlan Player.quiz).1.outcome with
  | error fault =>
      rw [houtcome] at hends
      cases hends
  | ok player =>
      obtain ⟨inputs, effects, hdrive, hinputs⟩ := hgiven player houtcome hrows
      refine ⟨hsettled, player, inputs, effects, rfl, hdrive, hinputs.trans ?_⟩
      have hrequested := congrArg (List.map (·.2.1)) hquestions
      rw [List.map_map] at hrequested
      exact hrequested

end Recording
end SceneScript
