import SceneScript.Proofs.Show.Bookkeeping

/-! # Players that wait for nobody

A player that waits for a transition should be running it. This fails after two kinds of calls: an
input whose jump cannot be run ahead, and a frame that lets a jump take effect which itself ends in
front of a further transition. No later call gets the player out of there.
-/

namespace SceneScript.Player

variable {player : Player}

/-! ## Held and stranded players -/

/-- A transition that is waited for is running, and its jump is stored. -/
def Held (player : Player) : Prop :=
  ∀ target, player.waiting = .transition target →
    player.transition.isSome = true ∧ player.pending.isSome = true

/-- The input leads up to a transition whose jump fails. -/
def Dooms (player : Player) (input : Option Input) : Prop :=
  ∃ next response target ahead fault,
    player.interpreter.tick player.project input = (next, .ok response) ∧
      next.state.waiting = .transition target ∧
      next.tick player.project (some .transitionFinished) = (ahead, .error fault)

/-- The transition that runs is over at that time, and its jump ends in front of another one. -/
def EndsBefore (player : Player) (now : Duration) : Prop :=
  ∃ transition jump target, player.transition = some transition ∧
    (transition.frame now).finished = true ∧ player.pending = some jump ∧
    jump.interpreter.state.waiting = .transition target

/-- The call leaves the player waiting for a transition that nobody runs. -/
def Strands (player : Player) : Call → Prop
  | .start _ _ => player.started = false ∧ player.Dooms none
  | .click x y _ _ => ∃ input outcome, player.intent x y = (some input, outcome) ∧
      player.Dooms (some input)
  | .frame _ now => player.EndsBefore now
  | .takeEffects => False

/-- None of the calls strands the player. -/
def Smooth (player : Player) : List Call → Prop
  | [] => True
  | call :: rest => ¬ player.Strands call ∧ (player.call call).1.Smooth rest

/-! ## Single calls -/

theorem held_of_same {next : Player} (hwaiting : next.waiting = player.waiting)
    (htransition : next.transition = player.transition) (hpending : next.pending = player.pending) :
    next.Held ↔ player.Held := by
  unfold Held
  rw [hwaiting, htransition, hpending]

/-- Without a transition, only a player that does not wait for one is held. -/
theorem held_iff_of_idle (hidle : player.transition = none) :
    player.Held ↔ ∀ target, player.waiting ≠ .transition target := by
  unfold Held
  rw [hidle]
  simp

/-- An input leaves a held player held unless its jump fails. -/
theorem Intact.held_feed (h : player.Intact) (hidle : player.transition = none)
    (hheld : player.Held) (input : Option Input) (catalogue : Catalogue) (now : Duration) :
    (player.feed input catalogue now).1.Held ↔ ¬ player.Dooms input := by
  have hwaits := (held_iff_of_idle hidle).mp hheld
  have hfed := h.fed hidle input catalogue now
  generalize player.feed input catalogue now = result at hfed ⊢
  cases hfed with
  | @failed next fault htick =>
      have hleft : next.state.waiting = player.waiting ∨ next.state.waiting = .nothing := by
        have hkept := Interpreter.tick_fault_waiting (congrArg Prod.snd htick)
        rw [htick] at hkept
        exact hkept
      constructor
      · rintro - ⟨_, response, _, _, _, hok, -⟩
        rw [htick] at hok
        cases hok
      · rintro - target hwaiting
        rcases hleft with hsame | hnothing
        · exact absurd (hsame.symm.trans hwaiting) (hwaits target)
        · cases hnothing.symm.trans hwaiting
  | settled htick hwaiting =>
      constructor
      · rintro - ⟨_, _, target, _, _, hok, htransition, -⟩
        rw [htick] at hok
        cases hok
        exact hwaiting target htransition
      · rintro - target htransition
        exact absurd htransition (hwaiting target)
  | began htick hwaiting hjump _ =>
      constructor
      · rintro - ⟨_, _, _, _, _, hok, -, hfails⟩
        rw [htick] at hok
        cases hok
        rw [hjump] at hfails
        cases hfails
      · exact fun _ _ _ => ⟨rfl, rfl⟩
  | stranded htick hwaiting hjump =>
      constructor
      · intro hnext
        have hrunning := (hnext _ hwaiting).1
        rw [show (player.took _ _ _).transition = none from hidle] at hrunning
        cases hrunning
      · intro hnever
        exact absurd ⟨_, _, _, _, _, htick, hwaiting, hjump⟩ hnever

theorem held_redraw (player : Player) (catalogue : Catalogue) (now : Duration) :
    (player.redraw catalogue now).1.Held ↔ player.Held := by
  obtain ⟨image, drawing, heq, -⟩ := redraw_kept player catalogue now
  rw [heq]
  exact held_of_same rfl rfl rfl

/-- A frame leaves a held player held unless a jump takes effect that ends before a transition. -/
theorem Intact.held_frame (h : player.Intact) (hheld : player.Held) (catalogue : Catalogue)
    (now : Duration) :
    (player.frame catalogue now).1.Held ↔ ¬ player.EndsBefore now := by
  have hframed := h.framed catalogue now
  generalize player.frame catalogue now = result at hframed ⊢
  cases hframed with
  | still hidle =>
      rw [held_redraw]
      refine iff_of_true hheld ?_
      rintro ⟨transition, _, _, hrunning, -⟩
      rw [hidle] at hrunning
      cases hrunning
  | shown hrunning hgoes =>
      refine iff_of_true ((held_of_same rfl rfl rfl).mpr hheld) ?_
      rintro ⟨transition, _, _, hrunning', hends, -⟩
      rw [hrunning] at hrunning'
      cases hrunning'
      rw [hgoes] at hends
      cases hends
  | @ended transition jump hrunning hends hpending =>
      rw [held_redraw, held_iff_of_idle rfl]
      constructor
      · rintro hwaits ⟨_, jump', target, -, -, hpending', hwaiting⟩
        rw [hpending] at hpending'
        cases hpending'
        exact hwaits target hwaiting
      · rintro hnever target hwaiting
        exact hnever ⟨transition, jump, target, hrunning, hends, hpending, hwaiting⟩

/-- A call leaves a held player held unless it strands the player. -/
theorem Intact.held_call (h : player.Intact) (hheld : player.Held) (call : Call) :
    (player.call call).1.Held ↔ ¬ player.Strands call := by
  cases call with
  | start catalogue now =>
      change (player.start catalogue now).1.Held ↔ _
      unfold Player.start Strands
      cases hstarted : player.started with
      | true => simpa using hheld
      | false =>
          have hidle := (h.unstarted hstarted).2
          have hfeed := h.begun.held_feed hidle ((held_of_same rfl rfl rfl).mpr hheld) none
            catalogue now
          simp only [Bool.false_eq_true, if_false, true_and]
          exact hfeed
  | click x y catalogue now =>
      change (player.click x y catalogue now).1.Held ↔ _
      unfold Player.click Strands
      cases hintent : player.intent x y with
      | mk input outcome =>
          cases input with
          | none =>
              refine iff_of_true hheld ?_
              rintro ⟨_, _, htaken, -⟩
              rw [hintent] at htaken
              cases htaken
          | some input =>
              rw [h.held_feed (intent_eq_some hintent).1 hheld (some input) catalogue now]
              refine not_congr ⟨fun hdooms => ⟨input, outcome, hintent, hdooms⟩, ?_⟩
              rintro ⟨_, _, htaken, hdooms⟩
              rw [hintent] at htaken
              cases htaken
              exact hdooms
  | frame catalogue now => exact h.held_frame hheld catalogue now
  | takeEffects => exact iff_of_true ((held_of_same rfl rfl rfl).mpr hheld) not_false

/-- A stranded player stays stranded: clicks are dropped, and frames have nothing to end. -/
theorem Intact.not_held_call (h : player.Intact) (hstranded : ¬ player.Held) (call : Call) :
    ¬ (player.call call).1.Held := by
  have hstuck : ∃ target, player.waiting = .transition target ∧ player.transition = none := by
    by_contra hnone
    refine hstranded fun target hwaiting => ?_
    have hrunning : player.transition.isSome = true := by
      by_contra hidle
      rw [Bool.not_eq_true, Option.isSome_eq_false_iff, Option.isNone_iff_eq_none] at hidle
      exact hnone ⟨target, hwaiting, hidle⟩
    exact ⟨hrunning, h.paired ▸ hrunning⟩
  obtain ⟨target, hwaiting, hidle⟩ := hstuck
  cases call with
  | start catalogue now =>
      have hstarted := h.started_of_waiting (by rw [hwaiting]; exact nofun)
      change ¬ (player.start catalogue now).1.Held
      unfold Player.start
      rw [if_pos hstarted]
      exact hstranded
  | click x y catalogue now =>
      have hintent : player.intent x y = (none, .ignored) := by
        unfold intent
        rw [hidle, h.idle_pending hidle, hwaiting]
        rfl
      change ¬ (player.click x y catalogue now).1.Held
      unfold Player.click
      rw [hintent]
      exact hstranded
  | frame catalogue now =>
      change ¬ (player.frame catalogue now).1.Held
      have hframed := h.framed catalogue now
      generalize player.frame catalogue now = result at hframed ⊢
      cases hframed with
      | still _ =>
          rw [held_redraw]
          exact hstranded
      | shown hrunning _ | ended hrunning _ _ =>
          rw [hidle] at hrunning
          cases hrunning
  | takeEffects => exact fun hheld => hstranded ((held_of_same rfl rfl rfl).mp hheld)

/-! ## Runs of calls -/

theorem Intact.not_held_afterCalls (h : player.Intact) (hstranded : ¬ player.Held)
    (calls : List Call) : ¬ (player.afterCalls calls).Held := by
  induction calls generalizing player with
  | nil => exact hstranded
  | cons call rest ih => exact ih (h.call call) (h.not_held_call hstranded call)

theorem Intact.held_afterCalls (h : player.Intact) (hheld : player.Held) (calls : List Call) :
    (player.afterCalls calls).Held ↔ player.Smooth calls := by
  induction calls generalizing player with
  | nil => exact iff_of_true hheld trivial
  | cons call rest ih =>
      have hcall := h.held_call hheld call
      by_cases hstrands : player.Strands call
      · have hlost : ¬ (player.call call).1.Held := fun hnext => hcall.mp hnext hstrands
        exact iff_of_false ((h.call call).not_held_afterCalls hlost rest)
          fun hsmooth => hsmooth.1 hstrands
      · have hnext := hcall.mpr hstrands
        exact (ih (h.call call) hnext).trans (and_iff_right hstrands).symm

/-- After any calls to a new player, a transition that is waited for is running and its jump is
stored, exactly if none of the calls has stranded the player. -/
theorem held_iff_smooth (project : Project) (font : Font) (calls : List Call) :
    ((Player.new project font).afterCalls calls).Held ↔
      (Player.new project font).Smooth calls :=
  (intact_new project font).held_afterCalls (fun _ hwaiting => by cases hwaiting) calls

/-- Two transitions, one right behind the other. -/
def relay : Project where
  scenes := [
    { id := "a", commands := [⟨"1", .goto 1 true⟩] },
    { id := "b", commands := [⟨"2", .goto 2 true⟩] },
    { id := "c", commands := [.dialogue "3" "" "end" []] }]

def relayCalls : List Call :=
  [.start (fun _ => .pending) .zero, .frame (fun _ => .pending) .zero]

/-- The frame that ends the first transition leaves nobody to run the second one. -/
theorem not_held_relay : ¬ ((Player.new relay .default).afterCalls relayCalls).Held := by
  have hwaiting : ((Player.new relay .default).afterCalls relayCalls).waiting = .transition 2 := by
    decide +kernel
  have hidle : ((Player.new relay .default).afterCalls relayCalls).transition.isSome = false := by
    decide +kernel
  intro hheld
  have hrunning := (hheld 2 hwaiting).1
  rw [hidle] at hrunning
  cases hrunning

end SceneScript.Player
