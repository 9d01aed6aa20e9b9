import SceneScript.Proofs.Show.Requests

/-! # Frames drawn twice

A frame may end a transition, which lets its jump take effect, and stores what it has drawn. A second
frame at the same time finds nothing left to do.
-/

namespace SceneScript.Player

/-- What is drawn depends on nothing that drawing anew changes. -/
theorem redraw_redraw (player : Player) (catalogue : Catalogue) (now : Duration) :
    (player.redraw catalogue now).1.redraw catalogue now = player.redraw catalogue now := by
  unfold redraw
  cases hdrawing : player.drawingOf player.interpreter player.clock catalogue now with
  | error fault => simp only [hdrawing]
  | ok drawing =>
      by_cases hready : (drawing.staging catalogue).isReady = true
      · have hagain : Player.drawingOf { player with
            image := some (drawing.render catalogue player.font)
            drawing := some drawing } player.interpreter player.clock catalogue now = .ok drawing :=
          hdrawing
        simp only [if_pos hready, hagain]
      · simp only [if_neg hready, hdrawing]

theorem frame_of_idle {player : Player} (hidle : player.transition = none) (catalogue : Catalogue)
    (now : Duration) : player.frame catalogue now = player.redraw catalogue now := by
  unfold frame
  rw [hidle]
  rfl

theorem transition_commit (player : Player) (now : Duration) :
    (player.commit now).transition = player.transition := by
  unfold commit
  split <;> rfl

/-- Whatever a frame shows and stores, and also if it fails, a second one at the same time answers the
same and changes nothing more. -/
theorem frame_frame (player : Player) (catalogue : Catalogue) (now : Duration) :
    (player.frame catalogue now).1.frame catalogue now = player.frame catalogue now := by
  have hredrawn (drawn : Player) (hidle : drawn.transition = none) :
      (drawn.redraw catalogue now).1.frame catalogue now = drawn.redraw catalogue now := by
    have hstill := (drawn.here?_redraw catalogue now).2.trans hidle
    rw [frame_of_idle hstill, redraw_redraw]
  cases hrunning : player.transition with
  | none =>
      rw [frame_of_idle hrunning]
      exact hredrawn player hrunning
  | some transition =>
      by_cases hends : (transition.frame now).finished = true
      · have hframe : player.frame catalogue now =
            (Player.commit { player with
              transition := none
              image := some (transition.frame now).image } now).redraw catalogue now := by
          simp [frame, hrunning, Transition.sample, hends]
        rw [hframe]
        exact hredrawn _ (transition_commit _ now)
      · have hframe : player.frame catalogue now =
            ({ player with image := some (transition.frame now).image },
              .ok (some (transition.frame now).image)) := by
          simp [frame, hrunning, Transition.sample, hends]
        rw [hframe]
        simp [frame, hrunning, Transition.sample, hends]

end SceneScript.Player
