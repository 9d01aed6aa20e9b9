import SceneScript.Proofs.Run.Position

/-! # What stands behind a position

Whether the story goes on is asked from list to list outwards. The question counts on from the place
in the innermost list and, on the way out, from the owners of the lists; an owner that has led into
a list is not the last index.
-/

namespace SceneScript.State

variable {project : Project} {position : Position} {depth : Nat} {index : Index}
  {commands : List Command} {fault : Fault}

/-! ## One list -/

theorem hasCommandBehind_of_lost
    (hlist : project.listAt position.scene (position.frames.take depth) = .error fault) :
    hasCommandBehind project position depth index = .ok false := by
  rw [hasCommandBehind.eq_def, hlist]

theorem hasCommandBehind_of_last
    (hlist : project.listAt position.scene (position.frames.take depth) = .ok commands)
    (hlast : ¬index.HasNext) :
    hasCommandBehind project position depth index = .error .overflow := by
  have hstops : index.next = .error .overflow := Index.next_eq_error.mpr ⟨hlast, rfl⟩
  rw [hasCommandBehind.eq_def, hlist, hstops]
  rfl

theorem hasCommandBehind_of_command {command : Command}
    (hlist : project.listAt position.scene (position.frames.take depth) = .ok commands)
    (hnext : index.HasNext) (hcommand : (index + 1).of? commands = some command) :
    hasCommandBehind project position depth index = .ok true := by
  rw [hasCommandBehind.eq_def, hlist, Index.next_of_hasNext hnext]
  exact if_pos (by rw [hcommand]; rfl)

/-- Behind the last command of a scene stands the next scene. -/
theorem hasCommandBehind_zero
    (hlist : project.listAt position.scene (position.frames.take 0) = .ok commands)
    (hnext : index.HasNext) (hend : (index + 1).of? commands = none) :
    hasCommandBehind project position 0 index =
      .ok (project.scene? (position.scene + 1)).isSome := by
  obtain ⟨entered, hscene⟩ := Project.exists_scene_of_listAt hlist
  rw [hasCommandBehind, hlist, Index.next_of_hasNext hnext]
  refine (if_neg (by simp [hend])).trans ?_
  rw [Index.next_of_hasNext (Index.hasNext_of_of? hscene)]
  rfl

/-- Behind the last command of a list stands what is behind its owner. -/
theorem hasCommandBehind_succ {frame : Frame} (hframe : position.frames[depth]? = some frame)
    (hlist : project.listAt position.scene (position.frames.take (depth + 1)) = .ok commands)
    (hnext : index.HasNext) (hend : (index + 1).of? commands = none) :
    hasCommandBehind project position (depth + 1) index =
      hasCommandBehind project position depth frame.owner := by
  rw [hasCommandBehind, hlist, Index.next_of_hasNext hnext]
  refine (if_neg (by simp [hend])).trans ?_
  rw [hframe]

/-! ## All lists around a position -/

theorem exists_hasCommandBehind (hdepth : depth ≤ position.frames.length)
    (hnext : index.HasNext) :
    ∃ answer, hasCommandBehind project position depth index = .ok answer := by
  induction depth generalizing index with
  | zero =>
      cases hlist : project.listAt position.scene (position.frames.take 0) with
      | error fault => exact ⟨false, hasCommandBehind_of_lost hlist⟩
      | ok commands =>
          cases hcommand : (index + 1).of? commands with
          | some command => exact ⟨true, hasCommandBehind_of_command hlist hnext hcommand⟩
          | none => exact ⟨_, hasCommandBehind_zero hlist hnext hcommand⟩
  | succ depth ih =>
      cases hlist : project.listAt position.scene (position.frames.take (depth + 1)) with
      | error fault => exact ⟨false, hasCommandBehind_of_lost hlist⟩
      | ok commands =>
          cases hcommand : (index + 1).of? commands with
          | some command => exact ⟨true, hasCommandBehind_of_command hlist hnext hcommand⟩
          | none =>
              have hframe : position.frames[depth]? = some position.frames[depth] :=
                List.getElem?_eq_getElem hdepth
              rw [hasCommandBehind_succ hframe hlist hnext hcommand]
              rw [List.take_add_one, hframe] at hlist
              exact ih (Nat.le_of_succ_le hdepth) (Position.hasNext_owner hlist)

variable {state : State}

/-- The question can be answered wherever the place has a next index. -/
theorem exists_hasFollowingContent (project : Project) (hnext : state.position.command.HasNext) :
    ∃ answer, state.hasFollowingContent project = .ok answer := by
  unfold hasFollowingContent
  split
  · exact ⟨false, rfl⟩
  · exact exists_hasCommandBehind (Nat.le_refl _) hnext

/-- The question only fails behind the last index of a list that is found. -/
theorem hasFollowingContent_eq_error :
    state.hasFollowingContent project = .error fault ↔
      (state.finished = false ∧ (∃ commands, project.resolve state.position = .ok commands) ∧
        ¬state.position.command.HasNext) ∧ fault = .overflow := by
  have hwhole : state.position.frames.take state.position.frames.length = state.position.frames :=
    List.take_length
  constructor
  · intro h
    have hlast : ¬state.position.command.HasNext := by
      intro hnext
      obtain ⟨answer, hanswer⟩ := exists_hasFollowingContent project hnext
      cases hanswer.symm.trans h
    unfold hasFollowingContent at h
    split at h
    · cases h
    · next hfinished =>
        cases hlist : project.resolve state.position with
        | error cause =>
            rw [Project.resolve, ← hwhole] at hlist
            cases (hasCommandBehind_of_lost hlist).symm.trans h
        | ok commands =>
            refine ⟨⟨by simpa using hfinished, ⟨commands, rfl⟩, hlast⟩, ?_⟩
            rw [Project.resolve, ← hwhole] at hlist
            cases (hasCommandBehind_of_last hlist hlast).symm.trans h
            rfl
  · rintro ⟨⟨hfinished, ⟨commands, hlist⟩, hlast⟩, rfl⟩
    rw [Project.resolve, ← hwhole] at hlist
    unfold hasFollowingContent
    rw [if_neg (by simp [hfinished])]
    exact hasCommandBehind_of_last hlist hlast

end SceneScript.State
