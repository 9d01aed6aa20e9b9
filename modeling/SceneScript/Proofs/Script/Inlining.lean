import SceneScript.Proofs.Script.Rewriting

/-! # Groups in the place of their calls

A group that passes its check stands for a list of commands without calls. The list does not depend
on the calls that have led to the group.
-/

namespace SceneScript

/-- A call gives way to what its group stands for. Any other command stays, and so does a call of a
group that stands for nothing. -/
def Command.splice (body : String → Option (List Command)) (command : Command) : List Command :=
  match command.callee? with
  | some id => (body id).getD [command]
  | none => [command]

namespace Project

/-- The commands of a group, with all groups that they call in place. The group stands for nothing
if there is no such group, or if the calls of `chain` have come from there. -/
def expansion (project : Project) (chain : List String) (id : String) : Option (List Command) :=
  if _hchain : chain.contains id then none
  else
    match _hfound : project.findGroup? id with
    | none => none
    | some group => some (Command.listRewrite
        (Command.splice fun callee => project.expansion (chain ++ [id]) callee) group.commands)
termination_by (project.offChain chain).length
decreasing_by exact offChain_append_lt _hfound (by simpa using _hchain)

/-- The commands, with all groups that they call in place, those in their branches included. -/
def inline (project : Project) (commands : List Command) : List Command :=
  Command.listRewrite (Command.splice (project.expansion [])) commands

/-- The project whose scenes make no calls. -/
def inlined (project : Project) : Project :=
  { project with
    scenes := project.scenes.map (Scene.rewrite (Command.splice (project.expansion []))) }

end Project

/-! ## What a group stands for -/

namespace Command

variable {body other : String → Option (List Command)} {command : Command} {id : String}

theorem splice_call (haction : command.action = .call id) :
    command.splice body = (body id).getD [command] := by
  simp [splice, callee?, haction]

theorem splice_of_ne_call (haction : ∀ id, command.action ≠ .call id) :
    command.splice body = [command] := by
  obtain ⟨name, action⟩ := command
  cases action with
  | call id => exact absurd rfl (haction id)
  | _ => rfl

/-- Only what the called groups stand for matters. -/
theorem listRewrite_splice_congr {commands : List Command}
    (h : ∀ id ∈ listCalls commands, body id = other id) :
    listRewrite (splice body) commands = listRewrite (splice other) commands := by
  refine listRewrite_congr fun command hcommand => ?_
  by_cases hcall : ∃ id, command.action = .call id
  · obtain ⟨id, haction⟩ := hcall
    have hid : id ∈ listCalls commands := mem_listCalls.mpr ⟨command, hcommand, haction⟩
    rw [splice_call haction, splice_call haction, h id hid]
  · have hnone : ∀ id, command.action ≠ .call id := fun id haction => hcall ⟨id, haction⟩
    rw [splice_of_ne_call hnone, splice_of_ne_call hnone]

/-- Where each called group stands for commands without calls, none are left. -/
theorem listCalls_listRewrite_splice {commands : List Command}
    (h : ∀ id ∈ listCalls commands, ∃ list, body id = some list ∧ listCalls list = []) :
    listCalls (listRewrite (splice body) commands) = [] := by
  rw [listCalls_listRewrite, List.flatMap_eq_nil_iff]
  intro command hcommand
  unfold leafCalls
  split
  · rfl
  · next hleaf =>
      by_cases hcall : ∃ id, command.action = .call id
      · obtain ⟨id, haction⟩ := hcall
        obtain ⟨list, hlist, hnone⟩ := h id (mem_listCalls.mpr ⟨command, hcommand, haction⟩)
        rw [splice_call haction, hlist, Option.getD_some, hnone]
      · rw [splice_of_ne_call fun id haction => hcall ⟨id, haction⟩]
        obtain ⟨name, action⟩ := command
        cases action with
        | call id => exact absurd ⟨id, rfl⟩ hcall
        | branching label branches => exact absurd rfl (hleaf label branches)
        | _ => rfl

end Command

namespace Project

variable {project : Project} {chain other : List String} {id : String} {group : CommandGroup}

theorem expansion_of_findGroup? (hchain : id ∉ chain) (hgroup : project.findGroup? id = some group) :
    project.expansion chain id = some (Command.listRewrite
      (Command.splice (project.expansion (chain ++ [id]))) group.commands) := by
  rw [expansion, dif_neg (by simpa using hchain)]
  split
  · next hnone =>
      rw [hgroup] at hnone
      cases hnone
  · next found hfound =>
      rw [hgroup] at hfound
      cases hfound
      rfl

/-- A group that can be called stands for commands without calls. -/
theorem exists_expansion (hid : project.Callable id)
    (hchain : ∀ caller ∈ chain, ¬ Relation.ReflTransGen project.Calls id caller) :
    ∃ list, project.expansion chain id = some list ∧ Command.listCalls list = [] := by
  fun_induction project.expansion chain id with
  | case1 chain id hmem => exact absurd .refl (hchain id (by simpa using hmem))
  | case2 chain id _ hnone =>
      obtain ⟨group, hgroup⟩ := hid.exists_findGroup?
      rw [hnone] at hgroup
      cases hgroup
  | case3 chain id _ group hgroup ih =>
      refine ⟨_, rfl, Command.listCalls_listRewrite_splice fun callee hcallee => ?_⟩
      have hcall : project.Calls id callee := ⟨group, hgroup, hcallee⟩
      exact ih callee (hid.callee hcall) (hid.not_reaches_of_calls hcall hchain)

/-- The calls that have led to a group leave no trace, as long as it does not lead back to them. -/
theorem expansion_congr (hid : project.Callable id)
    (hchain : ∀ caller ∈ chain, ¬ Relation.ReflTransGen project.Calls id caller)
    (hother : ∀ caller ∈ other, ¬ Relation.ReflTransGen project.Calls id caller) :
    project.expansion chain id = project.expansion other id := by
  fun_induction project.expansion chain id generalizing other with
  | case1 chain id hmem => exact absurd .refl (hchain id (by simpa using hmem))
  | case2 chain id _ hnone =>
      obtain ⟨group, hgroup⟩ := hid.exists_findGroup?
      rw [hnone] at hgroup
      cases hgroup
  | case3 chain id _ group hgroup ih =>
      have hapart : id ∉ other := fun hmem => hother id hmem .refl
      rw [expansion_of_findGroup? hapart hgroup]
      refine congrArg some (Command.listRewrite_splice_congr fun callee hcallee => ?_)
      have hcall : project.Calls id callee := ⟨group, hgroup, hcallee⟩
      exact ih callee (hid.callee hcall) (hid.not_reaches_of_calls hcall hchain)
        (hid.not_reaches_of_calls hcall hother)

/-- A group that can be called stands for its commands, with the groups that they call in place. -/
theorem expansion_nil (hid : project.Callable id) (hgroup : project.findGroup? id = some group) :
    project.expansion [] id = some (project.inline group.commands) := by
  rw [expansion_of_findGroup? (List.not_mem_nil) hgroup]
  refine congrArg some (Command.listRewrite_splice_congr fun callee hcallee => ?_)
  have hcall : project.Calls id callee := ⟨group, hgroup, hcallee⟩
  exact expansion_congr (hid.callee hcall) (hid.not_reaches_of_calls hcall (by simp)) (by simp)

end Project

/-! ## Lists of commands -/

/-- An action other than a call, with the groups that its branches call in place. -/
def Action.inlined (project : Project) : Action Command → Action Command
  | .branching label branches => .branching label
      (branches.map (Branch.rewrite (Command.splice (project.expansion []))))
  | action => action

namespace Project

variable {project : Project} {command : Command} {commands : List Command} {id : String}
  {group : CommandGroup}

theorem inline_cons_call (hid : project.Callable id) (hgroup : project.findGroup? id = some group)
    (haction : command.action = .call id) :
    project.inline (command :: commands) =
      project.inline group.commands ++ project.inline commands := by
  have hleaf : ∀ label branches, command.action ≠ .branching label branches := by
    rw [haction]
    exact nofun
  have hcommand : command.rewrite (Command.splice (project.expansion [])) =
      project.inline group.commands := by
    rw [Command.rewrite_leaf hleaf, Command.splice_call haction, expansion_nil hid hgroup,
      Option.getD_some]
  rw [inline, Command.listRewrite, hcommand, inline, inline]

theorem inline_cons_of_ne_call (haction : ∀ id, command.action ≠ .call id) :
    project.inline (command :: commands) =
      { command with action := command.action.inlined project } :: project.inline commands := by
  have hcommand : command.rewrite (Command.splice (project.expansion [])) =
      [{ command with action := command.action.inlined project }] := by
    obtain ⟨name, action⟩ := command
    cases action with
    | branching label branches => exact Command.rewrite_branching rfl
    | call id => exact absurd rfl (haction id)
    | _ => rfl
  rw [inline, Command.listRewrite, hcommand]
  rfl

/-- No call is left where all groups that are called can be called. -/
theorem listCalls_inline (h : ∀ id ∈ Command.listCalls commands, project.Callable id) :
    Command.listCalls (project.inline commands) = [] :=
  Command.listCalls_listRewrite_splice fun id hid => exists_expansion (h id hid) (by simp)

end Project
end SceneScript
