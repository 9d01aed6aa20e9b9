import Mathlib.Logic.Relation
import SceneScript.Proofs.Sequence
import SceneScript.Proofs.Script.Nesting

/-! # Searching the calls between groups

The search of a group succeeds exactly when all calls that lead on from it find their groups and none
of them leads back.
-/

namespace SceneScript

theorem Command.mem_listCalls {id : String} {commands : List Command} :
    id ∈ listCalls commands ↔
      ∃ command ∈ listSubcommands commands, command.action = .call id := by
  rw [listCalls, List.mem_filterMap]
  refine exists_congr fun command => and_congr_right fun _ => ?_
  unfold callee?
  cases command.action <;> simp

theorem Command.mem_listCalls_of_mem {command : Command} {commands : List Command} {id : String}
    (hcommand : command ∈ commands) (haction : command.action = .call id) :
    id ∈ listCalls commands :=
  mem_listCalls.mpr ⟨command, mem_listSubcommands_of_mem hcommand, haction⟩

/-- What is called in a branch is called in the list around it. -/
theorem Command.listCalls_body_subset {command : Command} {commands : List Command}
    {branch : Branch Command} (hcommand : command ∈ commands) (hbranch : branch ∈ command.branches) :
    listCalls branch.body ⊆ listCalls commands := by
  intro id hid
  obtain ⟨inner, hinner, haction⟩ := mem_listCalls.mp hid
  exact mem_listCalls.mpr ⟨inner, listSubcommands_body_subset hcommand hbranch hinner, haction⟩

namespace Project

variable {project : Project}

/-- A search asks of a group only which groups it calls. -/
theorem follow_congr {other : Project}
    (h : ∀ id, (other.findGroup? id).map (fun group => Command.listCalls group.commands) =
      (project.findGroup? id).map fun group => Command.listCalls group.commands)
    (chain ids cleared : List String) :
    other.follow chain ids cleared = project.follow chain ids cleared := by
  fun_induction project.follow chain ids cleared with
  | case1 chain cleared => rw [follow]
  | case2 chain cleared id rest hchain => rw [follow, dif_pos hchain]
  | case3 chain cleared id rest hchain hcleared ih => rw [follow, dif_neg hchain, if_pos hcleared, ih]
  | case4 chain cleared id rest hchain hcleared hnone =>
      have hother := h id
      rw [follow, dif_neg hchain, if_neg hcleared]
      split
      · rfl
      · next found hfound => simp [hfound, hnone] at hother
  | case5 chain cleared id rest hchain hcleared group hgroup inner hinner ihinner ih =>
      have hother := h id
      rw [follow, dif_neg hchain, if_neg hcleared]
      split
      · next hfound => simp [hfound, hgroup] at hother
      · next found hfound =>
          have hcalls : Command.listCalls found.commands = Command.listCalls group.commands := by
            simpa [hfound, hgroup] using hother
          rw [hcalls, ihinner, hinner]
          exact ih
  | case6 chain cleared id rest hchain hcleared group hgroup fault hinner ih =>
      have hother := h id
      rw [follow, dif_neg hchain, if_neg hcleared]
      split
      · next hfound => simp [hfound, hgroup] at hother
      · next found hfound =>
          have hcalls : Command.listCalls found.commands = Command.listCalls group.commands := by
            simpa [hfound, hgroup] using hother
          rw [hcalls, ih, hinner]

/-! ## Calls as a relation -/

/-- A group calls those that its commands call, at any depth. -/
def Calls (project : Project) (id callee : String) : Prop :=
  ∃ group, project.findGroup? id = some group ∧ callee ∈ Command.listCalls group.commands

/-- A callee leads back neither to its caller nor to where its caller does not lead back, unless the
caller leads back to itself. -/
theorem not_reaches_of_calls {id called : String} {chain : List String}
    (hid : ¬ Relation.TransGen project.Calls id id) (hcall : project.Calls id called)
    (hchain : ∀ caller ∈ chain, ¬ Relation.ReflTransGen project.Calls id caller) :
    ∀ caller ∈ chain ++ [id], ¬ Relation.ReflTransGen project.Calls called caller := by
  intro caller hcaller hreach
  rcases List.mem_append.mp hcaller with hcaller | hcaller
  · exact hchain caller hcaller (hreach.head hcall)
  · rw [List.mem_singleton.mp hcaller] at hreach
    exact hid (.head' hcall hreach)

/-- Wherever calls lead from here, they find a group that does not lead back to itself. -/
def Callable (project : Project) (id : String) : Prop :=
  ∀ reached, Relation.ReflTransGen project.Calls id reached →
    (project.findGroup? reached).isSome ∧ ¬ Relation.TransGen project.Calls reached reached

namespace Callable

variable {id : String}

theorem exists_findGroup? (h : project.Callable id) :
    ∃ group, project.findGroup? id = some group :=
  Option.isSome_iff_exists.mp (h id .refl).1

theorem not_calls_back (h : project.Callable id) : ¬ Relation.TransGen project.Calls id id :=
  (h id .refl).2

theorem callee {called : String} (h : project.Callable id) (hcall : project.Calls id called) :
    project.Callable called :=
  fun reached hreach => h reached (hreach.head hcall)

theorem not_reaches_of_calls {called : String} {chain : List String} (h : project.Callable id)
    (hcall : project.Calls id called)
    (hchain : ∀ caller ∈ chain, ¬ Relation.ReflTransGen project.Calls id caller) :
    ∀ caller ∈ chain ++ [id], ¬ Relation.ReflTransGen project.Calls called caller :=
  Project.not_reaches_of_calls h.not_calls_back hcall hchain

end Callable

/-! ## What a search has seen -/

/-- Groups that have been searched to the end, without meeting the groups of the chain. -/
structure Searched (project : Project) (chain cleared : List String) : Prop where
  found : ∀ id ∈ cleared, (project.findGroup? id).isSome
  closed : ∀ id ∈ cleared, ∀ callee, project.Calls id callee → callee ∈ cleared
  acyclic : ∀ id ∈ cleared, ¬ Relation.TransGen project.Calls id id
  apart : ∀ id ∈ chain, id ∉ cleared

namespace Searched

variable {chain ids cleared later : List String} {id reached : String} {group : CommandGroup}

theorem mem_of_reaches (h : project.Searched chain cleared) (hid : id ∈ cleared)
    (hreach : Relation.ReflTransGen project.Calls id reached) : reached ∈ cleared := by
  induction hreach with
  | refl => exact hid
  | tail _ hcall ih => exact h.closed _ ih _ hcall

/-- Once its calls have been searched, without meeting the group, so has the group. -/
theorem cons (h : project.Searched (chain ++ [id]) cleared) (hchain : id ∉ chain)
    (hgroup : project.findGroup? id = some group)
    (hcalls : Command.listCalls group.commands ⊆ cleared) :
    project.Searched chain (id :: cleared) := by
  have hcallee : ∀ callee, project.Calls id callee → callee ∈ cleared := by
    rintro callee ⟨found, hfound, hmem⟩
    rw [hgroup] at hfound
    cases hfound
    exact hcalls hmem
  have hid : id ∉ cleared := h.apart id (by simp)
  constructor
  case found => exact List.forall_mem_cons.mpr ⟨by rw [hgroup]; rfl, h.found⟩
  case closed =>
    refine List.forall_mem_cons.mpr ⟨fun callee hcall => ?_, fun other hother callee hcall => ?_⟩
    · exact List.mem_cons_of_mem _ (hcallee callee hcall)
    · exact List.mem_cons_of_mem _ (h.closed other hother callee hcall)
  case acyclic =>
    refine List.forall_mem_cons.mpr ⟨fun hcycle => ?_, h.acyclic⟩
    obtain ⟨callee, hcall, hback⟩ := Relation.TransGen.head'_iff.mp hcycle
    exact hid (h.mem_of_reaches (hcallee callee hcall) hback)
  case apart =>
    intro other hother hmem
    rcases List.mem_cons.mp hmem with rfl | hmem
    · exact hchain hother
    · exact h.apart other (List.mem_append_left _ hother) hmem

/-- A search that succeeds has seen all groups that it was asked for. -/
theorem follow (h : project.Searched chain cleared)
    (hfollow : project.follow chain ids cleared = .ok later) :
    project.Searched chain later ∧ cleared ⊆ later ∧ ids ⊆ later := by
  fun_induction project.follow chain ids cleared generalizing later with
  | case1 chain cleared =>
      cases hfollow
      exact ⟨h, List.Subset.refl _, List.nil_subset _⟩
  | case2 => cases hfollow
  | case3 chain cleared id rest _ hcleared ih =>
      obtain ⟨hlater, hkept, hrest⟩ := ih h hfollow
      exact ⟨hlater, hkept, List.cons_subset.mpr ⟨hkept (by simpa using hcleared), hrest⟩⟩
  | case4 => cases hfollow
  | case5 chain cleared id rest hchain hcleared group hgroup inner hinner ihinner ih =>
      have hapart : project.Searched (chain ++ [id]) cleared := by
        refine ⟨h.found, h.closed, h.acyclic, fun other hother => ?_⟩
        rcases List.mem_append.mp hother with hother | hother
        · exact h.apart other hother
        · rw [List.mem_singleton.mp hother]
          simpa using hcleared
      obtain ⟨hsearched, hkept, hcalls⟩ := ihinner hapart hinner
      have hcons := hsearched.cons (by simpa using hchain) hgroup hcalls
      obtain ⟨hlater, hstill, hrest⟩ := ih hcons hfollow
      obtain ⟨hid, hinside⟩ := List.cons_subset.mp hstill
      exact ⟨hlater, List.Subset.trans hkept hinside, List.cons_subset.mpr ⟨hid, hrest⟩⟩
  | case6 => cases hfollow

end Searched

/-! ## When a search succeeds -/

/-- A search succeeds from groups that can be called and do not lead back to the chain. -/
theorem exists_follow {chain ids cleared : List String}
    (hids : ∀ id ∈ ids, project.Callable id)
    (hchain : ∀ id ∈ ids, ∀ caller ∈ chain, ¬ Relation.ReflTransGen project.Calls id caller) :
    ∃ later, project.follow chain ids cleared = .ok later := by
  fun_induction project.follow chain ids cleared with
  | case1 chain cleared => exact ⟨cleared, rfl⟩
  | case2 chain cleared id rest hmem =>
      exact absurd .refl (hchain id List.mem_cons_self id (by simpa using hmem))
  | case3 chain cleared id rest _ _ ih =>
      exact ih (List.forall_mem_cons.mp hids).2 (List.forall_mem_cons.mp hchain).2
  | case4 chain cleared id rest _ _ hnone =>
      obtain ⟨group, hgroup⟩ := (hids id List.mem_cons_self).exists_findGroup?
      rw [hnone] at hgroup
      cases hgroup
  | case5 chain cleared id rest _ _ group _ inner _ _ ih =>
      exact ih (List.forall_mem_cons.mp hids).2 (List.forall_mem_cons.mp hchain).2
  | case6 chain cleared id rest _ _ group hgroup fault hinner ih =>
      have hcallable := hids id List.mem_cons_self
      have hcalls : ∀ callee ∈ Command.listCalls group.commands, project.Calls id callee :=
        fun callee hcallee => ⟨group, hgroup, hcallee⟩
      have hback : ∀ callee ∈ Command.listCalls group.commands, ∀ caller ∈ chain ++ [id],
          ¬ Relation.ReflTransGen project.Calls callee caller := fun callee hcallee =>
        hcallable.not_reaches_of_calls (hcalls callee hcallee) (hchain id List.mem_cons_self)
      obtain ⟨later, hlater⟩ :=
        ih (fun callee hcallee => hcallable.callee (hcalls callee hcallee)) hback
      rw [hinner] at hlater
      cases hlater

theorem checkGroup_eq_ok {id : String} :
    project.checkGroup id = .ok () ↔ project.Callable id := by
  rw [checkGroup, map_eq_ok]
  constructor
  · rintro ⟨later, hfollow, -⟩
    have hnone : project.Searched [] [] := ⟨by simp, by simp, by simp, by simp⟩
    obtain ⟨hsearched, -, hid⟩ := hnone.follow hfollow
    intro reached hreach
    have hmem := hsearched.mem_of_reaches (hid List.mem_cons_self) hreach
    exact ⟨hsearched.found _ hmem, hsearched.acyclic _ hmem⟩
  · intro h
    have hsearch : ∃ later, project.follow [] [id] [] = .ok later :=
      exists_follow (by simpa using h) (by simp)
    obtain ⟨later, hfollow⟩ := hsearch
    exact ⟨later, hfollow, rfl⟩

/-- The search of a group begins by finding it. -/
theorem exists_findGroup?_of_checkGroup {id : String} (h : project.checkGroup id = .ok ()) :
    ∃ group, project.findGroup? id = some group :=
  (checkGroup_eq_ok.mp h).exists_findGroup?

end Project
end SceneScript
