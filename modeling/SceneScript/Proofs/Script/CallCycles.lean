import Mathlib.Data.List.Chain
import SceneScript.Proofs.Script.CallGraph

/-! # What a search that fails has found

A search ends, whatever the groups call: it never stands behind more calls than there are groups. If
it fails, it has met a call that finds no group, or calls that lead in a circle.
-/

namespace SceneScript.Project

variable {project : Project} {root id : String} {chain ids cleared : List String}

/-! ## Circles of calls -/

/-- Each group of the chain calls the next, and the last call leads back to the first group; no other
group stands there twice. -/
structure Circle (project : Project) (id : String) (chain : List String) : Prop where
  closes : ∃ between, chain = id :: between ++ [id]
  nodup : chain.dropLast.Nodup
  calls : chain.IsChain project.Calls

/-- The calls that a search stands behind, from its root on. -/
structure Trail (project : Project) (root : String) (chain : List String) : Prop where
  nodup : chain.Nodup
  calls : chain.IsChain project.Calls
  reached : ∀ id ∈ chain, Relation.ReflTransGen project.Calls root id

/-- A group that the last one of the chain calls, or the root of the search. -/
structure Ahead (project : Project) (root : String) (chain : List String) (id : String) : Prop where
  called : ∀ last ∈ chain.getLast?, project.Calls last id
  reached : Relation.ReflTransGen project.Calls root id

namespace Trail

theorem concat (h : project.Trail root chain) (hahead : project.Ahead root chain id)
    (hid : id ∉ chain) : project.Trail root (chain ++ [id]) := by
  constructor
  case nodup =>
    refine List.nodup_append.mpr ⟨h.nodup, by simp, fun member hmember other hother => ?_⟩
    rw [List.mem_singleton.mp hother]
    exact ne_of_mem_of_not_mem hmember hid
  case calls => exact List.isChain_append.mpr ⟨h.calls, by simp, by simpa using hahead.called⟩
  case reached =>
    intro member hmember
    rcases List.mem_append.mp hmember with hmember | hmember
    · exact h.reached member hmember
    · rw [List.mem_singleton.mp hmember]
      exact hahead.reached

/-- A call back to the chain closes a circle there. -/
theorem circle (h : project.Trail root chain) (hahead : project.Ahead root chain id)
    (hid : id ∈ chain) :
    project.Circle id (chain.dropWhile (· != id) ++ [id]) ∧
      ∀ member ∈ chain.dropWhile (· != id) ++ [id],
        Relation.ReflTransGen project.Calls root member := by
  obtain ⟨before, between, rfl, hbefore⟩ := List.eq_append_cons_of_mem hid
  have hother : ∀ other ∈ before, (other != id) = true := fun other hother =>
    bne_iff_ne.mpr (ne_of_mem_of_not_mem hother hbefore)
  have hskip : (before ++ id :: between).dropWhile (· != id) = id :: between := by
    rw [List.dropWhile_append_of_pos hother]
    simp
  have hback : ∀ last ∈ (id :: between).getLast?, project.Calls last id := by
    intro last hlast
    exact hahead.called last (by rw [List.getLast?_append_of_ne_nil _ (by simp)]; exact hlast)
  have hcalls : (id :: between).IsChain project.Calls := (List.isChain_append.mp h.calls).2.1
  rw [hskip]
  refine ⟨⟨⟨between, rfl⟩, ?_, ?_⟩, fun member hmember => ?_⟩
  · rw [List.dropLast_concat]
    exact (List.nodup_append.mp h.nodup).2.1
  · exact List.isChain_append.mpr ⟨hcalls, by simp, by simpa using hback⟩
  · rcases List.mem_append.mp hmember with hmember | hmember
    · exact h.reached member (List.mem_append_right _ hmember)
    · rw [List.mem_singleton.mp hmember]
      exact hahead.reached

end Trail

/-! ## What stops a search -/

/-- The two findings of a search from the root. -/
inductive Stops (project : Project) (root : String) : Fault → Prop where
  | missing {id : String} (hreach : Relation.ReflTransGen project.Calls root id)
      (hmissing : project.findGroup? id = none) : Stops project root (.missingGroup id)
  | circle {id : String} {chain : List String} (hcircle : project.Circle id chain)
      (hreach : ∀ member ∈ chain, Relation.ReflTransGen project.Calls root member) :
      Stops project root (.cyclicGroup id chain)

theorem stops_of_follow {fault : Fault} (htrail : project.Trail root chain)
    (hids : ∀ id ∈ ids, project.Ahead root chain id)
    (h : project.follow chain ids cleared = .error fault) : project.Stops root fault := by
  fun_induction project.follow chain ids cleared generalizing fault with
  | case1 => cases h
  | case2 chain cleared id rest hchain =>
      cases h
      obtain ⟨hcircle, hreach⟩ :=
        htrail.circle (hids id List.mem_cons_self) (by simpa using hchain)
      exact .circle hcircle hreach
  | case3 chain cleared id rest _ _ ih => exact ih htrail (List.forall_mem_cons.mp hids).2 h
  | case4 chain cleared id rest _ _ hmissing =>
      cases h
      exact .missing (hids id List.mem_cons_self).reached hmissing
  | case5 chain cleared id rest _ _ group _ inner _ _ ih =>
      exact ih htrail (List.forall_mem_cons.mp hids).2 h
  | case6 chain cleared id rest hchain _ group hgroup cause hinner ih =>
      cases h
      have hahead := hids id List.mem_cons_self
      refine ih (htrail.concat hahead (by simpa using hchain)) (fun callee hcallee => ?_) hinner
      have hcall : project.Calls id callee := ⟨group, hgroup, hcallee⟩
      exact ⟨by simpa using hcall, hahead.reached.tail hcall⟩

theorem stops_of_checkGroup {fault : Fault} (h : project.checkGroup root = .error fault) :
    project.Stops root fault := by
  have hfollow : project.follow [] [root] [] = .error fault := map_eq_error.mp h
  have htrail : project.Trail root [] := ⟨List.nodup_nil, .nil, by simp⟩
  have hahead : project.Ahead root [] root := ⟨by simp, .refl⟩
  exact stops_of_follow htrail (by simpa using hahead) hfollow

/-! ## How deep a search goes -/

/-- The search, unless it would have to go through more than `depth` groups one inside the other. -/
def followWithin (project : Project) (depth : Nat) (chain ids cleared : List String) :
    Option (Except Fault (List String)) :=
  match ids with
  | [] => some (.ok cleared)
  | id :: rest =>
    if chain.contains id then
      some (.error (.cyclicGroup id (chain.dropWhile (· != id) ++ [id])))
    else if cleared.contains id then followWithin project depth chain rest cleared
    else
      match project.findGroup? id with
      | none => some (.error (.missingGroup id))
      | some group =>
        match depth with
        | 0 => none
        | depth + 1 =>
          match followWithin project depth (chain ++ [id]) (Command.listCalls group.commands)
              cleared with
          | some (.ok cleared) => followWithin project (depth + 1) chain rest (id :: cleared)
          | outcome => outcome
termination_by (depth, ids.length)

def checkGroupWithin (project : Project) (depth : Nat) (id : String) : Option (Except Fault Unit) :=
  (project.followWithin depth [] [id] []).map fun outcome => outcome.map fun _ => ()

/-- A chain holds no group twice, so the groups that are not on it bound what is ahead. -/
theorem followWithin_eq {depth : Nat} (h : (project.offChain chain).length ≤ depth) :
    project.followWithin depth chain ids cleared = some (project.follow chain ids cleared) := by
  fun_induction project.follow chain ids cleared generalizing depth with
  | case1 chain cleared => rw [followWithin]
  | case2 chain cleared id rest hchain => rw [followWithin, if_pos hchain]
  | case3 chain cleared id rest hchain hcleared ih =>
      rw [followWithin, if_neg hchain, if_pos hcleared, ih h]
  | case4 chain cleared id rest hchain hcleared hmissing =>
      rw [followWithin, if_neg hchain, if_neg hcleared, hmissing]
  | case5 chain cleared id rest hchain hcleared group hgroup inner hinner ihinner ih =>
      have hfewer := offChain_append_lt hgroup (by simpa using hchain)
      obtain ⟨depth, rfl⟩ : ∃ deeper, depth = deeper + 1 := Nat.exists_eq_add_one.mpr (by omega)
      rw [followWithin, if_neg hchain, if_neg hcleared, hgroup]
      simp only [ihinner (Nat.le_of_lt_succ (hfewer.trans_le h)), hinner]
      exact ih h
  | case6 chain cleared id rest hchain hcleared group hgroup fault hinner ih =>
      have hfewer := offChain_append_lt hgroup (by simpa using hchain)
      obtain ⟨depth, rfl⟩ : ∃ deeper, depth = deeper + 1 := Nat.exists_eq_add_one.mpr (by omega)
      rw [followWithin, if_neg hchain, if_neg hcleared, hgroup]
      simp only [ih (Nat.le_of_lt_succ (hfewer.trans_le h)), hinner]

theorem checkGroupWithin_eq (project : Project) (root : String) :
    project.checkGroupWithin project.sharedCommands.length root = some (project.checkGroup root) := by
  have hdepth : (project.offChain []).length ≤ project.sharedCommands.length := by simp [offChain]
  rw [checkGroupWithin, followWithin_eq hdepth]
  rfl

/-! ## The check of a group -/

/-- The check of a group succeeds exactly if all calls from there find their groups and none leads
in a circle. What it reports otherwise is there, and it never stands behind more calls than there
are groups. -/
theorem checkGroup_decides (project : Project) (root : String) :
    (project.checkGroup root = .ok () ↔ project.Callable root) ∧
      (∀ fault, project.checkGroup root = .error fault → project.Stops root fault) ∧
      project.checkGroupWithin project.sharedCommands.length root =
        some (project.checkGroup root) :=
  ⟨checkGroup_eq_ok, fun _ => stops_of_checkGroup, checkGroupWithin_eq project root⟩

/-- A song whose refrain, in a branch of the verse, leads to a coda and from there back. The second
coda is never found. -/
def roundelay : Project where
  sharedCommands := [
    { id := "verse", commands := [⟨"1", .call "bridge"⟩,
        ⟨"2", .branching "" [.otherwise [⟨"3", .call "refrain"⟩]]⟩] },
    { id := "refrain", commands := [⟨"4", .call "bridge"⟩, ⟨"5", .call "coda"⟩] },
    { id := "bridge", commands := [] },
    { id := "coda", commands := [⟨"6", .call "refrain"⟩] },
    { id := "coda", commands := [⟨"7", .call "encore"⟩] }]

theorem checkGroup_roundelay :
    roundelay.checkGroup "verse" = .error (.cyclicGroup "refrain" ["refrain", "coda", "refrain"]) := by
  cbv

theorem stops_roundelay :
    roundelay.checkGroup "verse" = .error (.cyclicGroup "refrain" ["refrain", "coda", "refrain"]) ∧
      roundelay.Stops "verse" (.cyclicGroup "refrain" ["refrain", "coda", "refrain"]) :=
  ⟨checkGroup_roundelay, (checkGroup_decides roundelay "verse").2.1 _ checkGroup_roundelay⟩

end SceneScript.Project
