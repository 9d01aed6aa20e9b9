import SceneScript.Proofs.Lint.Nesting
import SceneScript.Proofs.Script.CallCycles

/-! # Circles that a review reports

A review searches the calls from every group and reports the circles that its searches end at, each
set of groups once. A search ends at the first thing it meets, so a circle may be hidden behind
another one or behind a missing group; but some error is reported for every circle.
-/

namespace SceneScript

/-- The circle that a finding reports. -/
def Finding.circle? (finding : Finding) : Option (List String) :=
  match finding.remark with
  | .fault (.cyclicGroup _ chain) => some chain
  | _ => none

/-- The chains of the circles that a review reports. -/
def Project.reportedCircles (project : Project) : List (List String) :=
  project.review.filterMap Finding.circle?

namespace Review

variable {project : Project} {place : Place} {index : Nat}

/-! ## Findings without circles -/

/-- None of the findings reports a circle. -/
def Plain (findings : List Finding) : Prop := ∀ finding ∈ findings, finding.circle? = none

theorem plain_nil : Plain [] := List.forall_mem_nil _

theorem plain_singleton {remark : Remark} (h : Finding.circle? ⟨place, remark⟩ = none) :
    Plain [⟨place, remark⟩] :=
  List.forall_mem_singleton.mpr h

theorem plain_ofCheck {α : Type} {result : Except Fault α}
    (h : ∀ id chain, result ≠ .error (.cyclicGroup id chain)) : Plain (ofCheck place result) := by
  cases result with
  | ok value => exact plain_nil
  | error fault =>
      apply plain_singleton
      cases fault with
      | cyclicGroup id chain => exact absurd rfl (h id chain)
      | _ => rfl

theorem plain_ofTarget (departure : Departure) (scene : Index) :
    Plain (ofTarget project place departure scene) := by
  unfold ofTarget
  split
  · exact plain_nil
  · exact plain_singleton rfl

theorem plain_ofFlag (name : String) : Plain (ofFlag project place name) := by
  unfold ofFlag
  split
  · exact plain_nil
  · exact plain_singleton rfl

theorem plain_ofVariable (name : String) : Plain (ofVariable project place name) := by
  unfold ofVariable
  split
  · exact plain_nil
  · exact plain_singleton rfl

theorem plain_flatten {lists : List (List Finding)} (h : ∀ findings ∈ lists, Plain findings) :
    Plain lists.flatten := by
  intro finding hfinding
  obtain ⟨findings, hfindings, hmem⟩ := List.mem_flatten.mp hfinding
  exact h findings hfindings finding hmem

theorem plain_append {findings more : List Finding} (h : Plain findings) (hmore : Plain more) :
    Plain (findings ++ more) :=
  List.forall_mem_append.mpr ⟨h, hmore⟩

theorem plain_ofChoice (choice : Choice) (index : Nat) :
    Plain (ofChoice project place choice index) := by
  refine plain_append ?_ ?_
  · split
    · exact plain_ofTarget _ _
    · exact plain_nil
  · split
    · exact plain_ofFlag _
    · exact plain_nil

theorem plain_ofAction (place : Place) (action : Action Command) :
    Plain (ofAction project place action) := by
  cases action with
  | dialogue speaker text choices =>
      refine plain_flatten fun findings hfindings => ?_
      obtain ⟨⟨choice, index⟩, -, rfl⟩ := List.mem_map.mp hfindings
      exact plain_ofChoice choice index
  | branching label branches =>
      refine plain_ofCheck fun id chain heq => ?_
      unfold Condition.checkStructure at heq
      cases hkinds : Condition.checkKinds ((branches.map (·.condition)).map (·.kind)) <;>
        rw [hkinds] at heq <;> cases heq
  | setFlag name value => exact plain_ofFlag name
  | setVariable name operation operand => exact plain_ofVariable name
  | call group =>
      refine plain_ofCheck fun id chain heq => ?_
      unfold Project.groupAt at heq
      split at heq <;> cases heq
  | goto scene withTransition => exact plain_ofTarget _ _
  | _ => exact plain_nil

theorem plain_ofCondition (place : Place) (condition : Condition) :
    Plain (ofCheck place (condition.evaluate (m := Id) project.declared)) := by
  refine plain_ofCheck fun id chain heq => ?_
  unfold Condition.evaluate at heq
  split at heq
  · cases heq
  · simp only [Condition.evaluateFlag, bind, pure] at heq
    split at heq
    · cases heq
    · split at heq
      · cases heq
      · split at heq <;> cases heq
  · simp only [Condition.evaluateVariable, bind, pure] at heq
    split at heq
    · cases heq
    · split at heq <;> cases heq

theorem plain_ofCommands (commands : List Command) :
    Plain (ofCommands project place index commands) :=
  forall_ofCommands fun command _ => forall_ofCommand plain_ofAction plain_ofCondition command

/-! ## Chains with the same members -/

theorem sameMembers_iff {chain other : List String} :
    sameMembers chain other = true ↔ ∀ id, id ∈ chain ↔ id ∈ other := by
  simp only [sameMembers, Bool.and_eq_true, List.all_eq_true, List.contains_iff_mem]
  exact ⟨fun h id => ⟨h.1 id, h.2 id⟩, fun h => ⟨fun id => (h id).mp, fun id => (h id).mpr⟩⟩

theorem any_sameMembers_iff {chain : List String} {reported : List (List String)} :
    reported.any (sameMembers chain) = true ↔
      ∃ other ∈ reported, ∀ id, id ∈ chain ↔ id ∈ other := by
  simp only [List.any_eq_true, sameMembers_iff]

/-! ## Reported circles -/

/-- What searches from groups have reported, and what they leave out because it has been reported
before. -/
structure Reports (project : Project) (reported : List (List String)) (groups : List CommandGroup)
    (findings : List Finding) : Prop where
  searched : ∀ finding ∈ findings, ∃ group ∈ groups, ∃ first chain,
    project.checkGroup group.id = .error (.cyclicGroup first chain) ∧
      finding = ⟨.group group.id, .fault (.cyclicGroup first chain)⟩
  covered : ∀ group ∈ groups, ∀ first chain,
    project.checkGroup group.id = .error (.cyclicGroup first chain) →
      ∃ other ∈ reported ++ findings.filterMap Finding.circle?, ∀ id, id ∈ chain ↔ id ∈ other
  distinct : (findings.filterMap Finding.circle?).Pairwise fun chain other =>
    ¬ ∀ id, id ∈ chain ↔ id ∈ other
  fresh : ∀ chain ∈ findings.filterMap Finding.circle?, ∀ other ∈ reported,
    ¬ ∀ id, id ∈ chain ↔ id ∈ other

namespace Reports

variable {reported : List (List String)} {group : CommandGroup} {groups : List CommandGroup}
  {findings : List Finding} {first : String} {chain : List String}

/-- A search that does not end at a circle reports nothing. -/
theorem skip (h : Reports project reported groups findings)
    (hnone : ∀ first chain, project.checkGroup group.id ≠ .error (.cyclicGroup first chain)) :
    Reports project reported (group :: groups) findings := by
  refine ⟨fun finding hfinding => ?_, ?_, h.distinct, h.fresh⟩
  · obtain ⟨other, hother, hcheck⟩ := h.searched finding hfinding
    exact ⟨other, List.mem_cons_of_mem _ hother, hcheck⟩
  · refine List.forall_mem_cons.mpr ⟨fun first chain hcheck => ?_, h.covered⟩
    exact absurd hcheck (hnone first chain)

/-- A circle of groups that has been reported is left out. -/
theorem repeated (h : Reports project reported groups findings)
    (hcheck : project.checkGroup group.id = .error (.cyclicGroup first chain))
    (hknown : ∃ other ∈ reported, ∀ id, id ∈ chain ↔ id ∈ other) :
    Reports project reported (group :: groups) findings := by
  refine ⟨fun finding hfinding => ?_, ?_, h.distinct, h.fresh⟩
  · obtain ⟨other, hother, hsearched⟩ := h.searched finding hfinding
    exact ⟨other, List.mem_cons_of_mem _ hother, hsearched⟩
  · refine List.forall_mem_cons.mpr ⟨fun first' chain' hcheck' => ?_, h.covered⟩
    cases hcheck.symm.trans hcheck'
    obtain ⟨other, hother, hsame⟩ := hknown
    exact ⟨other, List.mem_append_left _ hother, hsame⟩

/-- A new circle is reported. -/
theorem cons (h : Reports project (chain :: reported) groups findings)
    (hcheck : project.checkGroup group.id = .error (.cyclicGroup first chain))
    (hnew : ¬ ∃ other ∈ reported, ∀ id, id ∈ chain ↔ id ∈ other) :
    Reports project reported (group :: groups)
      (⟨.group group.id, .fault (.cyclicGroup first chain)⟩ :: findings) := by
  have hchains : (⟨.group group.id, .fault (.cyclicGroup first chain)⟩ ::
      findings : List Finding).filterMap Finding.circle? =
        chain :: findings.filterMap Finding.circle? := rfl
  refine ⟨?_, ?_, ?_, ?_⟩
  · refine List.forall_mem_cons.mpr ⟨?_, fun finding hfinding => ?_⟩
    · exact ⟨group, List.mem_cons_self, first, chain, hcheck, rfl⟩
    · obtain ⟨other, hother, hsearched⟩ := h.searched finding hfinding
      exact ⟨other, List.mem_cons_of_mem _ hother, hsearched⟩
  · rw [hchains]
    refine List.forall_mem_cons.mpr ⟨fun first' chain' hcheck' => ?_, ?_⟩
    · cases hcheck.symm.trans hcheck'
      exact ⟨chain, by simp, fun _ => Iff.rfl⟩
    · intro other hother first' chain' hcheck'
      obtain ⟨known, hknown, hsame⟩ := h.covered other hother first' chain' hcheck'
      refine ⟨known, ?_, hsame⟩
      simp only [List.mem_append, List.mem_cons] at hknown ⊢
      tauto
  · rw [hchains]
    refine List.pairwise_cons.mpr ⟨fun other hother hsame => ?_, h.distinct⟩
    exact h.fresh other hother chain List.mem_cons_self fun id => (hsame id).symm
  · rw [hchains]
    refine List.forall_mem_cons.mpr ⟨fun other hother hsame => hnew ⟨other, hother, hsame⟩, ?_⟩
    intro later hlater other hother
    exact h.fresh later hlater other (List.mem_cons_of_mem _ hother)

end Reports

theorem reports_ofCycles (project : Project) (reported : List (List String))
    (groups : List CommandGroup) :
    Reports project reported groups (ofCycles project reported groups) := by
  induction groups generalizing reported with
  | nil =>
      exact ⟨List.forall_mem_nil _, List.forall_mem_nil _, .nil, List.forall_mem_nil _⟩
  | cons group rest ih =>
      rw [ofCycles]
      split
      · next first chain hcheck =>
          by_cases hknown : reported.any (sameMembers chain) = true
          · rw [if_pos hknown]
            exact (ih reported).repeated hcheck (any_sameMembers_iff.mp hknown)
          · rw [if_neg hknown]
            exact (ih (chain :: reported)).cons hcheck (mt any_sameMembers_iff.mpr hknown)
      · next hnone => exact (ih reported).skip hnone

end Review

/-! ## Reviews -/

namespace Project

variable {project : Project} {id first : String} {chain : List String}

open Review in
/-- Only the searches from the groups report circles. -/
theorem exists_review_eq (project : Project) : ∃ findings, Plain findings ∧
    project.review = findings ++ ofCycles project [] project.sharedCommands := by
  have hnames (names : List String) (place : Place) (remark : String → Remark)
      (hremark : ∀ name, Finding.circle? ⟨place, remark name⟩ = none) :
      Plain (names.map fun name => ⟨place, remark name⟩) := by
    intro finding hfinding
    obtain ⟨name, -, rfl⟩ := List.mem_map.mp hfinding
    exact hremark name
  have hempty : Plain (if project.scenes.isEmpty then [⟨.project, .noScene⟩] else []) := by
    split
    · exact plain_singleton rfl
    · exact plain_nil
  have hscenes : Plain (project.scenes.zipIdx.map fun placed =>
      ofScene project placed.2 placed.1).flatten := by
    refine plain_flatten fun findings hfindings => ?_
    obtain ⟨⟨scene, index⟩, -, rfl⟩ := List.mem_map.mp hfindings
    refine plain_append ?_ (plain_ofCommands _)
    split
    · exact plain_singleton rfl
    · exact plain_nil
  have hgroups : Plain (project.sharedCommands.map fun group =>
      ofCommands project (.group group.id) 0 group.commands).flatten := by
    refine plain_flatten fun findings hfindings => ?_
    obtain ⟨group, -, rfl⟩ := List.mem_map.mp hfindings
    exact plain_ofCommands _
  have hflags := hnames (repeatedNames [] (project.flags.map (·.name))) .flags .repeatedFlag
    fun _ => rfl
  have hvars := hnames (repeatedNames [] (project.vars.map (·.name))) .vars .repeatedVariable
    fun _ => rfl
  exact ⟨_, plain_append (plain_append (plain_append (plain_append hflags hvars) hempty) hscenes)
    hgroups, rfl⟩

theorem reportedCircles_eq (project : Project) : project.reportedCircles =
    (Review.ofCycles project [] project.sharedCommands).filterMap Finding.circle? := by
  obtain ⟨findings, hplain, heq⟩ := project.exists_review_eq
  rw [reportedCircles, heq, List.filterMap_append, List.filterMap_eq_nil_iff.mpr hplain,
    List.nil_append]

/-- A group that is missing is reported where it is called. -/
theorem exists_missing_of_calls (hcalls : project.Calls first id)
    (hmissing : project.findGroup? id = none) :
    ∃ place, ⟨place, .fault (.missingGroup id)⟩ ∈ project.review := by
  obtain ⟨group, hgroup, hcallee⟩ := hcalls
  obtain ⟨command, hcommand, haction⟩ := Command.mem_listCalls.mp hcallee
  obtain ⟨place, hsubset⟩ :=
    Review.exists_ofSubcommand_subset project hcommand (.group group.id) 0
  have hfound : ⟨place, .fault (.missingGroup id)⟩ ∈ Review.ofCommand project place command := by
    rw [Review.ofCommand_eq, haction]
    simp [Review.ofAction, Review.ofCheck, groupAt, hmissing]
  refine ⟨place, ?_⟩
  simp only [review, List.mem_append]
  refine .inl (.inr (List.mem_flatten.mpr ⟨_, List.mem_map.mpr ⟨group, ?_, rfl⟩, hsubset hfound⟩))
  exact List.mem_of_find?_eq_some hgroup

/-- A circle is reported for a search that ends there. -/
theorem searched_of_review {place : Place}
    (h : ⟨place, .fault (.cyclicGroup first chain)⟩ ∈ project.review) :
    ∃ group ∈ project.sharedCommands, place = .group group.id ∧
      project.checkGroup group.id = .error (.cyclicGroup first chain) := by
  obtain ⟨findings, hplain, heq⟩ := project.exists_review_eq
  rw [heq] at h
  rcases List.mem_append.mp h with hfinding | hfinding
  · cases hplain _ hfinding
  · obtain ⟨group, hgroup, _, _, hcheck, hsame⟩ :=
      (Review.reports_ofCycles project [] project.sharedCommands).searched _ hfinding
    cases hsame
    exact ⟨group, hgroup, rfl, hcheck⟩

theorem exists_reported {group : CommandGroup} (hgroup : group ∈ project.sharedCommands)
    (hcheck : project.checkGroup group.id = .error (.cyclicGroup first chain)) :
    ∃ other ∈ project.reportedCircles, ∀ id, id ∈ chain ↔ id ∈ other := by
  rw [reportedCircles_eq]
  exact (Review.reports_ofCycles project [] project.sharedCommands).covered group hgroup first
    chain hcheck

theorem mem_reportedCircles_iff :
    (∃ chain ∈ project.reportedCircles, id ∈ chain) ↔
      ∃ group ∈ project.sharedCommands, ∃ first chain,
        project.checkGroup group.id = .error (.cyclicGroup first chain) ∧ id ∈ chain := by
  constructor
  · rintro ⟨chain, hchain, hid⟩
    rw [reportedCircles_eq] at hchain
    obtain ⟨finding, hfinding, hcircle⟩ := List.mem_filterMap.mp hchain
    obtain ⟨group, hgroup, first, reported, hcheck, rfl⟩ :=
      (Review.reports_ofCycles project [] project.sharedCommands).searched finding hfinding
    cases hcircle
    exact ⟨group, hgroup, first, chain, hcheck, hid⟩
  · rintro ⟨group, hgroup, first, chain, hcheck, hid⟩
    obtain ⟨other, hother, hsame⟩ := exists_reported hgroup hcheck
    exact ⟨other, hother, (hsame id).mp hid⟩

/-- The search from a group that leads back to itself ends at a missing group or at a circle. -/
theorem stops_of_cycle (hcycle : Relation.TransGen project.Calls id id) :
    (∃ caller missing, Relation.ReflTransGen project.Calls id caller ∧
      project.Calls caller missing ∧ project.findGroup? missing = none) ∨
    ∃ first chain, project.Circle first chain ∧
      (∀ member ∈ chain, Relation.ReflTransGen project.Calls id member) ∧
      ∃ other ∈ project.reportedCircles, ∀ id, id ∈ chain ↔ id ∈ other := by
  obtain ⟨callee, ⟨group, hgroup, -⟩, -⟩ := Relation.TransGen.head'_iff.mp hcycle
  have hid : group.id = id := by simpa using List.find?_some hgroup
  cases hcheck : project.checkGroup id with
  | ok _ => exact absurd hcycle (checkGroup_eq_ok.mp hcheck).not_calls_back
  | error fault =>
      cases stops_of_checkGroup hcheck with
      | @missing missing hreach hmissing =>
          rcases Relation.ReflTransGen.cases_tail hreach with rfl | ⟨caller, hcaller, hcall⟩
          · rw [hgroup] at hmissing
            cases hmissing
          · exact .inl ⟨caller, missing, hcaller, hcall, hmissing⟩
      | @circle first chain hcircle hreach =>
          rw [← hid] at hcheck
          exact .inr ⟨first, chain, hcircle, hreach,
            exists_reported (List.mem_of_find?_eq_some hgroup) hcheck⟩

/-- What a review reports as circles are circles of calls, no two of the same groups, and the groups
in them are those at whose circles the searches end. For every group that leads back to itself, a
missing group that it leads to is reported, or a circle that it leads to, and this is a circle
through the group itself if there are no others and no group is missing. -/
theorem review_circles (project : Project) :
    (∀ place first chain, ⟨place, .fault (.cyclicGroup first chain)⟩ ∈ project.review →
      project.Circle first chain ∧ ∃ group ∈ project.sharedCommands, place = .group group.id ∧
        ∀ member ∈ chain, Relation.ReflTransGen project.Calls group.id member) ∧
    (project.reportedCircles.Pairwise fun chain other => ¬ ∀ id, id ∈ chain ↔ id ∈ other) ∧
    (∀ id, (∃ chain ∈ project.reportedCircles, id ∈ chain) ↔
      ∃ group ∈ project.sharedCommands, ∃ first chain,
        project.checkGroup group.id = .error (.cyclicGroup first chain) ∧ id ∈ chain) ∧
    (∀ id, Relation.TransGen project.Calls id id →
      (∃ missing place, Relation.ReflTransGen project.Calls id missing ∧
        project.findGroup? missing = none ∧
        ⟨place, .fault (.missingGroup missing)⟩ ∈ project.review) ∨
      ∃ chain ∈ project.reportedCircles,
        ∀ member ∈ chain, Relation.ReflTransGen project.Calls id member) ∧
    ∀ id, Relation.TransGen project.Calls id id →
      (∀ reached, Relation.ReflTransGen project.Calls id reached →
        (project.findGroup? reached).isSome) →
      (∀ first chain, project.Circle first chain →
        (∀ member ∈ chain, Relation.ReflTransGen project.Calls id member) → id ∈ chain) →
      ∃ chain ∈ project.reportedCircles, id ∈ chain := by
  refine ⟨?_, ?_, fun id => mem_reportedCircles_iff, ?_, ?_⟩
  · intro place first chain hfinding
    obtain ⟨group, hgroup, hplace, hcheck⟩ := searched_of_review hfinding
    cases stops_of_checkGroup hcheck with
    | circle hcircle hreach => exact ⟨hcircle, group, hgroup, hplace, hreach⟩
  · rw [reportedCircles_eq]
    exact (Review.reports_ofCycles project [] project.sharedCommands).distinct
  · intro id hcycle
    rcases stops_of_cycle hcycle with ⟨caller, missing, hcaller, hcall, hmissing⟩ |
      ⟨first, chain, -, hreach, other, hother, hsame⟩
    · obtain ⟨place, hfinding⟩ := exists_missing_of_calls hcall hmissing
      exact .inl ⟨missing, place, hcaller.tail hcall, hmissing, hfinding⟩
    · exact .inr ⟨other, hother, fun member hmember => hreach member ((hsame member).mpr hmember)⟩
  · intro id hcycle hfound hthrough
    rcases stops_of_cycle hcycle with ⟨caller, missing, hcaller, hcall, hmissing⟩ |
      ⟨first, chain, hcircle, hreach, other, hother, hsame⟩
    · have hthere := hfound missing (hcaller.tail hcall)
      rw [hmissing] at hthere
      cases hthere
    · exact ⟨other, hother, (hsame id).mp (hthrough first chain hcircle hreach)⟩

/-- The verse leads to the chorus, which goes round, before it goes round itself. -/
def earworm : Project where
  sharedCommands := [
    { id := "verse", commands := [⟨"1", .call "chorus"⟩, ⟨"2", .call "verse"⟩] },
    { id := "chorus", commands := [⟨"3", .call "chorus"⟩] }]

/-- Both searches end at the chorus, and nothing is reported of the verse. -/
theorem not_reported_earworm :
    Relation.TransGen earworm.Calls "verse" "verse" ∧
      earworm.reportedCircles = [["chorus", "chorus"]] ∧
      ¬ ∃ chain ∈ earworm.reportedCircles, "verse" ∈ chain := by
  have hreported : earworm.reportedCircles = [["chorus", "chorus"]] := by cbv
  refine ⟨.single ⟨_, rfl, by decide⟩, hreported, ?_⟩
  rw [hreported]
  decide

end Project
end SceneScript
