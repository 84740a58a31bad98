import SafeMigrate.RoleCatalog
import SafeMigrate.RoleRuns

/-! No role becomes a member of itself, from the catalog as it is loaded on and
whoever grants: the lists of the roles carry it, each names a role once, and each record
stands for a membership that its member lists. -/

namespace SafeMigrate

open Command AnalysisState KeyedList RoleMembershipGrantor Relation

namespace AnalysisState

/-- The memberships that present roles list. -/
def MemberOf (s : AnalysisState) (a b : ObjectId) : Prop :=
  ∃ role, s.roleAt a = some role ∧ b ∈ role.memberOf

/-- Neither a list nor a record goes beyond `P`. -/
structure Bounded (P : ObjectId → ObjectId → Prop) (s : AnalysisState) : Prop where
  lists : ∀ a b, s.MemberOf a b → P a b
  records : ∀ r ∈ s.roleMembershipGrantors, P r.member r.role

/-- A record whose membership is not listed waits for one of the members. -/
def LinkedBut (members parents : List ObjectId) (s : AnalysisState) : Prop :=
  ∀ r ∈ s.roleMembershipGrantors, s.MemberOf r.member r.role ∨ r.member ∈ members ∧ r.role ∈ parents

def Linked (s : AnalysisState) : Prop :=
  ∀ r ∈ s.roleMembershipGrantors, s.MemberOf r.member r.role

/-- No present role lists a membership twice. -/
def MembersDistinct (s : AnalysisState) : Prop :=
  ∀ id role, s.roleAt id = some role → role.memberOf.Nodup

/-- Memberships and records may go, and a record goes before its membership. -/
structure Withdraws (s t : AnalysisState) : Prop where
  bounded : ∀ P, Bounded P s → Bounded P t
  linked : s.Linked → t.Linked
  distinct : s.MembersDistinct → t.MembersDistinct

instance : Std.Refl Withdraws := ⟨fun _ => ⟨fun _ h => h, fun h => h, fun h => h⟩⟩

instance : IsTrans AnalysisState Withdraws :=
  ⟨fun _ _ _ h h' => ⟨fun P hP => h'.bounded P (h.bounded P hP), fun hl => h'.linked (h.linked hl),
    fun hd => h'.distinct (h.distinct hd)⟩⟩

section Contents

variable {s t : AnalysisState}

theorem lists_congr (h : SameContents s t) : t.MemberOf = s.MemberOf := by
  unfold MemberOf
  rw [h.roleAt]

theorem Bounded.of_contents {P : ObjectId → ObjectId → Prop} (hs : Bounded P s)
    (h : SameContents s t) : Bounded P t := by
  refine ⟨?_, ?_⟩
  · rw [lists_congr h]
    exact hs.lists
  · rw [h.roleMembershipGrantors]
    exact hs.records

theorem LinkedBut.of_contents {members parents : List ObjectId} (hs : LinkedBut members parents s)
    (h : SameContents s t) : LinkedBut members parents t := by
  unfold LinkedBut
  rw [lists_congr h, h.roleMembershipGrantors]
  exact hs

theorem linkedBut_nil {parents : List ObjectId} : LinkedBut [] parents s ↔ s.Linked := by
  unfold LinkedBut Linked
  simp

theorem Linked.but (h : s.Linked) (members parents : List ObjectId) :
    LinkedBut members parents s := fun r hr => Or.inl (h r hr)

theorem MembersDistinct.of_contents (hs : s.MembersDistinct) (h : SameContents s t) :
    t.MembersDistinct := by
  unfold MembersDistinct
  rw [h.roleAt]
  exact hs

theorem withdraws_of_contents (h : SameContents s t) : Withdraws s t := by
  refine ⟨fun P hP => hP.of_contents h, fun hl => ?_, fun hd => hd.of_contents h⟩
  have hbut := (hl.but [] []).of_contents h
  exact linkedBut_nil.mp hbut

end Contents

section Modify

variable {s : AnalysisState} {member : ObjectId} {f : RoleState → RoleState}

theorem lists_modify {a b : ObjectId} : (s.modifyRole member f).MemberOf a b ↔
    (a ≠ member ∧ s.MemberOf a b) ∨
      a = member ∧ ∃ role, s.roleAt member = some role ∧ b ∈ (f role).memberOf := by
  unfold MemberOf
  rw [roleAt_modify]
  by_cases ha : a = member
  · subst ha
    simp
  · simp [ha]

theorem modify_records : (s.modifyRole member f).roleMembershipGrantors = s.roleMembershipGrantors :=
  (modifyRole_eq s member f).1

theorem Bounded.modify {P : ObjectId → ObjectId → Prop} (h : Bounded P s)
    (hf : ∀ role, s.roleAt member = some role → ∀ b ∈ (f role).memberOf, P member b) :
    Bounded P (s.modifyRole member f) := by
  refine ⟨fun a b hab => ?_, ?_⟩
  · rcases lists_modify.mp hab with ⟨-, hold⟩ | ⟨rfl, role, hrole, hb⟩
    · exact h.lists a b hold
    · exact hf role hrole b hb
  · rw [modify_records]
    exact h.records

/-- The member's own list is settled, with all that its records ask for. -/
theorem LinkedBut.modify {members parents : List ObjectId}
    (h : LinkedBut (member :: members) parents s) (hpresent : (s.roleAt member).isSome)
    (hf : ∀ role, s.roleAt member = some role → ∀ r ∈ s.roleMembershipGrantors,
      r.member = member → r.role ∈ role.memberOf ∨ r.role ∈ parents → r.role ∈ (f role).memberOf) :
    LinkedBut members parents (s.modifyRole member f) := by
  obtain ⟨role, hrole⟩ := Option.isSome_iff_exists.mp hpresent
  intro r hr
  rw [modify_records] at hr
  by_cases hm : r.member = member
  · refine Or.inl (lists_modify.mpr (Or.inr ⟨hm, role, hrole, hf role hrole r hr hm ?_⟩))
    refine (h r hr).imp (fun hlists => ?_) fun hwaits => hwaits.2
    obtain ⟨role', hrole', hb⟩ := hlists
    rw [hm, hrole] at hrole'
    exact Option.some.inj hrole' ▸ hb
  · refine (h r hr).imp (fun hlists => lists_modify.mpr (Or.inl ⟨hm, hlists⟩)) fun hwaits => ?_
    exact ⟨(List.mem_cons.mp hwaits.1).resolve_left hm, hwaits.2⟩

theorem isSome_modify {id : ObjectId} (h : (s.roleAt id).isSome) :
    ((s.modifyRole member f).roleAt id).isSome := by
  rw [roleAt_modify]
  by_cases hid : id = member
  · subst hid
    simpa using h
  · simpa [hid] using h

theorem MembersDistinct.modify (h : s.MembersDistinct)
    (hf : ∀ role, s.roleAt member = some role → (f role).memberOf.Nodup) :
    (s.modifyRole member f).MembersDistinct := by
  intro id role hrole
  rw [roleAt_modify] at hrole
  by_cases hid : id = member
  · rw [if_pos hid] at hrole
    obtain ⟨before, hbefore, rfl⟩ := Option.map_eq_some_iff.mp hrole
    exact hf before hbefore
  · rw [if_neg hid] at hrole
    exact h id role hrole

theorem MembersDistinct.reconcile (h : s.MembersDistinct) :
    (s.reconcileMembershipProjection member).MembersDistinct := by
  unfold reconcileMembershipProjection
  by_cases hcomplete : s.roleMembershipGrantorsComplete = true
  · rw [if_pos hcomplete]
    exact h.modify fun role _ => nodup_retainUnseen [] _
  · rwa [if_neg hcomplete]

theorem Bounded.reconcile {P : ObjectId → ObjectId → Prop} (h : Bounded P s) :
    Bounded P (s.reconcileMembershipProjection member) := by
  unfold reconcileMembershipProjection
  by_cases hcomplete : s.roleMembershipGrantorsComplete = true
  · rw [if_pos hcomplete]
    refine h.modify fun role _ b hb => ?_
    obtain ⟨r, hr, rfl, -, rfl⟩ := mem_project.mp hb
    exact h.records r hr
  · rwa [if_neg hcomplete]

theorem Bounded.setRecords {P : ObjectId → ObjectId → Prop} (h : Bounded P s)
    {records : List RoleMembershipGrantor} (hrecords : ∀ r ∈ records, P r.member r.role) :
    Bounded P (s.setRoleMembershipGrantors records) := ⟨h.lists, hrecords⟩

/-- Where the records are complete, the lists of their members follow them. -/
theorem LinkedBut.reconcile {members parents : List ObjectId}
    (h : LinkedBut (member :: members) parents s) (hpresent : (s.roleAt member).isSome)
    (hcomplete : s.roleMembershipGrantorsComplete = true) :
    LinkedBut members parents (s.reconcileMembershipProjection member) := by
  unfold reconcileMembershipProjection
  rw [if_pos hcomplete]
  exact h.modify hpresent fun role _ r hr hm _ => mem_project.mpr ⟨r, hr, hm, rfl, rfl⟩

theorem Linked.reconcile (h : s.Linked) : (s.reconcileMembershipProjection member).Linked := by
  by_cases hcomplete : s.roleMembershipGrantorsComplete = true
  · by_cases hpresent : (s.roleAt member).isSome = true
    · have hbut := (h.but [member] []).reconcile hpresent hcomplete
      exact linkedBut_nil.mp hbut
    · unfold reconcileMembershipProjection
      rw [if_pos hcomplete, modifyRole, Option.not_isSome_iff_eq_none.mp hpresent]
      exact h
  · unfold reconcileMembershipProjection
    rwa [if_neg hcomplete]

end Modify

section Withdrawals

/-- An update that leaves a record's membership alone. -/
theorem exists_of_updateFirst {p : RoleMembershipGrantor → Bool}
    {f : RoleMembershipGrantor → RoleMembershipGrantor} {records : List RoleMembershipGrantor}
    {r' : RoleMembershipGrantor} (h : r' ∈ updateFirst p f records)
    (hf : ∀ r, (f r).member = r.member ∧ (f r).role = r.role) :
    ∃ r ∈ records, r.member = r'.member ∧ r.role = r'.role := by
  have hmem := List.mem_map_of_mem (f := fun r => (r.member, r.role)) h
  rw [map_updateFirst fun r _ => Prod.ext (hf r).1 (hf r).2] at hmem
  obtain ⟨r, hr, heq⟩ := List.mem_map.mp hmem
  obtain ⟨hm, hrole⟩ := Prod.mk.inj heq
  exact ⟨r, hr, hm, hrole⟩

variable (s : AnalysisState)

/-- Records go, and a member's list is rebuilt from what is left. -/
theorem withdraws_reconcile {records : List RoleMembershipGrantor} (member : ObjectId)
    (h : ∀ r' ∈ records, ∃ r ∈ s.roleMembershipGrantors, r.member = r'.member ∧ r.role = r'.role) :
    Withdraws s (((s.setRoleMembershipGrantors records).snapshotRole
      member).reconcileMembershipProjection member) := by
  have hsnapshot : SameContents (s.setRoleMembershipGrantors records)
      ((s.setRoleMembershipGrantors records).snapshotRole member) := .pushUndo _ _
  refine ⟨fun P hP => ?_, fun hl => ?_, fun hd => ?_⟩
  · refine Bounded.reconcile (Bounded.of_contents (hP.setRecords fun r' hr' => ?_) hsnapshot)
    obtain ⟨r, hr, hm, hrole⟩ := h r' hr'
    rw [← hm, ← hrole]
    exact hP.records r hr
  · have hset : (s.setRoleMembershipGrantors records).Linked := by
      intro r' hr'
      obtain ⟨r, hr, hm, hrole⟩ := h r' hr'
      rw [← hm, ← hrole]
      exact hl r hr
    exact ((withdraws_of_contents hsnapshot).linked hset).reconcile
  · have hset : (s.setRoleMembershipGrantors records).MembersDistinct := hd
    exact (hset.of_contents hsnapshot).reconcile

theorem withdraws_removeRecord (r : RoleMembershipGrantor) :
    Withdraws s (s.removeMembershipRecord r) := by
  have hsnapshot : SameContents s (s.snapshotRole r.member) := .pushUndo _ _
  have hcore (u : AnalysisState) : Withdraws u ((u.setRoleMembershipGrantors
      (u.roleMembershipGrantors.filter fun other =>
        !isFor r.member r.role r.grantor other)).reconcileMembershipProjection r.member) := by
    refine ⟨fun P hP => Bounded.reconcile (hP.setRecords fun r' hr' => ?_), fun hl => ?_,
      fun hd => MembersDistinct.reconcile hd⟩
    · exact hP.records r' (List.mem_of_mem_filter hr')
    · refine Linked.reconcile fun r' hr' => ?_
      exact hl r' (List.mem_of_mem_filter hr')
  exact IsTrans.trans _ _ _ (withdraws_of_contents hsnapshot) (hcore _)

/-- A list shrinks, and with each membership go the records that stand for it. -/
theorem withdraws_shrink (member : ObjectId) (f : RoleState → RoleState)
    (keep : RoleMembershipGrantor → Bool)
    (hf : ∀ role, (f role).memberOf.Sublist role.memberOf)
    (hkeep : ∀ role r, r.member = member → keep r = true → r.role ∈ role.memberOf →
      r.role ∈ (f role).memberOf) :
    Withdraws s ((s.modifyRole member f).setRoleMembershipGrantors
      (s.roleMembershipGrantors.filter keep)) := by
  refine ⟨fun P hP => ?_, fun hl r hr => ?_, fun hd => ?_⟩
  · refine (hP.modify fun role hrole b hb => ?_).setRecords fun r hr => ?_
    · exact hP.lists member b ⟨role, hrole, (hf role).subset hb⟩
    · exact hP.records r (List.mem_of_mem_filter hr)
  · obtain ⟨hmem, hkept⟩ := List.mem_filter.mp hr
    obtain ⟨role, hrole, hlisted⟩ := hl r hmem
    refine lists_modify.mpr ?_
    by_cases hm : r.member = member
    · rw [hm] at hrole
      exact Or.inr ⟨hm, role, hrole, hkeep role r hm hkept hlisted⟩
    · exact Or.inl ⟨hm, role, hrole, hlisted⟩
  · have hshrunk : (s.modifyRole member f).MembersDistinct :=
      hd.modify fun role hrole => (hd member role hrole).sublist (hf role)
    exact hshrunk

theorem withdraws_removeMembership (membership : ObjectId × ObjectId) :
    Withdraws s (s.removeMembership membership) := by
  have hsnapshot : SameContents s (s.snapshotRole membership.1) := .pushUndo _ _
  refine IsTrans.trans _ _ _ (withdraws_of_contents hsnapshot) ?_
  unfold removeMembership
  dsimp only
  rw [modify_records]
  refine withdraws_shrink _ membership.1 _ _ (fun role => List.filter_sublist) ?_
  intro role r hm hkept hlisted
  refine List.mem_filter.mpr ⟨hlisted, ?_⟩
  simpa [hm] using hkept

end Withdrawals

end AnalysisState

section Revoke

namespace RevokeRoles

variable (revoke : RevokeRoles) (part : RevokedPart)

theorem withdraws_revokeRecord (grantor : ObjectId) (progress : AnalysisState × List ObjectId)
    (pair : ObjectId × ObjectId) :
    Withdraws progress.1 (revoke.revokeRecord part grantor progress pair).1 := by
  obtain ⟨s, members⟩ := progress
  obtain ⟨member, parent⟩ := pair
  have hrewrite (f : RoleMembershipGrantor → RoleMembershipGrantor)
      (hf : ∀ r, (f r).member = r.member ∧ (f r).role = r.role) :
      Withdraws s (((s.setRoleMembershipGrantors (updateFirst (isFor member parent grantor) f
        s.roleMembershipGrantors)).snapshotRole member).reconcileMembershipProjection member) := by
    refine withdraws_reconcile s member fun r' hr' => ?_
    exact exists_of_updateFirst hr' hf
  have hrefl : Withdraws s s := Std.Refl.refl s
  unfold revokeRecord
  dsimp only
  split
  · exact hrefl
  · cases part with
    | adminOption =>
      dsimp only
      split
      · exact hrewrite _ fun _ => ⟨rfl, rfl⟩
      · exact hrefl
    | inheritOption => exact hrewrite _ fun _ => ⟨rfl, rfl⟩
    | setOption => exact hrewrite _ fun _ => ⟨rfl, rfl⟩
    | membership =>
      refine withdraws_reconcile s member fun r' hr' => ?_
      exact ⟨r', List.mem_of_mem_eraseP hr', rfl, rfl⟩

theorem withdraws_cascadeRecords (s : AnalysisState) (initial : List ObjectId) :
    Withdraws s (s.cascadeMembershipsGrantedBy initial) := by
  refine keeps_ite (fun _ => Std.Refl.refl s) fun _ => ?_
  exact IsTrans.trans _ _ _ (withdraws_of_contents (.pushUndo s _))
    (keeps_foldl _ (fun r _ s => withdraws_removeRecord s r) _)

theorem withdraws_cascadeMemberships (s : AnalysisState) (initial : List ObjectId) :
    Withdraws s (s.cascadeRoleMemberships initial) := by
  refine keeps_ite (fun _ => Std.Refl.refl s) fun _ => ?_
  exact IsTrans.trans _ _ _ (withdraws_of_contents (.pushUndo s _))
    (keeps_foldl _ (fun membership _ s => withdraws_removeMembership s membership) _)

theorem withdraws_writeRecords (grantor : ObjectId) (revokees : List ObjectId) (s : AnalysisState) :
    Withdraws s (revoke.writeRecords part grantor revokees s) := by
  have hsnapshot : Withdraws s (if (membershipPairs revokees revoke.parents).any fun pair =>
      s.roleMembershipGrantors.any (isFor pair.1 pair.2 grantor) then
      s.snapshotRoleMembershipGrantors else s) :=
    keeps_ite (fun _ => withdraws_of_contents (.pushUndo s _)) fun _ => Std.Refl.refl s
  unfold writeRecords
  dsimp only
  generalize (if (membershipPairs revokees revoke.parents).any fun pair =>
    s.roleMembershipGrantors.any (isFor pair.1 pair.2 grantor) then
      s.snapshotRoleMembershipGrantors else s) = u at hsnapshot ⊢
  have hloop := keeps_foldl_of (R := Withdraws) Prod.fst (membershipPairs revokees revoke.parents)
    (fun pair _ progress => revoke.withdraws_revokeRecord part grantor progress pair) (u, [])
  refine IsTrans.trans _ _ _ (IsTrans.trans _ _ _ hsnapshot hloop) ?_
  exact keeps_ite (fun _ => withdraws_cascadeRecords _ _) fun _ => Std.Refl.refl _

theorem mem_withoutParts {parents : List ObjectId} {role : RoleState} {id : ObjectId} :
    id ∈ (parents.foldl (withoutPart part) role).memberOf ↔
      id ∈ role.memberOf ∧ (part = .membership → id ∉ parents) := by
  induction parents generalizing role with
  | nil => simp
  | cons parent parents ih =>
    rw [List.foldl_cons, ih]
    cases part <;> simp [withoutPart, and_assoc]

theorem withoutParts_sublist (parents : List ObjectId) (role : RoleState) :
    (parents.foldl (withoutPart part) role).memberOf.Sublist role.memberOf := by
  induction parents generalizing role with
  | nil => exact List.Sublist.refl _
  | cons parent parents ih =>
    have hone : (withoutPart part role parent).memberOf.Sublist role.memberOf := by
      cases part with
      | membership => exact List.filter_sublist
      | _ => exact List.Sublist.refl _
    rw [List.foldl_cons]
    exact (ih _).trans hone

theorem withdraws_revokeMember (progress : AnalysisState × List ObjectId) (member : ObjectId) :
    Withdraws progress.1 (revoke.revokeLegacyMember part progress member).1 := by
  have hsnapshot : Withdraws progress.1 (progress.1.snapshotRole member) :=
    withdraws_of_contents (.pushUndo _ _)
  refine IsTrans.trans _ _ _ hsnapshot ?_
  unfold revokeLegacyMember
  dsimp only
  generalize progress.1.snapshotRole member = s
  split
  · dsimp only
    by_cases hpart : part = .membership
    · rw [if_pos hpart, modify_records]
      refine withdraws_shrink s member _ _ (withoutParts_sublist part revoke.parents) ?_
      intro role r hm hkept hlisted
      refine (mem_withoutParts part).mpr ⟨hlisted, fun _ => ?_⟩
      simpa [hm] using hkept
    · rw [if_neg hpart]
      have hshrink := withdraws_shrink s member
        (fun role => revoke.parents.foldl (withoutPart part) role) (fun _ => true)
        (withoutParts_sublist part revoke.parents)
        fun role r _ _ hlisted =>
          (mem_withoutParts part).mpr ⟨hlisted, fun heq => absurd heq hpart⟩
      rwa [List.filter_true, ← (modifyRole_eq s member _).1] at hshrink
  · exact Std.Refl.refl s

theorem withdraws_writeLegacy (revokees : List ObjectId) (s : AnalysisState) :
    Withdraws s (revoke.writeLegacy part revokees s) := by
  have hloop (progress : AnalysisState × List ObjectId) : Withdraws progress.1
      (revokees.foldl (revoke.revokeLegacyMember part) progress).1 :=
    keeps_foldl_of (R := Withdraws) Prod.fst revokees
      (fun member _ progress => revoke.withdraws_revokeMember part progress member) progress
  unfold writeLegacy
  dsimp only
  refine IsTrans.trans _ _ _ ?_ (IsTrans.trans _ _ _ (hloop (_, _))
    (keeps_ite (fun _ => withdraws_cascadeMemberships _ _) fun _ => Std.Refl.refl _))
  exact keeps_ite (fun _ => withdraws_of_contents (.pushUndo s _)) fun _ => Std.Refl.refl s

theorem withdraws_write (revokees : List ObjectId) (s : AnalysisState) :
    Withdraws s (revoke.write part revokees s) := by
  unfold write
  split
  · exact keeps_ite (fun _ => revoke.withdraws_writeRecords part _ revokees s)
      fun _ => revoke.withdraws_writeLegacy part revokees s
  · exact revoke.withdraws_writeLegacy part revokees s

end RevokeRoles

theorem withdraws_revoke {s t : AnalysisState} {revoke : RevokeRoles}
    (h : revoke.command.outcome s = (.applied, t)) : Withdraws s t := by
  obtain ⟨part, u, hu, rfl, -⟩ := RevokeRoles.revoke_applied h
  exact IsTrans.trans _ _ _ (withdraws_of_contents hu) (revoke.withdraws_write part _ u)

end Revoke

section Grant

variable {s t : AnalysisState} {options : MembershipOptions} {grantor : ObjectId}
  {members parents : List ObjectId}

/-- What recording a membership does to the records, whatever else is known. -/
structure RecordsMembership (s : AnalysisState) (member parent : ObjectId) (t : AnalysisState) : Prop where
  roles : t.roleAt = s.roleAt
  complete : t.roleMembershipGrantorsComplete = s.roleMembershipGrantorsComplete
  origin : ∀ r' ∈ t.roleMembershipGrantors, (r'.member = member ∧ r'.role = parent) ∨
    ∃ r ∈ s.roleMembershipGrantors, r.member = r'.member ∧ r.role = r'.role

theorem grantRecord_records (s : AnalysisState) (options : MembershipOptions)
    (grantor member parent : ObjectId) :
    RecordsMembership s member parent (s.grantRecord options grantor member parent) := by
  unfold AnalysisState.grantRecord
  dsimp only
  split
  · refine ⟨rfl, rfl, fun r' hr' => Or.inr ?_⟩
    exact exists_of_updateFirst hr' fun _ => ⟨rfl, rfl⟩
  · refine ⟨rfl, rfl, fun r' hr' => ?_⟩
    rcases List.mem_append.mp hr' with hold | hnew
    · exact Or.inr ⟨r', hold, rfl, rfl⟩
    · rw [List.mem_singleton.mp hnew]
      exact Or.inl ⟨rfl, rfl⟩

theorem grantLegacyRecord_records (s : AnalysisState) (options : MembershipOptions)
    (grantor member parent : ObjectId) :
    RecordsMembership s member parent (s.grantLegacyRecord options grantor member parent) := by
  unfold AnalysisState.grantLegacyRecord
  dsimp only
  split
  · exact ⟨rfl, rfl, fun r' hr' => Or.inr ⟨r', hr', rfl, rfl⟩⟩
  · refine ⟨rfl, rfl, fun r' hr' => ?_⟩
    rcases List.mem_append.mp hr' with hold | hnew
    · exact Or.inr ⟨r', List.mem_of_mem_filter hold, rfl, rfl⟩
    · rw [List.mem_singleton.mp hnew]
      exact Or.inl ⟨rfl, rfl⟩

/-- While a grant writes: every list and record stays within what was proposed,
and what the records ask for is listed, or will be for the members to come. -/
structure Granting (P : ObjectId → ObjectId → Prop) (present members parents : List ObjectId)
    (s : AnalysisState) : Prop where
  bounded : Bounded P s
  linked : LinkedBut members parents s
  distinct : s.MembersDistinct
  present : ∀ id ∈ present, (s.roleAt id).isSome

section Granting

variable {P : ObjectId → ObjectId → Prop} {present : List ObjectId}

theorem Granting.of_contents (hs : Granting P present members parents s) (h : SameContents s t) :
    Granting P present members parents t := by
  refine ⟨hs.bounded.of_contents h, hs.linked.of_contents h, hs.distinct.of_contents h, ?_⟩
  rw [h.roleAt]
  exact hs.present

theorem Granting.record (hs : Granting P present members parents s) {member parent : ObjectId}
    (hmember : member ∈ members) (hparent : parent ∈ parents) (hP : P member parent)
    (h : RecordsMembership s member parent t) : Granting P present members parents t := by
  have hlists : t.MemberOf = s.MemberOf := by
    unfold MemberOf
    rw [h.roles]
  refine ⟨⟨?_, fun r' hr' => ?_⟩, fun r' hr' => ?_, ?_, ?_⟩
  · rw [hlists]
    exact hs.bounded.lists
  · rcases h.origin r' hr' with ⟨hm, hrole⟩ | ⟨r, hr, hm, hrole⟩
    · rwa [hm, hrole]
    · rw [← hm, ← hrole]
      exact hs.bounded.records r hr
  · rw [hlists]
    rcases h.origin r' hr' with ⟨hm, hrole⟩ | ⟨r, hr, hm, hrole⟩
    · rw [hm, hrole]
      exact Or.inr ⟨hmember, hparent⟩
    · rw [← hm, ← hrole]
      exact hs.linked r hr
  · unfold MembersDistinct
    rw [h.roles]
    exact hs.distinct
  · rw [h.roles]
    exact hs.present

theorem Granting.records (hs : Granting P present members parents s)
    {pairs : List (ObjectId × ObjectId)} {f : AnalysisState → ObjectId × ObjectId → AnalysisState}
    (hf : ∀ s pair, RecordsMembership s pair.1 pair.2 (f s pair))
    (hpairs : ∀ pair ∈ pairs, pair.1 ∈ members ∧ pair.2 ∈ parents ∧ P pair.1 pair.2) :
    Granting P present members parents (pairs.foldl f s) ∧
      (pairs.foldl f s).roleMembershipGrantorsComplete = s.roleMembershipGrantorsComplete := by
  induction pairs generalizing s with
  | nil => exact ⟨hs, rfl⟩
  | cons pair pairs ih =>
    obtain ⟨⟨hm, hp, hP⟩, hrest⟩ := List.forall_mem_cons.mp hpairs
    obtain ⟨hall, hcomplete⟩ := ih (hs.record hm hp hP (hf s pair)) hrest
    exact ⟨hall, hcomplete.trans (hf s pair).complete⟩

/-- The members are settled one after the other. -/
theorem Granting.settled {f : AnalysisState → ObjectId → AnalysisState} {I : AnalysisState → Prop}
    (hI : ∀ s id, I s → I (f s id))
    (hf : ∀ s id rest, I s → id ∈ present → Granting P present (id :: rest) parents s →
      Granting P present rest parents (f s id))
    (hs : Granting P present members parents s) (hstart : I s) (hmembers : members ⊆ present) :
    Granting P present [] parents (members.foldl f s) := by
  induction members generalizing s with
  | nil => exact hs
  | cons id members ih =>
    obtain ⟨hid, hrest⟩ := List.cons_subset.mp hmembers
    exact ih (hf s id members hstart hid hs) (hI s id hstart) hrest

theorem Granting.reconciled {id : ObjectId} (hs : Granting P present (id :: members) parents s)
    (hid : id ∈ present) (hcomplete : s.roleMembershipGrantorsComplete = true) :
    Granting P present members parents ((s.snapshotRole id).reconcileMembershipProjection id) := by
  have hsnapshot : SameContents s (s.snapshotRole id) := .pushUndo s _
  have hbase := hs.of_contents hsnapshot
  have hbefore : (s.snapshotRole id).roleMembershipGrantorsComplete = true :=
    hsnapshot.roleMembershipGrantorsComplete.trans hcomplete
  refine ⟨hbase.bounded.reconcile, hbase.linked.reconcile (hbase.present id hid) hbefore,
    hbase.distinct.reconcile, ?_⟩
  intro other hother
  unfold reconcileMembershipProjection
  rw [if_pos hbefore]
  exact isSome_modify (hbase.present other hother)

theorem mem_grantMemberships {version : Nat} {role : RoleState} {id : ObjectId} :
    id ∈ (parents.foldl (RoleState.grantLegacyMembership version options) role).memberOf ↔
      id ∈ role.memberOf ∨ id ∈ parents := by
  induction parents generalizing role with
  | nil => simp
  | cons parent parents ih =>
    have hone : id ∈ (role.grantLegacyMembership version options parent).memberOf ↔
        id ∈ role.memberOf ∨ id = parent := by
      unfold RoleState.grantLegacyMembership
      by_cases hnew : parent ∈ role.memberOf
      · simp only [hnew, not_true_eq_false, decide_false, Bool.false_eq_true, if_false]
        exact ⟨Or.inl, fun h => h.elim (fun hold => hold) fun heq => heq ▸ hnew⟩
      · simp [hnew]
    rw [List.foldl_cons, ih, hone, List.mem_cons, or_assoc]

theorem nodup_grantMemberships {version : Nat} {role : RoleState} (h : role.memberOf.Nodup) :
    (parents.foldl (RoleState.grantLegacyMembership version options) role).memberOf.Nodup := by
  induction parents generalizing role with
  | nil => exact h
  | cons parent parents ih =>
    refine ih ?_
    unfold RoleState.grantLegacyMembership
    by_cases hnew : parent ∈ role.memberOf
    · simpa [hnew] using h
    · simpa [hnew] using List.nodup_append_comm.mp (List.nodup_cons.mpr ⟨hnew, h⟩)

theorem Granting.granted {id : ObjectId} (version : Nat)
    (hs : Granting P present (id :: members) parents s) (hid : id ∈ present)
    (hP : ∀ parent ∈ parents, P id parent) :
    Granting P present members parents ((s.snapshotRole id).modifyRole id fun role =>
      parents.foldl (RoleState.grantLegacyMembership version options) role) := by
  have hsnapshot : SameContents s (s.snapshotRole id) := .pushUndo s _
  have hbase := hs.of_contents hsnapshot
  refine ⟨hbase.bounded.modify fun role hrole b hb => ?_, ?_, ?_, fun other hother => ?_⟩
  · rcases mem_grantMemberships.mp hb with hold | hnew
    · exact hbase.bounded.lists id b ⟨role, hrole, hold⟩
    · exact hP b hnew
  · refine hbase.linked.modify (hbase.present id hid) fun role _ r _ _ h => ?_
    exact mem_grantMemberships.mpr h
  · exact hbase.distinct.modify fun role hrole =>
      nodup_grantMemberships (hbase.distinct id role hrole)
  · exact isSome_modify (hbase.present other hother)

end Granting

/-- However an applied grant was recorded, it leaves no cycle of memberships, no record
without its membership and no membership twice. -/
theorem grant_linked {grant : GrantRoles} (hknown : s.rolesKnown = true) (hs : s.Linked)
    (hdistinct : s.MembersDistinct) (h : grant.command.outcome s = (.applied, t)) :
    Bounded (Proposes s (membershipPairs (s.factRoles grant.grantees) grant.parents)) t ∧
      t.Linked ∧ t.MembersDistinct := by
  obtain ⟨options, u, hu, rfl, -, hpresent, -⟩ := grant_applied h
  set grantees := s.factRoles grant.grantees
  set P := Proposes s (membershipPairs grantees grant.parents) with hP
  have hpairs : ∀ pair ∈ membershipPairs grantees grant.parents,
      pair.1 ∈ retainUnseen [] grantees ∧ pair.2 ∈ grant.parents ∧ P pair.1 pair.2 := by
    intro pair hpair
    obtain ⟨hm, hp⟩ := mem_membershipPairs.mp hpair
    exact ⟨mem_retainUnseen.mpr ⟨hm, List.not_mem_nil⟩, hp, proposes_iff.mpr (Or.inr hpair)⟩
  have hgrantees : retainUnseen [] grantees ⊆ grantees := fun id hid => (mem_retainUnseen.mp hid).1
  have hstart : Granting P grantees (retainUnseen [] grantees) grant.parents s := by
    refine ⟨⟨fun a b hab => proposes_iff.mpr (Or.inl hab), fun r hr => ?_⟩, hs.but _ _, hdistinct,
      hpresent hknown⟩
    exact proposes_iff.mpr (Or.inl (hs r hr))
  have hsnapshot : SameContents u u.snapshotRoleMembershipGrantors := .pushUndo u _
  have hbase := (hstart.of_contents hu).of_contents hsnapshot
  have hlegacy (version : Nat) {v : AnalysisState}
      (hv : Granting P grantees (retainUnseen [] grantees) grant.parents v) :
      Granting P grantees [] grant.parents
        (grantLegacyMembers version options grantees grant.parents v) := by
    refine hv.settled (I := fun _ => True) (fun _ _ h => h) ?_ trivial hgrantees
    intro w id rest _ hid hw
    exact hw.granted version hid fun parent hparent =>
      (hpairs (id, parent) (mem_membershipPairs.mpr ⟨hid, hparent⟩)).2.2
  have hdone : Granting P grantees [] grant.parents (grant.write options grantees u) := by
    unfold GrantRoles.write
    dsimp only
    split
    · split
      · rename_i grantor _ hcomplete
        obtain ⟨hrecords, hkept⟩ := hbase.records
          (fun s pair => grantRecord_records s options grantor pair.1 pair.2) hpairs
        refine hrecords.settled (I := fun s => s.roleMembershipGrantorsComplete = true)
          (fun v id hv => ?_) (fun v id rest hv hid hw => hw.reconciled hid hv)
          (hkept.trans hcomplete) hgrantees
        have hsnap : (v.snapshotRole id).roleMembershipGrantorsComplete = true :=
          ((SameContents.pushUndo v _).roleMembershipGrantorsComplete).trans hv
        unfold reconcileMembershipProjection
        rw [if_pos hsnap, (modifyRole_eq _ _ _).2.1]
        exact hsnap
      · rename_i grantor _ _
        exact hlegacy _ (hbase.records
          (fun s pair => grantLegacyRecord_records s options grantor pair.1 pair.2) hpairs).1
    · exact hlegacy _ ⟨⟨hbase.bounded.lists, hbase.bounded.records⟩, hbase.linked, hbase.distinct,
        hbase.present⟩
  exact ⟨hdone.bounded, linkedBut_nil.mp hdone.linked, hdone.distinct⟩

end Grant

section Runs

variable {s t : AnalysisState}

theorem create_roleAt {create : CreateRole} (h : create.command.outcome s = (.applied, t))
    {id : ObjectId} {role : RoleState} (hrole : t.roleAt id = some role) :
    role.memberOf = [] ∨ s.roleAt id = some role := by
  obtain ⟨u, hu, rfl, habsent⟩ := create_applied h
  have hbase : SameContents s (u.snapshotRole (roleId create.name)).bumpGeneration :=
    (hu.trans (.pushUndo u _)).trans (.bumpGeneration _)
  unfold CreateRole.write at hrole
  dsimp only at hrole
  rw [roleAt_insert, hbase.roleAt] at hrole
  by_cases hid : id = roleId create.name
  · rw [if_pos hid] at hrole
    cases hrole
    exact Or.inl rfl
  · rw [if_neg hid] at hrole
    exact Or.inr hrole

/-- A new role is a member of nothing. -/
theorem create_lists {create : CreateRole} (h : create.command.outcome s = (.applied, t)) :
    t.MemberOf = s.MemberOf ∧ t.roleMembershipGrantors = s.roleMembershipGrantors := by
  obtain ⟨u, hu, rfl, habsent⟩ := create_applied h
  have hbase : SameContents s (u.snapshotRole (roleId create.name)).bumpGeneration :=
    (hu.trans (.pushUndo u _)).trans (.bumpGeneration _)
  refine ⟨?_, hbase.roleMembershipGrantors⟩
  funext a b
  rw [eq_iff_iff]
  have hroles := roleAt_insert (u.snapshotRole (roleId create.name)).bumpGeneration
    (roleId create.name) a
  unfold MemberOf CreateRole.write
  dsimp only
  rw [hroles, hbase.roleAt]
  by_cases ha : a = roleId create.name
  · simp [ha, habsent]
  · simp [ha]

/-- The memberships of a catalog that PostgreSQL could be in. -/
structure LinksInOrder (s : AnalysisState) : Prop where
  acyclic : ∀ id, ¬TransGen s.MemberOf id id
  linked : s.Linked
  distinct : s.MembersDistinct

theorem LinksInOrder.of_withdraws (hs : LinksInOrder s) (h : Withdraws s t) : LinksInOrder t := by
  have hbounded : Bounded s.MemberOf t := h.bounded s.MemberOf ⟨fun _ _ hab => hab, hs.linked⟩
  refine ⟨fun id hcycle => hs.acyclic id ?_, h.linked hs.linked, h.distinct hs.distinct⟩
  exact TransGen.mono hbounded.lists id id hcycle

theorem roleStatement_linksInOrder {statement : RoleStatement} (hs : LinksInOrder s)
    (hknown : s.rolesKnown = true) (h : s.applyRoleStatement statement = (.applied, t)) :
    LinksInOrder t := by
  cases statement with
  | create fact =>
    obtain ⟨hlists, hrecords⟩ := create_lists h
    refine ⟨?_, ?_, fun id role hrole => ?_⟩
    · rw [hlists]
      exact hs.acyclic
    · unfold Linked
      rw [hlists, hrecords]
      exact hs.linked
    · rcases create_roleAt h hrole with hnew | hold
      · rw [hnew]
        exact List.nodup_nil
      · exact hs.distinct id role hold
  | drop fact =>
    obtain ⟨u, present, hu, hpresent, rfl⟩ := drop_applied h
    rw [hpresent hknown]
    exact hs.of_withdraws (withdraws_of_contents hu)
  | grant fact =>
    obtain ⟨hbounded, hlinked, hdistinct⟩ := grant_linked hknown hs.linked hs.distinct h
    obtain ⟨-, -, -, -, -, -, hacyclic⟩ := grant_applied h
    refine ⟨fun id hcycle => hacyclic (fun id hid => hs.acyclic id ?_) id ?_, hlinked, hdistinct⟩
    · refine TransGen.mono (fun a b hab => ?_) id id hid
      exact (proposes_iff.mp hab).resolve_right List.not_mem_nil
    · exact TransGen.mono hbounded.lists id id hcycle
  | revoke fact => exact hs.of_withdraws (withdraws_revoke h)

theorem roleRun_linksInOrder {condition : AnalysisState → RoleStatement → Prop}
    (hs : LinksInOrder s) (hknown : s.rolesKnown = true) (hrun : RoleRun condition s t) :
    LinksInOrder t ∧ t.rolesKnown = true := by
  induction hrun with
  | start => exact ⟨hs, hknown⟩
  | step statement _ _ happlied ih =>
    obtain ⟨hbefore, hknown⟩ := ih
    exact ⟨roleStatement_linksInOrder hbefore hknown happlied,
      (noMoreKnown_roleStatement happlied).roles.trans hknown⟩

end Runs

section Baseline

namespace DbCache

variable (c : DbCache) (s : AnalysisState)

def presentRoles : KeyedMap ObjectId RoleOverlay :=
  ⟨c.roles.entries.map (.map id fun _ => .present), List.NodupKeys.map₂ _ _ c.roles.nodupKeys⟩

/-- `with_baseline`, as far as it takes roles over from the cache. -/
def withBaseline : AnalysisState :=
  { s with
    roles := c.presentRoles
    roleMembershipGrantors := c.roleMembershipGrantors
    roleMembershipGrantorsComplete := c.roleMembershipGrantorsComplete }

variable {c s}

theorem roleAt_withBaseline (id : ObjectId) : (c.withBaseline s).roleAt id = c.roles.lookup id := by
  have hlookup : c.presentRoles.lookup id = (c.roles.lookup id).map .present := List.dlookup_map₂ id
  unfold roleAt
  rw [show (c.withBaseline s).roles = c.presentRoles from rfl, hlookup]
  cases c.roles.lookup id <;> rfl

theorem withBaseline_lists : (c.withBaseline s).MemberOf = c.Member := by
  funext a b
  rw [eq_iff_iff, member_iff]
  unfold MemberOf
  rw [roleAt_withBaseline]

theorem RolesWellFormed.linksInOrder (h : c.RolesWellFormed) :
    LinksInOrder (c.withBaseline s) := by
  refine ⟨?_, fun r hr => ?_, fun id role hrole => ?_⟩
  · rw [withBaseline_lists]
    exact h.acyclic
  · rw [withBaseline_lists]
    exact (h.linked r hr).1
  · rw [roleAt_withBaseline] at hrole
    exact (h.distinct id role hrole).1

end DbCache

/-- From a cache that the checks on loading accept, no run of role statements, by
whoever they are granted, makes a role a member of itself, leaves a record
without its membership or lists a membership twice. -/
theorem accepted_roles_stay_acyclic (c : DbCache) (s t : AnalysisState)
    (hvalid : c.validateRoles = .ok ()) (hknown : s.rolesKnown = true)
    (hrun : RoleRun (fun _ _ => True) (c.withBaseline s) t) :
    (∀ id, ¬TransGen t.MemberOf id id) ∧
      (∀ r ∈ t.roleMembershipGrantors, t.MemberOf r.member r.role) ∧
      ∀ id role, t.roleAt id = some role → role.memberOf.Nodup := by
  have hstart := ((DbCache.accepts_roles_iff c).mp hvalid).linksInOrder (s := s)
  obtain ⟨hdone, -⟩ := roleRun_linksInOrder hstart hknown hrun
  exact ⟨hdone.acyclic, hdone.linked, hdone.distinct⟩

section Cluster

def loginRole (name : String) (isSuperuser : Bool) (memberOf : List ObjectId) : RoleState :=
  { id := roleId name, canLogin := true, isSuperuser, inherits := true, memberOf,
    canAdministerMembership := [], canInheritFrom := memberOf, canSetRoleTo := memberOf }

/-- A cluster where `b` is a member of `a`. -/
def memberOfA : DbCache where
  roles := ((AList.singleton (roleId "a") (loginRole "a" false [])).insert (roleId "b")
    (loginRole "b" false [roleId "a"])).insert (roleId "postgres") (loginRole "postgres" true [])
  roleMembershipGrantors := [⟨roleId "b", roleId "a", roleId "postgres", false, true, true⟩]
  roleMembershipGrantorsComplete := true

def createdC : AnalysisState :=
  ((memberOfA.withBaseline cluster).applyRoleStatement (createNamed "c")).2

/-- `GRANT b TO c` -/
def grantBToC : RoleStatement := .grant { roles := ["b"], grantees := [.named "c" false] }

theorem accepted_roles_stay_acyclic_granted :
    (∀ id, ¬TransGen (createdC.applyRoleStatement grantBToC).2.MemberOf id id) ∧
      (∀ r ∈ (createdC.applyRoleStatement grantBToC).2.roleMembershipGrantors,
        (createdC.applyRoleStatement grantBToC).2.MemberOf r.member r.role) ∧
      ∀ id role, (createdC.applyRoleStatement grantBToC).2.roleAt id = some role →
        role.memberOf.Nodup :=
  accepted_roles_stay_acyclic memberOfA cluster _ (by decide +kernel) rfl
    (.step grantBToC (.step (createNamed "c") .start trivial (Prod.ext (by decide +kernel) rfl))
      trivial (Prod.ext (by decide +kernel) rfl))

end Cluster

end Baseline

end SafeMigrate
