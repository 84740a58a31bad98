import SafeMigrate.CoveredWrites
import SafeMigrate.RoleRuns

/-! `CREATE ROLE`, `DROP ROLE`, and `GRANT` and `REVOKE` of roles push the entries
that restore what they change. A revoke takes its snapshot of the records only
where one of them is going to change. -/

namespace SafeMigrate

open Command AnalysisState RoleMembershipGrantor

variable {cells : List Cell} {s t : AnalysisState}

section Fields

theorem LoggedCovering.putRole (h : LoggedCovering cells s t) {id : ObjectId}
    (hc : .role id ∈ cells) (role : RoleOverlay) :
    LoggedCovering cells s (t.setRoles (t.roles.insert id role)) :=
  h.write { AgreeOutside.refl cells t.logged with
    roles := fun k hk => (AList.lookup_insert_ne fun he => hk (by rwa [he])).symm } rfl

theorem LoggedCovering.modifyRole (h : LoggedCovering cells s t) {id : ObjectId}
    (hc : .role id ∈ cells) (f : RoleState → RoleState) :
    LoggedCovering cells s (t.modifyRole id f) := by
  unfold AnalysisState.modifyRole
  split
  · exact h.putRole hc _
  · exact h

theorem LoggedCovering.reconcile (h : LoggedCovering cells s t) {member : ObjectId}
    (hc : .role member ∈ cells) :
    LoggedCovering cells s (t.reconcileMembershipProjection member) := by
  unfold reconcileMembershipProjection
  split
  · exact h.modifyRole hc _
  · exact h

theorem LoggedCovering.setRoleMembershipGrantors (h : LoggedCovering cells s t)
    (hc : .roleMembershipGrantors ∈ cells) (records : List RoleMembershipGrantor) :
    LoggedCovering cells s (t.setRoleMembershipGrantors records) :=
  h.write { AgreeOutside.refl cells t.logged with
    roleMembershipGrantors := fun hg => absurd hc hg } rfl

theorem LoggedCovering.forgetRoleMembershipGrantors (h : LoggedCovering cells s t)
    (hc : .roleMembershipGrantors ∈ cells) :
    LoggedCovering cells s t.forgetRoleMembershipGrantors :=
  h.write { AgreeOutside.refl cells t.logged with
    roleMembershipGrantors := fun hg => absurd hc hg } rfl

end Fields

namespace AnalysisState

variable (s : AnalysisState)

theorem covering_snapshotRoleMembershipGrantors :
    LoggedCovering [.roleMembershipGrantors] s s.snapshotRoleMembershipGrantors :=
  logged_of_records .roleMembershipGrantors

theorem logged_updateRole (id : ObjectId) (f : RoleState → RoleState) :
    Logged s ((s.snapshotRole id).modifyRole id f) :=
  ((s.covering_snapshotRole id).modifyRole (List.mem_singleton_self _) f).logged

theorem logged_reconcile (member : ObjectId) :
    Logged s ((s.snapshotRole member).reconcileMembershipProjection member) :=
  ((s.covering_snapshotRole member).reconcile (List.mem_singleton_self _)).logged

end AnalysisState

section Grant

variable (hc : .roleMembershipGrantors ∈ cells)
include hc

theorem covered_grantRecord (options : MembershipOptions) (grantor member parent : ObjectId)
    (s : AnalysisState) : StaysCovered cells s (s.grantRecord options grantor member parent) := by
  unfold grantRecord
  exact keeps_ite (fun _ _ hr => hr.setRoleMembershipGrantors hc _)
    fun _ _ hr => hr.setRoleMembershipGrantors hc _

theorem covered_grantLegacyRecord (options : MembershipOptions) (grantor member parent : ObjectId)
    (s : AnalysisState) :
    StaysCovered cells s (s.grantLegacyRecord options grantor member parent) := by
  unfold grantLegacyRecord
  exact keeps_ite (fun _ => Std.Refl.refl s) fun _ _ hr => hr.setRoleMembershipGrantors hc _

end Grant

theorem logged_grantLegacyMembers (version : Nat) (options : MembershipOptions)
    (grantees parents : List ObjectId) (s : AnalysisState) :
    Logged s (grantLegacyMembers version options grantees parents s) :=
  Logged.foldl (fun s member => s.logged_updateRole member _) _ s

namespace GrantRoles

variable {grant : GrantRoles}

theorem logged_write (options : MembershipOptions) (grantees : List ObjectId) (s : AnalysisState) :
    Logged s (grant.write options grantees s) := by
  have hopen := s.covering_snapshotRoleMembershipGrantors
  have hrecords : .roleMembershipGrantors ∈ [Cell.roleMembershipGrantors] := List.mem_singleton_self _
  unfold write
  dsimp only
  split
  · split
    · refine Logged.trans ?_ (Logged.foldl (fun s member => s.logged_reconcile member) _ _)
      exact hopen.close (keeps_foldl _ (fun pair _ u =>
        covered_grantRecord hrecords options _ pair.1 pair.2 u) _)
    · refine Logged.trans ?_ (logged_grantLegacyMembers _ options grantees grant.parents _)
      exact hopen.close (keeps_foldl _ (fun pair _ u =>
        covered_grantLegacyRecord hrecords options _ pair.1 pair.2 u) _)
  · exact (hopen.forgetRoleMembershipGrantors hrecords).logged.trans
      (logged_grantLegacyMembers _ options grantees grant.parents _)

theorem keeps_collectOption {R : AnalysisState → AnalysisState → Prop} [KeepsEvidence R]
    (options : MembershipOptions) (option : RoleMembershipOptionFact) :
    Keeps R (collectOption options option) := by
  cases option <;> exact Keeps.bind (keeps_leaveUnresolvedIf _ _) fun _ => Keeps.pure _

end GrantRoles

theorem keeps_checkRoleFacts {R : AnalysisState → AnalysisState → Prop} [KeepsEvidence R]
    (facts : List RoleFact) : Keeps R (checkRoleFacts facts) := by
  induction facts with
  | nil => exact Keeps.pure _
  | cons fact facts ih =>
    exact Keeps.bind (keeps_checkRoleFact fact) fun _ => Keeps.bind ih fun _ => Keeps.pure _

theorem keeps_checkCycles {R : AnalysisState → AnalysisState → Prop} [KeepsEvidence R]
    (s : AnalysisState) (proposed pairs : List (ObjectId × ObjectId)) :
    Keeps R (checkCycles s proposed pairs) := by
  induction pairs generalizing proposed with
  | nil => exact Keeps.pure _
  | cons pair pairs ih => exact Keeps.bind (keeps_refuseIf _ _) fun _ => ih _

theorem GrantRoles.logged_command (grant : GrantRoles) : Keeps Logged grant.command := by
  refine Keeps.bind (Keeps.forM _ keeps_checkRoleTarget) fun _ => ?_
  refine Keeps.bind (keeps_checkRoleFacts _) fun grantees => ?_
  refine Keeps.bind (keeps_checkGrantedBy _) fun _ => Keeps.bind (keeps_taintIf _ _ _) fun _ => ?_
  refine Keeps.bind (keeps_checkMembershipOptions _) fun _ => ?_
  refine Keeps.bind (keeps_checkMembershipAuthority _ _ _) fun _ => ?_
  refine Keeps.bind (Keeps.foldlM _ _ keeps_collectOption) fun options => ?_
  refine Keeps.bind (keeps_leaveUnresolvedIf _ _) fun _ => ?_
  refine Keeps.bind (keeps_leaveUnresolvedIf _ _) fun _ => Keeps.bind Keeps.get fun s => ?_
  refine Keeps.bind (keeps_checkCycles _ _ _) fun _ => ?_
  exact Keeps.bind (Keeps.modify (logged_write options grantees)) fun _ => Keeps.pure _

section Cascade

namespace AnalysisState

/-- The records change under their own entry, a role under one pushed between. -/
theorem covered_removeMembershipRecord (hc : .roleMembershipGrantors ∈ cells)
    (r : RoleMembershipGrantor) (s : AnalysisState) :
    StaysCovered cells s (s.removeMembershipRecord r) := by
  intro v hv
  have hopen := hv.trans (s.covering_snapshotRole r.member)
  have hcells : cells ⊆ cells ++ [.role r.member] := List.subset_append_left _ _
  unfold removeMembershipRecord
  dsimp only
  exact ((hopen.setRoleMembershipGrantors (hcells hc) _).reconcile (by simp)).weaken hcells

theorem covered_removeMembership (hc : .roleMembershipGrantors ∈ cells)
    (membership : ObjectId × ObjectId) (s : AnalysisState) :
    StaysCovered cells s (s.removeMembership membership) := by
  intro v hv
  unfold removeMembership
  dsimp only
  exact (hv.then (s.logged_updateRole membership.1 _)).setRoleMembershipGrantors hc _

variable (s : AnalysisState)

theorem logged_cascadeMembershipsGrantedBy (initialGrantors : List ObjectId) :
    Logged s (s.cascadeMembershipsGrantedBy initialGrantors) :=
  Logged.ite (fun _ => Logged.refl s) fun _ =>
    s.covering_snapshotRoleMembershipGrantors.close (keeps_foldl _
      (fun r _ u => covered_removeMembershipRecord (List.mem_singleton_self _) r u) _)

theorem logged_cascadeRoleMemberships (initialGrantors : List ObjectId) :
    Logged s (s.cascadeRoleMemberships initialGrantors) :=
  Logged.ite (fun _ => Logged.refl s) fun _ =>
    s.covering_snapshotRoleMembershipGrantors.close (keeps_foldl _
      (fun membership _ u => covered_removeMembership (List.mem_singleton_self _) membership u) _)

end AnalysisState

end Cascade

namespace RevokeRoles

variable {revoke : RevokeRoles}

section Records

theorem covered_revokeRecord (hc : .roleMembershipGrantors ∈ cells) (part : RevokedPart)
    (grantor : ObjectId) (progress : AnalysisState × List ObjectId) (pair : ObjectId × ObjectId) :
    StaysCovered cells progress.1 (revoke.revokeRecord part grantor progress pair).1 := by
  have hwrite (records : List RoleMembershipGrantor) : StaysCovered cells progress.1
      (((progress.1.setRoleMembershipGrantors records).snapshotRole
        pair.1).reconcileMembershipProjection pair.1) :=
    fun r hr => (hr.setRoleMembershipGrantors hc records).then (logged_reconcile _ pair.1)
  unfold revokeRecord
  dsimp only
  split
  · exact Std.Refl.refl _
  · cases part with
    | adminOption =>
      dsimp only
      split
      · exact hwrite _
      · exact Std.Refl.refl _
    | inheritOption => exact hwrite _
    | setOption => exact hwrite _
    | membership => exact hwrite _

/-- Without a record of one of the memberships the loop does nothing. -/
theorem revokeRecords_of_none {part : RevokedPart} {grantor : ObjectId} {s : AnalysisState}
    {pairs : List (ObjectId × ObjectId)}
    (h : ∀ pair ∈ pairs, s.roleMembershipGrantors.any (isFor pair.1 pair.2 grantor) = false) :
    pairs.foldl (revoke.revokeRecord part grantor) (s, []) = (s, []) := by
  induction pairs with
  | nil => rfl
  | cons pair pairs ih =>
    have hnone : s.roleMembershipGrantors.find? (isFor pair.1 pair.2 grantor) = none := by
      rw [List.find?_eq_none]
      simpa using h pair List.mem_cons_self
    have hstep : revoke.revokeRecord part grantor (s, []) pair = (s, []) := by
      unfold revokeRecord
      dsimp only
      rw [hnone]
    rw [List.foldl_cons, hstep]
    exact ih fun other hother => h other (List.mem_cons_of_mem _ hother)

theorem logged_writeRecords (part : RevokedPart) (grantor : ObjectId) (revokees : List ObjectId)
    (s : AnalysisState) : Logged s (revoke.writeRecords part grantor revokees s) := by
  have hend (progress : AnalysisState × List ObjectId) : Logged progress.1
      (if revoke.cascade && !progress.2.isEmpty then
        progress.1.cascadeMembershipsGrantedBy progress.2 else progress.1) :=
    Logged.ite (fun _ => logged_cascadeMembershipsGrantedBy _ _) fun _ => Logged.refl _
  unfold writeRecords
  dsimp only
  split
  · refine Logged.trans ?_ (hend _)
    exact s.covering_snapshotRoleMembershipGrantors.close (keeps_foldl_of Prod.fst _ (fun pair _ acc =>
      covered_revokeRecord (List.mem_singleton_self _) part grantor acc pair)
        (s.snapshotRoleMembershipGrantors, []))
  · rename_i hnone
    have hnone (pair : ObjectId × ObjectId)
        (hpair : pair ∈ membershipPairs revokees revoke.parents) :
        s.roleMembershipGrantors.any (isFor pair.1 pair.2 grantor) = false :=
      Bool.eq_false_iff.mpr fun hany => hnone (List.any_eq_true.mpr ⟨pair, hpair, hany⟩)
    rw [revokeRecords_of_none hnone]
    exact hend (s, [])

end Records

section Legacy

/-- Whether the revoke of the memberships of one member changes the records. -/
def touchesRecords (revoke : RevokeRoles) (part : RevokedPart) (s : AnalysisState)
    (member : ObjectId) : Prop :=
  part = .membership ∧ ∃ r ∈ s.roleMembershipGrantors, r.member = member ∧ r.role ∈ revoke.parents

theorem covered_revokeLegacyMember (hc : .roleMembershipGrantors ∈ cells) (part : RevokedPart)
    (progress : AnalysisState × List ObjectId) (member : ObjectId) :
    StaysCovered cells progress.1 (revoke.revokeLegacyMember part progress member).1 := by
  intro r hr
  have hupdated := hr.then (progress.1.logged_updateRole member fun role =>
    revoke.parents.foldl (withoutPart part) role)
  unfold revokeLegacyMember
  dsimp only
  split
  · dsimp only
    split
    · exact hupdated.setRoleMembershipGrantors hc _
    · exact hupdated
  · exact hr.then (progress.1.covering_snapshotRole member).logged

theorem modifyRole_roleMembershipGrantors (s : AnalysisState) (id : ObjectId)
    (f : RoleState → RoleState) :
    (s.modifyRole id f).roleMembershipGrantors = s.roleMembershipGrantors := by
  unfold AnalysisState.modifyRole
  split <;> rfl

/-- Where no record is touched the loop needs no entry for the records. -/
theorem logged_revokeLegacyMember {part : RevokedPart} {progress : AnalysisState × List ObjectId}
    {member : ObjectId} (h : ¬touchesRecords revoke part progress.1 member) :
    Logged progress.1 (revoke.revokeLegacyMember part progress member).1 ∧
      (revoke.revokeLegacyMember part progress member).1.roleMembershipGrantors =
        progress.1.roleMembershipGrantors := by
  have hsnapshot : (progress.1.snapshotRole member).roleMembershipGrantors =
      progress.1.roleMembershipGrantors := (SameContents.pushUndo _ _).roleMembershipGrantors
  have hupdated := progress.1.logged_updateRole member fun role =>
    revoke.parents.foldl (withoutPart part) role
  have hrecords := modifyRole_roleMembershipGrantors (progress.1.snapshotRole member) member fun role =>
    revoke.parents.foldl (withoutPart part) role
  rw [hsnapshot] at hrecords
  unfold revokeLegacyMember
  dsimp only
  split
  · dsimp only
    split
    · rename_i hpart
      have hkept : progress.1.roleMembershipGrantors.filter (fun r =>
          !(r.member == member && decide (r.role ∈ revoke.parents))) =
            progress.1.roleMembershipGrantors := by
        rw [List.filter_eq_self]
        intro r hr
        have hno : ¬(r.member = member ∧ r.role ∈ revoke.parents) := fun hboth => h ⟨hpart, r, hr, hboth⟩
        simpa [imp_iff_not_or] using hno
      rw [hrecords, hkept]
      refine ⟨?_, rfl⟩
      rw [← hrecords]
      exact hupdated
    · exact ⟨hupdated, hrecords⟩
  · exact ⟨(progress.1.covering_snapshotRole member).logged, hsnapshot⟩

theorem logged_revokeLegacyMembers {part : RevokedPart} {revokees : List ObjectId}
    (progress : AnalysisState × List ObjectId)
    (h : ∀ member ∈ revokees, ¬touchesRecords revoke part progress.1 member) :
    Logged progress.1 (revokees.foldl (revoke.revokeLegacyMember part) progress).1 := by
  induction revokees generalizing progress with
  | nil => exact Logged.refl _
  | cons member revokees ih =>
    obtain ⟨hlogged, hrecords⟩ := logged_revokeLegacyMember (h member List.mem_cons_self)
    refine hlogged.trans (ih _ fun other hother htouch => ?_)
    unfold touchesRecords at htouch
    rw [hrecords] at htouch
    exact h other (List.mem_cons_of_mem _ hother) htouch

theorem logged_writeLegacy (part : RevokedPart) (revokees : List ObjectId) (s : AnalysisState) :
    Logged s (revoke.writeLegacy part revokees s) := by
  have hend (progress : AnalysisState × List ObjectId) : Logged progress.1
      (if revoke.cascade && !progress.2.isEmpty then
        progress.1.cascadeRoleMemberships progress.2 else progress.1) :=
    Logged.ite (fun _ => logged_cascadeRoleMemberships _ _) fun _ => Logged.refl _
  unfold writeLegacy
  dsimp only
  refine Logged.trans ?_ (hend _)
  split
  · exact s.covering_snapshotRoleMembershipGrantors.close (keeps_foldl_of Prod.fst _
      (fun member _ acc => covered_revokeLegacyMember (List.mem_singleton_self _) part acc member)
        (s.snapshotRoleMembershipGrantors, _))
  · rename_i huntouched
    refine logged_revokeLegacyMembers (s, _) fun member hmember htouch => huntouched ?_
    obtain ⟨rfl, r, hr, rfl, hrole⟩ := htouch
    have hany : (s.roleMembershipGrantors.any fun r =>
        decide (r.member ∈ revokees) && decide (r.role ∈ revoke.parents)) = true :=
      List.any_eq_true.mpr ⟨r, hr, by simp [hmember, hrole]⟩
    have hsome : revokees.isEmpty = false := by
      cases revokees with
      | nil => cases hmember
      | cons _ _ => rfl
    simp [hany, hsome]

end Legacy

theorem logged_write (part : RevokedPart) (revokees : List ObjectId) (s : AnalysisState) :
    Logged s (revoke.write part revokees s) := by
  unfold write
  split
  · exact Logged.ite (fun _ => logged_writeRecords part _ revokees s)
      fun _ => logged_writeLegacy part revokees s
  · exact logged_writeLegacy part revokees s

theorem logged_command (revoke : RevokeRoles) : Keeps Logged revoke.command := by
  refine Keeps.bind (Keeps.forM _ keeps_checkRoleTarget) fun _ => ?_
  refine Keeps.bind (keeps_checkRoleFacts _) fun revokees => ?_
  refine Keeps.bind (keeps_checkGrantedBy _) fun _ => Keeps.bind (keeps_taintIf _ _ _) fun _ => ?_
  refine Keeps.bind (keeps_checkMembershipOptions _) fun _ => Keeps.bind Keeps.get fun s => ?_
  refine Keeps.bind (keeps_taintIf _ _ _) fun _ => ?_
  refine Keeps.bind (keeps_checkMembershipAuthority _ _ _) fun _ => Keeps.bind ?_ fun part => ?_
  · unfold revokedPart
    split
    · exact Keeps.pure _
    · exact Keeps.pure _
    · exact Keeps.pure _
    · exact Keeps.pure _
    · exact keeps_leaveUnresolved _
  · refine Keeps.bind Keeps.get fun s => Keeps.bind (keeps_taintIf _ _ _) fun _ => ?_
    refine Keeps.bind (keeps_leaveUnresolvedIf _ _) fun _ => ?_
    exact Keeps.bind (Keeps.modify (logged_write part revokees)) fun _ => Keeps.pure _

end RevokeRoles

theorem CreateRole.logged_command (create : CreateRole) : Keeps Logged create.command := by
  refine Keeps.bind Keeps.get fun s => Keeps.bind (keeps_refuseIf _ _) fun _ => ?_
  refine Keeps.bind (keeps_taintIf _ _ _) fun _ => Keeps.bind (Keeps.modify fun s => ?_)
    fun _ => Keeps.pure _
  have hopen := (s.covering_snapshotRole (roleId create.name)).then (logged_bumpGeneration _)
  exact (hopen.putRole (List.mem_singleton_self _) _).logged

theorem DropRole.logged_command (drop : DropRole) : Keeps Logged drop.command := by
  refine Keeps.bind (Keeps.foldlM _ _ (keeps_scanRole drop)) fun present => Keeps.bind Keeps.get fun s => ?_
  refine Keeps.bind (keeps_leaveUnresolvedIf _ _) fun _ => Keeps.bind (Keeps.modify fun s => ?_)
    fun _ => Keeps.pure _
  exact Logged.foldl (fun s id =>
    ((s.covering_snapshotRole id).putRole (List.mem_singleton_self _) .dropped).logged) present s

theorem logged_applyRoleStatement (s : AnalysisState) (statement : RoleStatement) :
    Logged s (s.applyRoleStatement statement).2 := by
  cases statement with
  | create fact => exact fact.logged_command.outcome s
  | drop fact => exact fact.logged_command.outcome s
  | grant fact => exact fact.logged_command.outcome s
  | revoke fact => exact fact.logged_command.outcome s

end SafeMigrate
