import SafeMigrate.RoleWithdrawals

/-! Runs of role statements from an empty membership set: in which of them every
grantor keeps its authority. -/

namespace SafeMigrate

open Command AnalysisState KeyedList RoleMembershipGrantor

namespace AnalysisState

/-- No record, and no membership in the list of any present role. -/
def NoMemberships (s : AnalysisState) : Prop :=
  s.roleMembershipGrantors = [] ∧ ∀ id role, s.roleAt id = some role → role.memberOf = [] ∧
    role.canAdministerMembership = [] ∧ role.canInheritFrom = [] ∧ role.canSetRoleTo = []

/-- What a statement must not do for authority to last. -/
def SparesAuthority (s : AnalysisState) : RoleStatement → Prop
  | .grant fact => fact.SparesAuthority s
  | .revoke fact => fact.SparesAuthority s
  | .create _ | .drop _ => True

end AnalysisState

/-- A run of role statements that are applied and meet the condition, each in the
state before it. -/
inductive RoleRun (condition : AnalysisState → RoleStatement → Prop) (s : AnalysisState) :
    AnalysisState → Prop
  | start : RoleRun condition s s
  | step {t u : AnalysisState} (statement : RoleStatement) : RoleRun condition s t →
      condition t statement → t.applyRoleStatement statement = (.applied, u) →
        RoleRun condition s u

section Create

variable {s t : AnalysisState} {create : CreateRole}

theorem declines_create (create : CreateRole) : Declines create.command := by
  refine Declines.bind declines_get fun _ => Declines.bind (declines_refuseIf _ _) fun _ => ?_
  refine Declines.bind (declines_taintIf _ _ _) fun _ => ?_
  exact Declines.bind (declines_modify _) fun _ => declines_pure _

theorem create_applied (h : create.command.outcome s = (.applied, t)) :
    ∃ u, SameContents s u ∧ t = create.write u ∧ s.roleAt (roleId create.name) = none := by
  obtain ⟨_, _, hget, h₁⟩ := exists_run_of_bind (ran_of_outcome (declines_create create) h)
  cases hget
  obtain ⟨_, _, hrefuse, h₂⟩ := exists_run_of_bind h₁
  obtain ⟨rfl, habsent⟩ := refuseIf_ok hrefuse
  obtain ⟨_, u, htaint, h₃⟩ := exists_run_of_bind h₂
  have hu : SameContents _ u := .of_check (keeps_taintIf _ _ _) htaint
  obtain ⟨_, _, hmodify, hpure⟩ := exists_run_of_bind h₃
  cases hmodify
  cases hpure
  refine ⟨u, hu, rfl, ?_⟩
  unfold roleAt
  unfold roleLookup at habsent
  split
  · rename_i hlookup
    rw [hlookup] at habsent
    exact absurd rfl habsent
  · rfl

/-- A new role is a member of nothing, and nothing is recorded for it. -/
theorem create_inOrder (hs : s.MembershipsInOrder)
    (h : create.command.outcome s = (.applied, t)) : t.MembershipsInOrder := by
  obtain ⟨u, hu, rfl, habsent⟩ := create_applied h
  have hbase : SameContents s (u.snapshotRole (roleId create.name)).bumpGeneration :=
    (hu.trans (.pushUndo u _)).trans (.bumpGeneration _)
  have hrecords : (create.write u).roleMembershipGrantors = s.roleMembershipGrantors :=
    hbase.roleMembershipGrantors
  have hroles : ∀ id, id ≠ roleId create.name → (create.write u).roleAt id = s.roleAt id := by
    intro id hid
    refine (roleAt_insert _ _ id _).trans ?_
    rw [if_neg hid, hbase.roleAt]
  have hmember : ∀ r ∈ s.roleMembershipGrantors, r.member ≠ roleId create.name := by
    intro r hr heq
    have hpresent := hs.present r hr
    rw [heq, habsent] at hpresent
    cases hpresent
  refine ⟨by rw [hrecords]; exact hs.distinct, fun r hr => ?_, fun r hr => ?_, fun id => ?_, ?_⟩
  · rw [hrecords] at hr
    rw [hroles _ (hmember r hr)]
    exact hs.present r hr
  · rw [hrecords] at hr
    refine (hs.authorized r hr).imp (fun hsupreme => ?_) fun hadmin => by rwa [hrecords]
    rcases hsupreme with ⟨role, hrole, hsuper⟩ | hboot
    · refine Or.inl ⟨role, ?_, hsuper⟩
      rw [hroles]
      · exact hrole
      · intro heq
        rw [heq, habsent] at hrole
        cases hrole
    · refine Or.inr ?_
      rw [← hboot]
      exact congrArg _ hbase.bootstrapSuperuser
  · by_cases hid : id = roleId create.name
    · intro role hrole
      have hnew := (roleAt_insert _ _ _ _).symm.trans hrole
      rw [if_pos hid] at hnew
      obtain rfl := Option.some.inj hnew
      have hnone : ∀ keep x, x ∉ project s.roleMembershipGrantors id keep := by
        intro keep x hx
        obtain ⟨r, hr, hm, -, -⟩ := mem_project.mp hx
        exact hmember r hr (hm.trans hid)
      refine ⟨fun x => ?_, fun x => ?_, fun x => ?_, fun x => ?_⟩ <;>
        exact iff_of_false List.not_mem_nil (by rw [hrecords]; exact hnone _ x)
    · exact (hs.projected id).congr (hroles id hid) fun r _ => by rw [hrecords]
  · rw [hrecords]
    exact hs.acyclic

theorem noMoreKnown_create (h : create.command.outcome s = (.applied, t)) : NoMoreKnown s t := by
  obtain ⟨u, hu, rfl, -⟩ := create_applied h
  refine IsTrans.trans _ _ _ (noMoreKnown_of_contents ((hu.trans (.pushUndo u _)).trans
    (.bumpGeneration _))) ⟨rfl, id⟩

end Create

section Drop

variable {s t : AnalysisState} {drop : DropRole}

theorem keeps_scanRole {R : AnalysisState → AnalysisState → Prop} [KeepsEvidence R]
    (drop : DropRole) (present : List ObjectId) (name : String) :
    Keeps R (drop.scanTarget present name) := by
  refine Keeps.bind Keeps.get fun s => ?_
  split
  · exact Keeps.pure _
  · exact keeps_leaveUnresolved _
  · exact Keeps.ite (fun _ => Keeps.pure _) fun _ => keeps_refuse _

theorem declines_drop (drop : DropRole) : Declines drop.command := by
  refine Declines.bind (Throws.foldlM _ _ fun present name => ?_) fun _ => ?_
  · refine Declines.bind declines_get fun s => ?_
    split
    · exact declines_pure _
    · exact declines_leaveUnresolved _
    · exact Throws.ite (fun _ => declines_pure _) fun _ => declines_refuse _
  · refine Declines.bind declines_get fun _ => Declines.bind (declines_leaveUnresolvedIf _ _) ?_
    exact fun _ => Declines.bind (declines_modify _) fun _ => declines_pure _

theorem drop_applied (h : drop.command.outcome s = (.applied, t)) :
    ∃ u present, SameContents s u ∧ (s.rolesKnown = true → present = []) ∧
      t = present.foldl (fun s id =>
        (s.snapshotRole id).setRoles ((s.snapshotRole id).roles.insert id .dropped)) u := by
  obtain ⟨present, u, hscan, h₁⟩ := exists_run_of_bind (ran_of_outcome (declines_drop drop) h)
  have hu : SameContents s u :=
    .of_check (Keeps.foldlM _ _ fun present name => keeps_scanRole drop present name) hscan
  obtain ⟨_, _, hget, h₂⟩ := exists_run_of_bind h₁
  cases hget
  obtain ⟨_, _, hleave, h₃⟩ := exists_run_of_bind h₂
  obtain ⟨rfl, hnone⟩ := leaveUnresolvedIf_ok hleave
  obtain ⟨_, _, hmodify, hpure⟩ := exists_run_of_bind h₃
  cases hmodify
  cases hpure
  refine ⟨_, present, hu, fun hknown => ?_, rfl⟩
  by_contra hne
  exact hnone ⟨hu.rolesKnown.trans hknown, hne⟩

theorem noMoreKnown_drop (h : drop.command.outcome s = (.applied, t)) : NoMoreKnown s t := by
  obtain ⟨u, present, hu, -, rfl⟩ := drop_applied h
  refine IsTrans.trans _ _ _ (noMoreKnown_of_contents hu) (keeps_foldl _ (fun role _ s => ?_) u)
  exact IsTrans.trans _ _ _ (noMoreKnown_of_contents (.pushUndo s _)) ⟨rfl, id⟩

/-- Where all roles are known, an applied drop has dropped nothing. -/
theorem drop_inOrder (hs : s.MembershipsInOrder) (hknown : s.rolesKnown = true)
    (h : drop.command.outcome s = (.applied, t)) : t.MembershipsInOrder := by
  obtain ⟨u, present, hu, hpresent, rfl⟩ := drop_applied h
  rw [hpresent hknown]
  exact MembershipsInOrder.of_contents hs hu

end Drop

section Runs

variable {s t : AnalysisState}

theorem noMoreKnown_roleStatement {statement : RoleStatement}
    (h : s.applyRoleStatement statement = (.applied, t)) : NoMoreKnown s t := by
  cases statement with
  | create fact => exact noMoreKnown_create h
  | drop fact => exact noMoreKnown_drop h
  | grant fact =>
    obtain ⟨options, u, hu, rfl, -⟩ := grant_applied h
    exact IsTrans.trans _ _ _ (noMoreKnown_of_contents hu) (noMoreKnown_grantWrite _ _ _ _)
  | revoke fact =>
    obtain ⟨part, u, hu, rfl, -⟩ := RevokeRoles.revoke_applied h
    exact IsTrans.trans _ _ _ (noMoreKnown_of_contents hu)
      (RevokeRoles.noMoreKnown_revokeWrite _ _ _)

theorem roleStatement_inOrder {statement : RoleStatement} (hs : s.MembershipsInOrder)
    (hspares : s.SparesAuthority statement)
    (h : s.applyRoleStatement statement = (.applied, t)) (hknown : t.FactsKnown) :
    t.MembershipsInOrder := by
  have hbefore : s.rolesKnown = true := (noMoreKnown_roleStatement h).roles ▸ hknown.1
  cases statement with
  | create fact => exact create_inOrder hs h
  | drop fact => exact drop_inOrder hs hbefore h
  | grant fact => exact grant_inOrder hs hspares h hknown hbefore
  | revoke fact => exact RevokeRoles.revoke_inOrder hs hspares h hknown

theorem NoMemberships.inOrder (h : s.NoMemberships) : s.MembershipsInOrder := by
  obtain ⟨hrecords, hroles⟩ := h
  refine ⟨by rw [hrecords]; exact List.nodup_nil, by simp [hrecords], by simp [hrecords],
    fun id role hrole => ?_, fun id hcycle => ?_⟩
  · obtain ⟨hmember, hadmin, hinherit, hset⟩ := hroles id role hrole
    constructor <;> simp [project, retainUnseen, hrecords, hmember, hadmin, hinherit, hset]
  · obtain ⟨b, ⟨r, hr, -⟩, -⟩ := Relation.TransGen.head'_iff.mp hcycle
    rw [hrecords] at hr
    cases hr

/-- From an empty membership set, authority, projections and acyclicity last over
every run whose grants and revokes leave no grantor without authority. -/
theorem roleRun_inOrder (hstart : s.NoMemberships)
    (hrun : RoleRun AnalysisState.SparesAuthority s t) (hknown : t.FactsKnown) :
    t.MembershipsInOrder := by
  induction hrun with
  | start => exact NoMemberships.inOrder hstart
  | step _ hrun hspares happlied ih =>
    have hless := noMoreKnown_roleStatement happlied
    exact roleStatement_inOrder (ih ⟨hless.roles ▸ hknown.1, hless.complete hknown.2⟩) hspares
      happlied hknown

end Runs

section Cluster

/-- PostgreSQL 16 with nothing but its bootstrap superuser. -/
def cluster : AnalysisState :=
  { roles := AList.singleton (roleId "postgres") (.present
      { id := roleId "postgres", canLogin := true, isSuperuser := true, inherits := true,
        memberOf := [], canAdministerMembership := [], canInheritFrom := [], canSetRoleTo := [] }),
    rolesKnown := true, roleMembershipGrantorsComplete := true, pgVersionNum := some 160000,
    currentRole := "postgres", currentRoleKnown := true, bootstrapSuperuser := some "postgres" }

def createNamed (name : String) : RoleStatement := .create ⟨name, true, false⟩

/-- `GRANT a TO b WITH ADMIN OPTION` -/
def grantToB : RoleStatement :=
  .grant { roles := ["a"], grantees := [.named "b" false], roleOptions := [.admin true] }

/-- `GRANT a TO c GRANTED BY b` -/
def grantToC : RoleStatement :=
  .grant { roles := ["a"], grantees := [.named "c" false], grantedBy := some (.named "b" false) }

/-- `REVOKE ADMIN OPTION FOR a FROM b` -/
def revokeFromB (cascade : Bool) : RoleStatement :=
  .revoke
    { roles := ["a"], revokees := [.named "b" false], roleOption := some (.admin false), cascade }

def rolesCreated : AnalysisState :=
  ["a", "b", "c"].foldl (fun s name => (s.applyRoleStatement (createNamed name)).2) cluster

def grantedToB : AnalysisState := (rolesCreated.applyRoleStatement grantToB).2

def grantedToC : AnalysisState := (grantedToB.applyRoleStatement grantToC).2

def revokedFromB (cascade : Bool) : AnalysisState :=
  (grantedToC.applyRoleStatement (revokeFromB cascade)).2

theorem cluster_noMemberships : cluster.NoMemberships := by
  refine ⟨rfl, fun id role hrole => ?_⟩
  by_cases hid : id = roleId "postgres"
  · subst hid
    have hpresent : cluster.roleAt (roleId "postgres") = some
        { id := roleId "postgres", canLogin := true, isSuperuser := true, inherits := true,
          memberOf := [], canAdministerMembership := [], canInheritFrom := [],
          canSetRoleTo := [] } := by decide +kernel
    rw [hpresent] at hrole
    obtain rfl := Option.some.inj hrole
    exact ⟨rfl, rfl, rfl, rfl⟩
  · unfold roleAt at hrole
    rw [show cluster.roles.lookup id = none from
      AList.lookup_eq_none.mpr fun hmem => hid (List.mem_singleton.mp hmem)] at hrole
    cases hrole

theorem rolesCreated_run (condition : AnalysisState → RoleStatement → Prop)
    (hcreate : ∀ s name, condition s (createNamed name)) :
    RoleRun condition cluster rolesCreated := by
  refine .step (createNamed "c") (.step (createNamed "b")
    (.step (createNamed "a") .start (hcreate _ _) (Prod.ext (by decide +kernel) rfl))
      (hcreate _ _) (Prod.ext (by decide +kernel) rfl)) (hcreate _ _)
        (Prod.ext (by decide +kernel) rfl)

/-- With `CASCADE` the membership of `c` goes when `b` loses the ADMIN option. -/
theorem revokedFromB_inOrder : (revokedFromB true).MembershipsInOrder := by
  have hgrantB : rolesCreated.SparesAuthority grantToB := by
    intro grantor hgrantor
    rw [show rolesCreated.roleMembershipGrantor none = some (roleId "postgres") by
      decide +kernel] at hgrantor
    obtain rfl := Option.some.inj hgrantor
    exact ⟨fun _ _ => Or.inl (Or.inr (by decide +kernel)), fun h => absurd h (by decide)⟩
  have hgrantC : grantedToB.SparesAuthority grantToC := by
    intro grantor hgrantor
    rw [show grantedToB.roleMembershipGrantor (some (.named "b" false)) = some (roleId "b") by
      decide +kernel] at hgrantor
    obtain rfl := Option.some.inj hgrantor
    refine ⟨fun parent hparent => Or.inr ?_, fun h => absurd h (by decide)⟩
    rw [List.mem_singleton.mp hparent]
    decide +kernel
  have hrecords : grantedToC.roleMembershipGrantors =
      [⟨roleId "b", roleId "a", roleId "postgres", true, true, true⟩,
        ⟨roleId "c", roleId "a", roleId "b", false, true, true⟩] := by decide +kernel
  have hadmin : ∀ r ∈ grantedToC.roleMembershipGrantors, r.admin = true →
      r.member = roleId "b" ∧ r.role = roleId "a" := by
    rw [hrecords]
    simp
  have hrevoke : grantedToC.SparesAuthority (revokeFromB true) := by
    refine ⟨roleId "postgres", by decide +kernel, fun _ member role hloses => Or.inr ?_⟩
    obtain ⟨rfl, rfl⟩ : member = roleId "b" ∧ role = roleId "a" := by
      cases hloses with
      | revoked hr hoption => exact hadmin _ hr hoption
      | granted _ _ hr hoption => exact hadmin _ hr hoption
    intro r hr hby _
    refine Or.inr ⟨rfl, ?_⟩
    rintro ⟨other, hother, hm, -, hoption, -⟩
    have hr' : r.member = roleId "c" := by
      rw [hrecords] at hr
      rcases List.mem_cons.mp hr with rfl | hr
      · revert hby
        decide
      · rw [List.mem_singleton.mp hr]
    have hsame := (hadmin other hother hoption).1.symm.trans (hm.trans hr')
    revert hsame
    decide
  refine roleRun_inOrder cluster_noMemberships ?_ ⟨by decide +kernel, by decide +kernel⟩
  refine .step (revokeFromB true) (.step grantToC
    (.step grantToB (rolesCreated_run _ fun _ _ => trivial) hgrantB
      (Prod.ext (by decide +kernel) rfl)) hgrantC (Prod.ext (by decide +kernel) rfl)) hrevoke
        (Prod.ext (by decide +kernel) rfl)

/-- Without `CASCADE` the revoke is applied as well, and `c` keeps a membership
whose grantor has no authority any more. -/
theorem revokedFromB_unauthorized : cluster.NoMemberships ∧
    RoleRun (fun _ _ => True) cluster grantedToC ∧
    grantedToC.applyRoleStatement (revokeFromB false) = (.applied, revokedFromB false) ∧
    (revokedFromB false).FactsKnown ∧
    ∃ r ∈ (revokedFromB false).roleMembershipGrantors,
      ¬(revokedFromB false).HasAuthority r.grantor r.role := by
  refine ⟨cluster_noMemberships, ?_, Prod.ext (by decide +kernel) rfl,
    ⟨by decide +kernel, by decide +kernel⟩,
    ⟨roleId "c", roleId "a", roleId "b", false, true, true⟩, by decide +kernel, ?_⟩
  · exact .step grantToC (.step grantToB
      (rolesCreated_run _ fun _ _ => trivial) trivial (Prod.ext (by decide +kernel) rfl)) trivial
        (Prod.ext (by decide +kernel) rfl)
  · rintro ((⟨role, hrole, hsuper⟩ | hboot) | hadmin)
    · have hplain : ((revokedFromB false).roleAt (roleId "b")).map (·.isSuperuser) = some false := by
        decide +kernel
      rw [hrole, Option.map_some, hsuper] at hplain
      cases hplain
    · revert hboot
      decide +kernel
    · revert hadmin
      decide +kernel

end Cluster

end SafeMigrate
