import SafeMigrate.RoleSteps

/-! Memberships in order: every grantor has authority, the roles list what the
records say, and no role is a member of itself. What granting keeps of it. -/

namespace SafeMigrate

open Command AnalysisState KeyedList RoleMembershipGrantor

namespace AnalysisState

def FactsKnown (s : AnalysisState) : Prop :=
  s.rolesKnown = true ∧ s.roleMembershipGrantorsComplete = true

/-- The grantor is supreme, or has the ADMIN option on the role by a record. -/
def HasAuthority (s : AnalysisState) (grantor role : ObjectId) : Prop :=
  s.IsSupreme grantor ∨ holdsAdmin s.roleMembershipGrantors grantor role = true

structure MembershipsInOrder (s : AnalysisState) : Prop where
  distinct : Distinct key s.roleMembershipGrantors
  present : ∀ r ∈ s.roleMembershipGrantors, (s.roleAt r.member).isSome
  authorized : ∀ r ∈ s.roleMembershipGrantors, s.HasAuthority r.grantor r.role
  projected : ∀ id, s.Projected id
  acyclic : ∀ id, ¬Relation.TransGen (Links s.roleMembershipGrantors) id id

/-- The ADMIN option of the record can go: the member is supreme, has another
ADMIN record on the role, or granted nothing on it. -/
def MayLoseAdmin (s : AnalysisState) (member role grantor : ObjectId) : Prop :=
  ∀ r ∈ s.roleMembershipGrantors, r.key = (member, role, grantor) → r.admin = true →
    s.IsSupreme member ∨
      (∃ other ∈ s.roleMembershipGrantors, other.member = member ∧ other.role = role ∧
        other.admin = true ∧ other.grantor ≠ grantor) ∨
      ∀ granted ∈ s.roleMembershipGrantors, granted.role = role → granted.grantor ≠ member

end AnalysisState

/-- The role that the grant is recorded under has authority over each role that
is granted, and no ADMIN option is taken back that other grants rest on. -/
def GrantRoles.SparesAuthority (s : AnalysisState) (grant : GrantRoles) : Prop :=
  ∀ grantor, s.roleMembershipGrantor grant.grantedBy = some grantor →
    (∀ parent ∈ grant.parents, s.HasAuthority grantor parent) ∧
      (.admin false ∈ grant.roleOptions → ∀ member ∈ s.factRoles grant.grantees,
        ∀ parent ∈ grant.parents, s.MayLoseAdmin member parent grantor)

section Congr

variable {s t : AnalysisState}

theorem hasAuthority_congr (h : SameContents s t) {grantor role : ObjectId}
    (hs : s.HasAuthority grantor role) : t.HasAuthority grantor role := by
  refine hs.imp (SameRoles.of_contents h).isSupreme fun hadmin => ?_
  rwa [h.roleMembershipGrantors]

theorem MembershipsInOrder.of_contents (hs : s.MembershipsInOrder) (h : SameContents s t) :
    t.MembershipsInOrder := by
  have hrecords : t.roleMembershipGrantors = s.roleMembershipGrantors :=
    h.roleMembershipGrantors
  have hroles : t.roleAt = s.roleAt := h.roleAt
  refine ⟨?_, ?_, ?_, fun id => ?_, ?_⟩
  · rw [hrecords]
    exact hs.distinct
  · rw [hrecords, hroles]
    exact hs.present
  · intro r hr
    rw [hrecords] at hr
    exact hasAuthority_congr h (hs.authorized r hr)
  · exact (hs.projected id).congr (congrFun hroles id) fun r _ => by rw [hrecords]
  · rw [hrecords]
    exact hs.acyclic

theorem mayLoseAdmin_congr (h : SameContents s t) {member role grantor : ObjectId}
    (hs : s.MayLoseAdmin member role grantor) : t.MayLoseAdmin member role grantor := by
  intro r hr hkey hadmin
  rw [h.roleMembershipGrantors] at hr ⊢
  exact (hs r hr hkey hadmin).imp_left (SameRoles.of_contents h).isSupreme

theorem roleMembershipGrantor_congr (h : SameContents s t) (grantedBy : Option RoleFact) :
    t.roleMembershipGrantor grantedBy = s.roleMembershipGrantor grantedBy := by
  have hpresent : t.presentRole = s.presentRole := h.reads (·.presentRole) fun _ => rfl
  have hcurrent : t.currentRole = s.currentRole := h.currentRole
  have hknown : t.currentRoleKnown = s.currentRoleKnown := h.currentRoleKnown
  have hversion : t.pgVersion = s.pgVersion := h.pgVersion
  have hboot : t.bootstrapSuperuser = s.bootstrapSuperuser := h.bootstrapSuperuser
  unfold AnalysisState.roleMembershipGrantor
  rw [roleFactIdentity_congr h, hpresent, hcurrent, hknown, hversion, hboot]

end Congr

section Grant

variable {s t : AnalysisState} {options : MembershipOptions} {grantor : ObjectId}
  {pairs : List (ObjectId × ObjectId)}

/-- An ADMIN record survives the grant, unless the grant takes its option back. -/
theorem GrantedFrom.admin (h : GrantedFrom s options grantor pairs t) {member role : ObjectId}
    (hadmin : holdsAdmin s.roleMembershipGrantors member role = true) :
    holdsAdmin t.roleMembershipGrantors member role = true ∨
      options.admin = some false ∧ (member, role) ∈ pairs ∧
        ∃ r ∈ s.roleMembershipGrantors, r.key = (member, role, grantor) ∧ r.admin = true := by
  obtain ⟨r, hr, rfl, rfl, hoption⟩ := holdsAdmin_iff.mp hadmin
  obtain ⟨r', hr', hkey, hkept⟩ := h.kept r hr
  rcases hkept hoption with hkept | ⟨hfalse, rfl, hpair⟩
  · obtain ⟨hm, hrest⟩ := Prod.mk.inj hkey
    exact Or.inl (holdsAdmin_iff.mpr ⟨r', hr', hm, (Prod.mk.inj hrest).1, hkept⟩)
  · exact Or.inr ⟨hfalse, hpair, r, hr, rfl, hoption⟩

theorem GrantedFrom.authority (h : GrantedFrom s options grantor pairs t)
    (hspares : options.admin = some false → ∀ pair ∈ pairs, s.MayLoseAdmin pair.1 pair.2 grantor)
    {member role : ObjectId} (hs : s.HasAuthority member role)
    (hrests : member = grantor ∨ ∃ granted ∈ s.roleMembershipGrantors, granted.role = role ∧
      granted.grantor = member) : t.HasAuthority member role := by
  rcases hs with hsupreme | hadmin
  · exact Or.inl (h.same.isSupreme hsupreme)
  rcases h.admin hadmin with hkept | ⟨hfalse, hpair, r, hr, hkey, hoption⟩
  · exact Or.inr hkept
  rcases hspares hfalse _ hpair r hr hkey hoption with hsupreme | hother | hnone
  · exact Or.inl (h.same.isSupreme hsupreme)
  · obtain ⟨other, hmem, rfl, rfl, hotherAdmin, hne⟩ := hother
    obtain ⟨other', hmem', hkey', hkept⟩ := h.kept other hmem
    obtain ⟨hm, hrest⟩ := Prod.mk.inj hkey'
    refine Or.inr (holdsAdmin_iff.mpr ⟨other', hmem', hm, (Prod.mk.inj hrest).1, ?_⟩)
    exact (hkept hotherAdmin).resolve_right fun hlost => hne hlost.2.1
  · rcases hrests with rfl | ⟨granted, hgranted, hrole, hby⟩
    · obtain ⟨-, hrest⟩ := Prod.mk.inj hkey
      obtain ⟨hrole, hby⟩ := Prod.mk.inj hrest
      exact absurd hby (hnone r hr hrole)
    · exact absurd hby (hnone granted hgranted hrole)

theorem links_granted (h : GrantedFrom s options grantor pairs t)
    (hs : s.MembershipsInOrder) {a b : ObjectId} (hlink : Links t.roleMembershipGrantors a b) :
    Proposes s pairs a b := by
  obtain ⟨r', hr', rfl, rfl⟩ := hlink
  rcases h.origin r' hr' with ⟨r, hr, hkey⟩ | ⟨-, hpair⟩
  · obtain ⟨hm, hrest⟩ := Prod.mk.inj hkey
    obtain ⟨role, hrole⟩ := Option.isSome_iff_exists.mp (hs.present r hr)
    refine proposes_iff.mpr (Or.inl ⟨role, by rw [← hm]; exact hrole, ?_⟩)
    refine ((hs.projected _ role hrole).memberOf _).mpr (mem_project.mpr ⟨r, hr, rfl, rfl, ?_⟩)
    exact (Prod.mk.inj hrest).1
  · exact proposes_iff.mpr (Or.inr hpair)

theorem proposes_nil (hs : s.MembershipsInOrder) (id : ObjectId) :
    ¬Relation.TransGen (Proposes s []) id id := by
  refine fun h => hs.acyclic id (Relation.TransGen.mono (fun a b hab => ?_) id id h)
  rcases proposes_iff.mp hab with ⟨role, hrole, hb⟩ | hnone
  · obtain ⟨r, hr, hm, -, hro⟩ := mem_project.mp (((hs.projected a role hrole).memberOf b).mp hb)
    exact ⟨r, hr, hm, hro⟩
  · cases hnone

theorem noMoreKnown_legacyMembers (version : Nat) (options : MembershipOptions)
    (grantees parents : List ObjectId) (s : AnalysisState) :
    NoMoreKnown s (grantLegacyMembers version options grantees parents s) :=
  keeps_foldl _ (fun member _ s => noMoreKnown_modify s member _) s

theorem noMoreKnown_legacyRecord (s : AnalysisState) (options : MembershipOptions)
    (grantor member parent : ObjectId) :
    NoMoreKnown s (s.grantLegacyRecord options grantor member parent) :=
  keeps_ite (fun _ => ⟨rfl, id⟩) fun _ => ⟨rfl, id⟩

theorem noMoreKnown_record (s : AnalysisState) (options : MembershipOptions)
    (grantor member parent : ObjectId) :
    NoMoreKnown s (s.grantRecord options grantor member parent) :=
  keeps_ite (fun _ => ⟨rfl, id⟩) fun _ => ⟨rfl, id⟩

theorem noMoreKnown_grantWrite (grant : GrantRoles) (options : MembershipOptions)
    (grantees : List ObjectId) (s : AnalysisState) :
    NoMoreKnown s (grant.write options grantees s) := by
  have hsnapshot : NoMoreKnown s s.snapshotRoleMembershipGrantors :=
    noMoreKnown_of_contents (.pushUndo s _)
  unfold GrantRoles.write
  dsimp only
  split
  · refine IsTrans.trans _ _ _ hsnapshot (keeps_ite (fun _ => ?_) fun _ => ?_)
    · exact IsTrans.trans _ _ _ (keeps_foldl _ (fun pair _ s => noMoreKnown_record s _ _ _ _) _)
        (keeps_foldl _ (fun member _ s => noMoreKnown_reconcile s member) _)
    · exact IsTrans.trans _ _ _
        (keeps_foldl _ (fun pair _ s => noMoreKnown_legacyRecord s _ _ _ _) _)
        (noMoreKnown_legacyMembers _ _ _ _ _)
  · have hforget : NoMoreKnown s s.snapshotRoleMembershipGrantors.forgetRoleMembershipGrantors :=
      ⟨hsnapshot.roles, by simp [forgetRoleMembershipGrantors]⟩
    exact IsTrans.trans _ _ _ hforget (noMoreKnown_legacyMembers _ _ _ _ _)

/-- Where the records are complete after the grant, it wrote records. -/
theorem write_of_complete {grant : GrantRoles} {grantees : List ObjectId}
    (h : (grant.write options grantees s).roleMembershipGrantorsComplete = true) :
    ∃ grantor, s.roleMembershipGrantor grant.grantedBy = some grantor ∧
      s.roleMembershipGrantorsComplete = true ∧
      grant.write options grantees s =
        (retainUnseen [] grantees).foldl
          (fun s member => (s.snapshotRole member).reconcileMembershipProjection member)
          ((membershipPairs grantees grant.parents).foldl
            (fun s pair => s.grantRecord options grantor pair.1 pair.2)
            s.snapshotRoleMembershipGrantors) := by
  have hbefore := (noMoreKnown_grantWrite grant options grantees s).complete h
  have hsnapshot : s.snapshotRoleMembershipGrantors.roleMembershipGrantorsComplete = true :=
    ((SameContents.pushUndo s _).roleMembershipGrantorsComplete).trans hbefore
  unfold GrantRoles.write at h ⊢
  dsimp only at h ⊢
  cases hgrantor : s.roleMembershipGrantor grant.grantedBy with
  | none =>
    rw [hgrantor] at h
    have hforgot := (noMoreKnown_legacyMembers _ _ _ _ _).complete h
    cases hforgot
  | some grantor =>
    dsimp only
    exact ⟨grantor, rfl, hbefore, if_pos hsnapshot⟩

theorem mem_membershipPairs {grantees parents : List ObjectId} {pair : ObjectId × ObjectId} :
    pair ∈ membershipPairs grantees parents ↔ pair.1 ∈ grantees ∧ pair.2 ∈ parents := by
  obtain ⟨member, parent⟩ := pair
  simp [membershipPairs, List.mem_flatMap, List.mem_map]

/-- Granting keeps the memberships in order, under an authority that the records
show. -/
theorem grant_inOrder {grant : GrantRoles} (hs : s.MembershipsInOrder)
    (hspares : grant.SparesAuthority s) (h : grant.command.outcome s = (.applied, t))
    (hknown : t.FactsKnown) (hbefore : s.rolesKnown = true) : t.MembershipsInOrder := by
  obtain ⟨options, u, hu, rfl, hfalse, hpresent, hacyclic⟩ := grant_applied h
  obtain ⟨grantor, hgrantor, hcomplete, hwrite⟩ := write_of_complete hknown.2
  rw [roleMembershipGrantor_congr hu] at hgrantor
  obtain ⟨hauthority, hoption⟩ := hspares grantor hgrantor
  have hstart : SameContents s u.snapshotRoleMembershipGrantors := hu.trans (.pushUndo u _)
  have hrecords : u.snapshotRoleMembershipGrantors.roleMembershipGrantors =
      s.roleMembershipGrantors := hstart.roleMembershipGrantors
  have hin := MembershipsInOrder.of_contents hs hstart
  rw [hwrite]
  set pairs := membershipPairs (s.factRoles grant.grantees) grant.parents with hpairs
  generalize hv : pairs.foldl (fun s pair => s.grantRecord options grantor pair.1 pair.2)
    u.snapshotRoleMembershipGrantors = v
  have hgranted : GrantedFrom u.snapshotRoleMembershipGrantors options grantor pairs v := by
    rw [← hv]
    exact (GrantedFrom.refl hin.distinct).grantRecords (List.Subset.refl _)
  have hcompletev : v.roleMembershipGrantorsComplete = true := by
    rw [hgranted.same.complete]
    exact ((SameContents.pushUndo u _).roleMembershipGrantorsComplete).trans hcomplete
  obtain ⟨hsame, hkept, hprojected⟩ := projected_reconcileAll
    (retainUnseen [] (s.factRoles grant.grantees)) hcompletev fun id hid => by
      refine (hin.projected id).congr (congrFun hgranted.roles id) fun r hr => ?_
      refine hgranted.others r fun hmem => hid ?_
      obtain ⟨pair, hpair, hm⟩ := List.mem_map.mp hmem
      rw [mem_retainUnseen, ← hr, ← hm]
      exact ⟨(mem_membershipPairs.mp hpair).1, List.not_mem_nil⟩
  generalize (retainUnseen [] (s.factRoles grant.grantees)).foldl
    (fun s member => (s.snapshotRole member).reconcileMembershipProjection member) v = w
    at hsame hkept hprojected
  have hauthorities : ∀ r' ∈ v.roleMembershipGrantors, v.HasAuthority r'.grantor r'.role := by
    have hlose : options.admin = some false → ∀ pair ∈ pairs,
        u.snapshotRoleMembershipGrantors.MayLoseAdmin pair.1 pair.2 grantor := by
      intro hadmin pair hpair
      obtain ⟨hm, hp⟩ := mem_membershipPairs.mp hpair
      exact mayLoseAdmin_congr hstart (hoption (hfalse hadmin) _ hm _ hp)
    intro r' hr'
    rcases hgranted.origin r' hr' with ⟨r, hr, hkey⟩ | ⟨hby, hpair⟩
    · obtain ⟨-, hrest⟩ := Prod.mk.inj hkey
      obtain ⟨hro, hg⟩ := Prod.mk.inj hrest
      rw [← hro, ← hg]
      exact hgranted.authority hlose (hin.authorized r hr) (Or.inr ⟨r, hr, rfl, rfl⟩)
    · rw [hby]
      refine hgranted.authority hlose (hasAuthority_congr hstart ?_) (Or.inl rfl)
      exact hauthority _ (mem_membershipPairs.mp hpair).2
  refine ⟨?_, ?_, ?_, hprojected, ?_⟩
  · rw [hkept]
    exact hgranted.distinct
  · intro r' hr'
    rw [hkept] at hr'
    rw [hsame.isSome, hgranted.same.isSome]
    rcases hgranted.origin r' hr' with ⟨r, hr, hkey⟩ | ⟨-, hpair⟩
    · rw [← (Prod.mk.inj hkey).1]
      exact hin.present r hr
    · rw [hstart.roleAt]
      exact hpresent hbefore _ (mem_membershipPairs.mp hpair).1
  · intro r' hr'
    rw [hkept] at hr'
    refine (hauthorities r' hr').imp hsame.isSupreme fun hadmin => ?_
    rwa [hkept]
  · rw [hkept]
    intro id hcycle
    refine hacyclic (proposes_nil hs) id (Relation.TransGen.mono (fun a b hab => ?_) id id hcycle)
    rw [← proposes_congr hstart]
    exact links_granted hgranted hin hab

end Grant

end SafeMigrate
