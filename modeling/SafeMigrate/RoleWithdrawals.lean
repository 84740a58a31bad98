import SafeMigrate.RoleRevokes

/-! When a `REVOKE` of roles keeps the memberships in order: every membership
that rests on a withdrawn ADMIN option goes as well. -/

namespace SafeMigrate

open Command AnalysisState KeyedList RoleMembershipGrantor

namespace RevokeRoles

section Condition

variable (revoke : RevokeRoles) (s : AnalysisState) (grantor : ObjectId)

/-- The statement revokes this record, or an option of it. -/
def Names (r : RoleMembershipGrantor) : Prop :=
  r.grantor = grantor ∧ r.member ∈ s.factRoles revoke.revokees ∧ r.role ∈ revoke.parents

/-- The member has another ADMIN record on the role, which the statement leaves. -/
def Shielded (r : RoleMembershipGrantor) : Prop :=
  ∃ other ∈ s.roleMembershipGrantors, other.member = r.member ∧ other.role = r.role ∧
    other.admin = true ∧ other.key ≠ r.key ∧ ¬revoke.Names s grantor other

/-- The member loses its ADMIN option on the role, by the statement itself or by
its cascade. -/
inductive LosesAdmin : ObjectId → ObjectId → Prop
  | revoked {r : RoleMembershipGrantor} (hr : r ∈ s.roleMembershipGrantors)
      (hadmin : r.admin = true) (hnames : revoke.Names s grantor r)
      (hfree : ¬revoke.Shielded s grantor r) : LosesAdmin r.member r.role
  | granted {g role : ObjectId} {r : RoleMembershipGrantor} (hcascade : revoke.cascade = true)
      (hg : LosesAdmin g role) (hr : r ∈ s.roleMembershipGrantors) (hadmin : r.admin = true)
      (hby : r.grantor = g) (hfree : ¬revoke.Shielded s grantor r) : LosesAdmin r.member r.role

/-- Whoever loses the ADMIN option on a role is supreme, or all that it granted
on the role is revoked as well: by the statement, or by a cascade that no other
ADMIN record of the member stops. -/
def SparesAuthority : Prop :=
  ∃ grantor, s.roleMembershipGrantor revoke.grantedBy = some grantor ∧
    (revoke.roleOption = none ∨ revoke.roleOption = some (.admin false) →
      ∀ member role, revoke.LosesAdmin s grantor member role → s.IsSupreme member ∨
        ∀ r ∈ s.roleMembershipGrantors, r.grantor = member → r.role = role →
          revoke.roleOption = none ∧ revoke.Names s grantor r ∨
            revoke.cascade = true ∧ ¬revoke.Shielded s grantor r)

end Condition

section Records

variable {revoke : RevokeRoles} {s v : AnalysisState} {grantor : ObjectId} {part : RevokedPart}
  {initial : List ObjectId}

theorem names_iff {r : RoleMembershipGrantor} : revoke.Names s grantor r ↔ r.grantor = grantor ∧
    (r.member, r.role) ∈ membershipPairs (s.factRoles revoke.revokees) revoke.parents := by
  rw [mem_membershipPairs]
  exact Iff.rfl

/-- A record of the end of the first phase stands for one that there was. -/
abbrev Revoked (revoke : RevokeRoles) (s : AnalysisState) (grantor : ObjectId) (part : RevokedPart)
    (v : AnalysisState) (initial : List ObjectId) : Prop :=
  RevokedFrom s revoke.cascade part grantor
    (membershipPairs (s.factRoles revoke.revokees) revoke.parents) (v, initial)

/-- A record that is not named stays as it is. -/
theorem Revoked.unnamed (h : revoke.Revoked s grantor part v initial) {r : RoleMembershipGrantor}
    (hr : r ∈ s.roleMembershipGrantors) (hnames : ¬revoke.Names s grantor r) :
    ∃ r' ∈ v.roleMembershipGrantors, r'.key = r.key ∧ r'.admin = r.admin :=
  (h.kept r hr).resolve_right fun ⟨_, hnamed⟩ => hnames (names_iff.mpr hnamed)

/-- What no ADMIN record shields before is not shielded after the first phase. -/
theorem Revoked.alone (h : revoke.Revoked s grantor part v initial) (hpart : part.withdraws)
    {r r' : RoleMembershipGrantor} (hkey : r'.key = r.key) (hfree : ¬revoke.Shielded s grantor r) :
    ∀ other ∈ v.roleMembershipGrantors, other.member = r'.member → other.role = r'.role →
      other.admin = true → other.key = r'.key := by
  intro other hother hm hro hadmin
  obtain ⟨hm', hro', -⟩ := key_inj hkey
  obtain ⟨o, ho, hokey, hback⟩ := h.origin other hother
  obtain ⟨hom, hor, hog⟩ := key_inj hokey
  by_contra hne
  refine hfree ⟨o, ho, hom.trans (hm.trans hm'), hor.trans (hro.trans hro'), hback hadmin,
    fun hsame => hne ?_, fun hnames => ?_⟩
  · rw [← hokey, hsame, hkey]
  · obtain ⟨hg, hpair⟩ := names_iff.mp hnames
    have hgone := (h.revoked hpart other hother (hog ▸ hg) (by rw [← hom, ← hor]; exact hpair)).1
    rw [hadmin] at hgone
    cases hgone

/-- What is alone after the first phase was not shielded before. -/
theorem Revoked.free (h : revoke.Revoked s grantor part v initial) {r r' : RoleMembershipGrantor}
    (hkey : r'.key = r.key) (halone : ∀ other ∈ v.roleMembershipGrantors,
      other.member = r'.member → other.role = r'.role → other.admin = true →
        other.key = r'.key) : ¬revoke.Shielded s grantor r := by
  rintro ⟨other, hother, hm, hro, hadmin, hne, hnames⟩
  obtain ⟨hm', hro', -⟩ := key_inj hkey
  obtain ⟨other', hother', hokey, hoadmin⟩ := h.unnamed hother hnames
  obtain ⟨hom, hor, -⟩ := key_inj hokey
  refine hne (hokey.symm.trans ((halone other' hother' ?_ ?_ (hoadmin.trans hadmin)).trans hkey))
  · rw [hom, hm, hm']
  · rw [hor, hro, hro']

/-- The members that the cascade starts from lose their option. -/
theorem Revoked.members_lose (h : revoke.Revoked s grantor part v initial) {m : ObjectId}
    (hm : m ∈ initial) : ∃ role, revoke.LosesAdmin s grantor m role := by
  obtain ⟨-, r, hr, rfl, hadmin, hg, hpair, hothers⟩ := h.members m hm
  refine ⟨r.role, .revoked hr hadmin (names_iff.mpr ⟨hg, hpair⟩) ?_⟩
  rintro ⟨other, hother, hom, hor, hoadmin, hne, -⟩
  refine hne ?_
  rw [key, key, hom, hor, hothers other hother hom hor hoadmin, hg]

/-- What the cascade visits and withdraws; nothing where there is no cascade. -/
structure Withdrawal (revoke : RevokeRoles) (s : AnalysisState) (grantor : ObjectId)
    (v : AnalysisState) (initial : List ObjectId) (visited : List ObjectId)
    (withdrawn : List RoleMembershipGrantor) : Prop where
  start : revoke.cascade = true → initial ⊆ visited
  closed : ∀ g ∈ visited, ∀ r ∈ v.recordsGrantedBy g,
    r ∈ withdrawn ∧ (r.admin = true → r.member ∈ visited)
  granted : ∀ r ∈ withdrawn, revoke.cascade = true ∧ ∃ g ∈ visited, r ∈ v.recordsGrantedBy g
  loses : ∀ g ∈ visited, ∃ role, revoke.LosesAdmin s grantor g role

section Withdrawal

variable {visited : List ObjectId} {withdrawn : List RoleMembershipGrantor}

theorem Revoked.survives (h : revoke.Revoked s grantor part v initial)
    (hw : revoke.Withdrawal s grantor v initial visited withdrawn) {r : RoleMembershipGrantor}
    (hr : r ∈ s.roleMembershipGrantors) (hadmin : r.admin = true)
    (hnames : ¬revoke.Names s grantor r) :
    holdsAdmin (v.roleMembershipGrantors.filter fun r => decide (r ∉ withdrawn)) r.member r.role =
      true ∨ revoke.LosesAdmin s grantor r.member r.role ∧
        (revoke.cascade = true → r.member ∈ visited) := by
  obtain ⟨r', hr', hkey, hadmin'⟩ := h.unnamed hr hnames
  obtain ⟨hm, hro, hg⟩ := key_inj hkey
  by_cases hgone : r' ∈ withdrawn
  · obtain ⟨hcascade, g, hvisited, hgranted⟩ := hw.granted r' hgone
    obtain ⟨-, hby, halone⟩ := (mem_recordsGrantedBy h.distinct).mp hgranted
    obtain ⟨role, hloses⟩ := hw.loses g hvisited
    refine Or.inr ⟨.granted hcascade hloses hr hadmin (hg.symm.trans hby) (h.free hkey halone),
      fun _ => ?_⟩
    rw [← hm]
    exact (hw.closed g hvisited r' hgranted).2 (hadmin'.trans hadmin)
  · refine Or.inl (holdsAdmin_iff.mpr ⟨r', List.mem_filter.mpr ⟨hr', ?_⟩, hm, hro,
      hadmin'.trans hadmin⟩)
    exact decide_eq_true hgone

/-- An ADMIN option either remains, or is lost and followed by the cascade. -/
theorem Revoked.admin (h : revoke.Revoked s grantor part v initial) (hpart : part.withdraws)
    (hw : revoke.Withdrawal s grantor v initial visited withdrawn) {r : RoleMembershipGrantor}
    (hr : r ∈ s.roleMembershipGrantors) (hadmin : r.admin = true) :
    holdsAdmin (v.roleMembershipGrantors.filter fun r => decide (r ∉ withdrawn)) r.member r.role =
      true ∨ revoke.LosesAdmin s grantor r.member r.role ∧
        (revoke.cascade = true → r.member ∈ visited) := by
  by_cases hnames : revoke.Names s grantor r
  · by_cases hshielded : revoke.Shielded s grantor r
    · obtain ⟨other, hother, hm, hro, hoadmin, -, hunnamed⟩ := hshielded
      rw [← hm, ← hro]
      exact h.survives hw hother hoadmin hunnamed
    · refine Or.inr ⟨.revoked hr hadmin hnames hshielded, fun hcascade => ?_⟩
      obtain ⟨hg, hpair⟩ := names_iff.mp hnames
      rcases h.lost hcascade r hr hadmin with ⟨r', hr', hkey, hadmin'⟩ | hin | hother
      · obtain ⟨hm, hro, hg'⟩ := key_inj hkey
        have hgone := (h.revoked hpart r' hr' (hg'.trans hg) (by rw [hm, hro]; exact hpair)).1
        rw [hadmin'] at hgone
        cases hgone
      · exact hw.start hcascade hin
      · obtain ⟨other, hother, hm, hro, hoadmin, hne⟩ := hother
        refine absurd ⟨other, hother, hm, hro, hoadmin, fun hkey => hne ?_,
          fun hnames => hne hnames.1⟩ hshielded
        exact (key_inj hkey).2.2.trans hg
  · exact h.survives hw hr hadmin hnames

theorem Revoked.authorized (h : revoke.Revoked s grantor part v initial) (hpart : part.withdraws)
    (hs : s.MembershipsInOrder) (hw : revoke.Withdrawal s grantor v initial visited withdrawn)
    (hoption : revoke.roleOption = none → part = .membership)
    (hspares : ∀ member role, revoke.LosesAdmin s grantor member role → s.IsSupreme member ∨
      ∀ r ∈ s.roleMembershipGrantors, r.grantor = member → r.role = role →
        revoke.roleOption = none ∧ revoke.Names s grantor r ∨
          revoke.cascade = true ∧ ¬revoke.Shielded s grantor r)
    {r' : RoleMembershipGrantor} (hr' : r' ∈ v.roleMembershipGrantors) (hstays : r' ∉ withdrawn) :
    s.IsSupreme r'.grantor ∨
      holdsAdmin (v.roleMembershipGrantors.filter fun r => decide (r ∉ withdrawn)) r'.grantor
        r'.role = true := by
  obtain ⟨r, hr, hkey, -⟩ := h.origin r' hr'
  obtain ⟨hm, hro, hg⟩ := key_inj hkey
  rw [← hro, ← hg]
  rcases hs.authorized r hr with hsupreme | hadmin
  · exact Or.inl hsupreme
  obtain ⟨a, ha, ham, har, hoadmin⟩ := holdsAdmin_iff.mp hadmin
  have hkept := h.admin hpart hw ha hoadmin
  rw [ham, har] at hkept
  rcases hkept with hkept | ⟨hloses, hvisited⟩
  · exact Or.inr hkept
  rcases hspares _ _ hloses with hsupreme | hall
  · exact Or.inl hsupreme
  rcases hall r hr rfl rfl with ⟨hnone, hnames⟩ | ⟨hcascade, hfree⟩
  · obtain ⟨hby, hpair⟩ := names_iff.mp hnames
    refine absurd (hoption hnone) (h.revoked hpart r' hr' (hg ▸ hby) ?_).2
    rw [← hm, ← hro]
    exact hpair
  · refine absurd (hw.closed _ (hvisited hcascade) r' ?_).1 hstays
    exact (mem_recordsGrantedBy h.distinct).mpr ⟨hr', hg.symm, h.alone hpart hkey.symm hfree⟩

end Withdrawal

end Records

section Writes

variable {revoke : RevokeRoles} {s t : AnalysisState} {part : RevokedPart}

theorem noMoreKnown_cascadeRoleMemberships (s : AnalysisState) (initial : List ObjectId) :
    NoMoreKnown s (s.cascadeRoleMemberships initial) := by
  unfold cascadeRoleMemberships
  dsimp only
  split
  · exact ⟨rfl, id⟩
  · refine IsTrans.trans _ _ _ (noMoreKnown_of_contents (.pushUndo s _))
      (keeps_foldl _ (fun membership _ s => ?_) _)
    exact IsTrans.trans _ _ _ (noMoreKnown_modify s membership.1 _) ⟨rfl, id⟩

theorem noMoreKnown_revokeLegacyMember (progress : AnalysisState × List ObjectId)
    (member : ObjectId) :
    NoMoreKnown progress.1 (revoke.revokeLegacyMember part progress member).1 := by
  unfold revokeLegacyMember
  dsimp only
  split
  · have hmodified := noMoreKnown_modify progress.1 member
      fun role => revoke.parents.foldl (withoutPart part) role
    split
    · exact IsTrans.trans _ _ _ hmodified ⟨rfl, id⟩
    · exact hmodified
  · exact noMoreKnown_of_contents (.pushUndo _ _)

theorem noMoreKnown_writeLegacy (part : RevokedPart) (revokees : List ObjectId)
    (s : AnalysisState) : NoMoreKnown s (revoke.writeLegacy part revokees s) := by
  unfold writeLegacy
  dsimp only
  have hfold (progress : AnalysisState × List ObjectId) : NoMoreKnown progress.1
      (revokees.foldl (revoke.revokeLegacyMember part) progress).1 :=
    keeps_foldl_of Prod.fst revokees
      (fun member _ progress => noMoreKnown_revokeLegacyMember progress member) progress
  have hlast (progress : AnalysisState × List ObjectId) (p : Prop) [Decidable p] :
      NoMoreKnown progress.1
        (if p then progress.1.cascadeRoleMemberships progress.2 else progress.1) :=
    keeps_ite (fun _ => noMoreKnown_cascadeRoleMemberships _ _) fun _ => ⟨rfl, id⟩
  refine IsTrans.trans _ _ _ ?_ (hlast _ _)
  refine IsTrans.trans _ _ _ ?_ (hfold _)
  exact keeps_ite (fun _ => noMoreKnown_of_contents (.pushUndo _ _)) fun _ => ⟨rfl, id⟩

theorem noMoreKnown_revokeRecord (grantor : ObjectId) (progress : AnalysisState × List ObjectId)
    (pair : ObjectId × ObjectId) :
    NoMoreKnown progress.1 (revoke.revokeRecord part grantor progress pair).1 := by
  have hset (records : List RoleMembershipGrantor) : NoMoreKnown progress.1
      (((progress.1.setRoleMembershipGrantors records).snapshotRole
        pair.1).reconcileMembershipProjection pair.1) :=
    IsTrans.trans _ (progress.1.setRoleMembershipGrantors records) _ ⟨rfl, id⟩
      (noMoreKnown_reconcile _ pair.1)
  unfold revokeRecord
  dsimp only
  split
  · exact ⟨rfl, id⟩
  · cases part with
    | adminOption =>
      dsimp only
      split
      · exact hset _
      · exact ⟨rfl, id⟩
    | inheritOption => exact hset _
    | setOption => exact hset _
    | membership => exact hset _

theorem noMoreKnown_cascadeMembershipsGrantedBy (s : AnalysisState) (initial : List ObjectId) :
    NoMoreKnown s (s.cascadeMembershipsGrantedBy initial) := by
  unfold cascadeMembershipsGrantedBy
  dsimp only
  refine keeps_ite (fun _ => ⟨rfl, id⟩) fun _ => ?_
  refine IsTrans.trans _ _ _ (noMoreKnown_of_contents (.pushUndo s _))
    (keeps_foldl _ (fun r _ s => ?_) _)
  have hset (records : List RoleMembershipGrantor) : NoMoreKnown s
      ((s.snapshotRole r.member).setRoleMembershipGrantors records) :=
    IsTrans.trans _ _ _ (noMoreKnown_of_contents (.pushUndo s _)) ⟨rfl, id⟩
  unfold removeMembershipRecord reconcileMembershipProjection
  dsimp only
  refine IsTrans.trans _ _ _ (hset _) (keeps_ite (fun _ => ?_) fun _ => ⟨rfl, id⟩)
  exact ⟨(modifyRole_eq _ _ _).2.2.1, fun h => by rwa [(modifyRole_eq _ _ _).2.1] at h⟩

theorem noMoreKnown_writeRecords (grantor : ObjectId) (revokees : List ObjectId)
    (s : AnalysisState) : NoMoreKnown s (revoke.writeRecords part grantor revokees s) := by
  unfold writeRecords
  dsimp only
  have hfold (pairs : List (ObjectId × ObjectId)) (progress : AnalysisState × List ObjectId) :
      NoMoreKnown progress.1 (pairs.foldl (revoke.revokeRecord part grantor) progress).1 :=
    keeps_foldl_of Prod.fst pairs
      (fun pair _ progress => noMoreKnown_revokeRecord grantor progress pair) progress
  have hlast (progress : AnalysisState × List ObjectId) (p : Prop) [Decidable p] :
      NoMoreKnown progress.1
        (if p then progress.1.cascadeMembershipsGrantedBy progress.2 else progress.1) :=
    keeps_ite (fun _ => noMoreKnown_cascadeMembershipsGrantedBy _ _) fun _ => ⟨rfl, id⟩
  refine IsTrans.trans _ _ _ ?_ (hlast _ _)
  refine IsTrans.trans _ _ _ ?_ (hfold _ _)
  exact keeps_ite (fun _ => noMoreKnown_of_contents (.pushUndo _ _)) fun _ => ⟨rfl, id⟩

theorem noMoreKnown_revokeWrite (part : RevokedPart) (revokees : List ObjectId)
    (s : AnalysisState) : NoMoreKnown s (revoke.write part revokees s) := by
  unfold write
  split
  · exact keeps_ite (fun _ => noMoreKnown_writeRecords _ _ _) fun _ => noMoreKnown_writeLegacy _ _ _
  · exact noMoreKnown_writeLegacy _ _ _

theorem declines_revokedPart : Declines revoke.revokedPart := by
  unfold revokedPart
  split
  · exact declines_pure _
  · exact declines_pure _
  · exact declines_pure _
  · exact declines_pure _
  · exact declines_leaveUnresolved _

/-- What the statement withdraws follows from the option that it is written for. -/
theorem revokedPart_ok (h : revoke.revokedPart.run.run s = (.ok part, t)) :
    t = s ∧ (revoke.roleOption = none → part = .membership) ∧
      (part.withdraws → revoke.roleOption = none ∨ revoke.roleOption = some (.admin false)) := by
  unfold revokedPart at h
  split at h
  · rename_i hnone
    cases h
    exact ⟨rfl, fun _ => rfl, fun _ => Or.inl hnone⟩
  · rename_i hadmin
    cases h
    exact ⟨rfl, fun hnone => (by rw [hadmin] at hnone; cases hnone), fun _ => Or.inr hadmin⟩
  · rename_i hinherit
    cases h
    refine ⟨rfl, fun hnone => (by rw [hinherit] at hnone; cases hnone), fun hpart => ?_⟩
    rcases hpart with hpart | hpart <;> cases hpart
  · rename_i hset
    cases h
    refine ⟨rfl, fun hnone => (by rw [hset] at hnone; cases hnone), fun hpart => ?_⟩
    rcases hpart with hpart | hpart <;> cases hpart
  · cases h

theorem declines_revoke (revoke : RevokeRoles) : Declines revoke.command := by
  refine Declines.bind (Throws.forM _ declines_checkRoleTarget) fun _ => ?_
  refine Declines.bind (declines_checkRoleFacts _) fun _ => ?_
  refine Declines.bind (declines_checkGrantedBy _) fun _ => ?_
  refine Declines.bind (declines_taintIf _ _ _) fun _ => ?_
  refine Declines.bind (declines_checkMembershipOptions _) fun _ => ?_
  refine Declines.bind declines_get fun _ => Declines.bind (declines_taintIf _ _ _) fun _ => ?_
  refine Declines.bind (declines_checkMembershipAuthority _ _ _) fun _ => ?_
  refine Declines.bind declines_revokedPart fun _ => ?_
  refine Declines.bind declines_get fun _ => Declines.bind (declines_taintIf _ _ _) fun _ => ?_
  refine Declines.bind (declines_leaveUnresolvedIf _ _) fun _ => ?_
  exact Declines.bind (declines_modify _) fun _ => declines_pure _

theorem revoke_applied (h : revoke.command.outcome s = (.applied, t)) :
    ∃ part u, SameContents s u ∧ t = revoke.write part (s.factRoles revoke.revokees) u ∧
      (revoke.roleOption = none → part = .membership) ∧
      (part.withdraws → revoke.roleOption = none ∨ revoke.roleOption = some (.admin false)) := by
  obtain ⟨_, u₁, htargets, h₁⟩ := exists_run_of_bind (ran_of_outcome (declines_revoke revoke) h)
  have k₁ : SameContents s u₁ := .of_check (Keeps.forM _ keeps_checkRoleTarget) htargets
  obtain ⟨revokees, u₂, hfacts, h₂⟩ := exists_run_of_bind h₁
  obtain ⟨k₂, hrevokees, -⟩ := checkRoleFacts_ok hfacts
  obtain ⟨_, u₃, hgrantedBy, h₃⟩ := exists_run_of_bind h₂
  have k₃ : SameContents u₂ u₃ := .of_check (keeps_checkGrantedBy _) hgrantedBy
  obtain ⟨_, u₄, htaint, h₄⟩ := exists_run_of_bind h₃
  have k₄ : SameContents u₃ u₄ := .of_check (keeps_taintIf _ _ _) htaint
  obtain ⟨_, u₅, hsupport, h₅⟩ := exists_run_of_bind h₄
  have k₅ : SameContents u₄ u₅ := .of_check (keeps_checkMembershipOptions _) hsupport
  obtain ⟨_, _, hget, h₆⟩ := exists_run_of_bind h₅
  cases hget
  obtain ⟨_, u₇, hcascade, h₇⟩ := exists_run_of_bind h₆
  have k₇ : SameContents u₅ u₇ := .of_check (keeps_taintIf _ _ _) hcascade
  obtain ⟨_, u₈, hauthority, h₈⟩ := exists_run_of_bind h₇
  have k₈ : SameContents u₇ u₈ := .of_check (keeps_checkMembershipAuthority _ _ _) hauthority
  obtain ⟨part, _, hpart, h₉⟩ := exists_run_of_bind h₈
  obtain ⟨rfl, hmembership, hwithdraws⟩ := revokedPart_ok hpart
  obtain ⟨_, _, hget, h₁₀⟩ := exists_run_of_bind h₉
  cases hget
  obtain ⟨_, u₁₁, hoption, h₁₁⟩ := exists_run_of_bind h₁₀
  have k₁₁ : SameContents _ u₁₁ := .of_check (keeps_taintIf _ _ _) hoption
  obtain ⟨_, _, hpublic, h₁₂⟩ := exists_run_of_bind h₁₁
  obtain ⟨rfl, -⟩ := leaveUnresolvedIf_ok hpublic
  obtain ⟨_, _, hmodify, hpure⟩ := exists_run_of_bind h₁₂
  cases hmodify
  cases hpure
  have hids : revokees = s.factRoles revoke.revokees := by
    rw [hrevokees]
    unfold factRoles
    rw [roleFactIdentity_congr k₁]
  subst hids
  have hkept := k₁.trans (k₂.trans (k₃.trans (k₄.trans (k₅.trans (k₇.trans (k₈.trans k₁₁))))))
  exact ⟨part, _, hkept, rfl, hmembership, hwithdraws⟩

end Writes

section Order

variable {revoke : RevokeRoles} {s t : AnalysisState}

/-- Records that stem from records in order are in order, if they are authorized
and the roles list them. -/
theorem inOrder_of_origin (hs : s.MembershipsInOrder) (hsame : SameRoles s t)
    (hdistinct : Distinct key t.roleMembershipGrantors) (hprojected : ∀ id, t.Projected id)
    (horigin : ∀ r' ∈ t.roleMembershipGrantors, ∃ r ∈ s.roleMembershipGrantors, r.key = r'.key)
    (hauthorized : ∀ r' ∈ t.roleMembershipGrantors, s.IsSupreme r'.grantor ∨
      holdsAdmin t.roleMembershipGrantors r'.grantor r'.role = true) : t.MembershipsInOrder := by
  refine ⟨hdistinct, fun r' hr' => ?_, fun r' hr' => ?_, hprojected, fun id hcycle => ?_⟩
  · obtain ⟨r, hr, hkey⟩ := horigin r' hr'
    rw [hsame.isSome, ← (key_inj hkey).1]
    exact hs.present r hr
  · exact (hauthorized r' hr').imp_left hsame.isSupreme
  · refine hs.acyclic id (Relation.TransGen.mono (fun a b hab => ?_) id id hcycle)
    obtain ⟨r', hr', rfl, rfl⟩ := hab
    obtain ⟨r, hr, hkey⟩ := horigin r' hr'
    obtain ⟨hm, hro, -⟩ := key_inj hkey
    exact ⟨r, hr, hm, hro⟩

theorem write_of_complete {part : RevokedPart} {revokees : List ObjectId} {grantor : ObjectId}
    (hgrantor : s.roleMembershipGrantor revoke.grantedBy = some grantor)
    (h : (revoke.write part revokees s).roleMembershipGrantorsComplete = true) :
    s.roleMembershipGrantorsComplete = true ∧
      revoke.write part revokees s = revoke.writeRecords part grantor revokees s := by
  unfold write at h ⊢
  rw [hgrantor] at h ⊢
  dsimp only at h ⊢
  by_cases hcomplete : s.roleMembershipGrantorsComplete = true
  · exact ⟨hcomplete, if_pos hcomplete⟩
  · rw [if_neg hcomplete] at h
    exact absurd ((noMoreKnown_writeLegacy _ _ _).complete h) hcomplete

/-- The cascade, or what stands in its place, keeps the memberships in order. -/
theorem finish_inOrder {grantor : ObjectId} {part : RevokedPart} {v : AnalysisState}
    {initial : List ObjectId} (hs : s.MembershipsInOrder)
    (hcomplete : s.roleMembershipGrantorsComplete = true)
    (h : revoke.Revoked s grantor part v initial)
    (hoption : revoke.roleOption = none → part = .membership)
    (hspares : part.withdraws → ∀ member role, revoke.LosesAdmin s grantor member role →
      s.IsSupreme member ∨ ∀ r ∈ s.roleMembershipGrantors, r.grantor = member → r.role = role →
        revoke.roleOption = none ∧ revoke.Names s grantor r ∨
          revoke.cascade = true ∧ ¬revoke.Shielded s grantor r) :
    (if revoke.cascade && !initial.isEmpty then v.cascadeMembershipsGrantedBy initial
      else v).MembershipsInOrder := by
  have horigin : ∀ r' ∈ v.roleMembershipGrantors, ∃ r ∈ s.roleMembershipGrantors,
      r.key = r'.key := by
    intro r' hr'
    obtain ⟨r, hr, hkey, -⟩ := h.origin r' hr'
    exact ⟨r, hr, hkey⟩
  by_cases hcascade : (revoke.cascade && !initial.isEmpty) = true
  · rw [if_pos hcascade]
    obtain ⟨hcascade, hsome⟩ := Bool.and_eq_true_iff.mp hcascade
    obtain ⟨m, hm⟩ : ∃ m, m ∈ initial := List.exists_mem_of_ne_nil _ fun hnil => by
      rw [hnil] at hsome
      cases hsome
    have hpart : part.withdraws := (h.members m hm).1
    obtain ⟨visited, hinitial, hclosed, hgranted, hloses⟩ := withdrawnRecords_spec v initial
      (Q := fun g => ∃ role, revoke.LosesAdmin s grantor g role) (fun g => h.members_lose)
      fun g r' hg hr' hadmin => by
        obtain ⟨hmem, hby, halone⟩ := (mem_recordsGrantedBy h.distinct).mp hr'
        obtain ⟨r, hr, hkey, hback⟩ := h.origin r' hmem
        obtain ⟨hm, -, hg'⟩ := key_inj hkey
        obtain ⟨role, hloses⟩ := hg
        rw [← hm]
        exact ⟨r.role, .granted hcascade hloses hr (hback hadmin) (hg'.trans hby)
          (h.free hkey.symm halone)⟩
    have hwithdrawn : revoke.Withdrawal s grantor v initial visited (v.withdrawnRecords initial) :=
      ⟨fun _ => hinitial, hclosed, fun r hr => ⟨hcascade, hgranted r hr⟩, hloses⟩
    have hrecords := cascade_records h.distinct initial
    obtain ⟨hsame, hlists⟩ := cascade_spec (h.same.complete.trans hcomplete) h.projected initial
    refine inOrder_of_origin hs (h.same.trans hsame) ?_ hlists ?_ ?_
    · rw [hrecords]
      exact h.distinct.sublist (List.filter_sublist.map key)
    · rw [hrecords]
      exact fun r' hr' => horigin r' (List.mem_filter.mp hr').1
    · rw [hrecords]
      intro r' hr'
      obtain ⟨hmem, hstays⟩ := List.mem_filter.mp hr'
      exact h.authorized hpart hs hwithdrawn hoption (hspares hpart) hmem (of_decide_eq_true hstays)
  · rw [if_neg hcascade]
    refine inOrder_of_origin hs h.same h.distinct h.projected horigin fun r' hr' => ?_
    by_cases hpart : part.withdraws
    · have hwithdrawn : revoke.Withdrawal s grantor v initial [] [] := by
        refine ⟨fun h => ?_, by simp, by simp, by simp⟩
        rw [h, Bool.true_and, Bool.not_eq_true', Bool.not_eq_false, List.isEmpty_iff] at hcascade
        rw [hcascade]
        exact List.Subset.refl _
      have hall := h.authorized hpart hs hwithdrawn hoption (hspares hpart) hr' List.not_mem_nil
      rwa [List.filter_eq_self.mpr (by simp)] at hall
    · obtain ⟨r, hr, hkey, -⟩ := h.origin r' hr'
      obtain ⟨-, hro, hg⟩ := key_inj hkey
      rw [← hro, ← hg]
      refine (hs.authorized r hr).imp_right fun hadmin => ?_
      obtain ⟨a, ha, hm, har, hoadmin⟩ := holdsAdmin_iff.mp hadmin
      obtain ⟨a', ha', hkey, hadmin'⟩ := (h.kept a ha).resolve_right fun h => hpart h.1
      obtain ⟨hm', har', -⟩ := key_inj hkey
      exact holdsAdmin_iff.mpr ⟨a', ha', hm'.trans hm, har'.trans har, hadmin'.trans hoadmin⟩

/-- Revoking keeps the memberships in order where all that rests on a withdrawn
ADMIN option goes with it. -/
theorem revoke_inOrder (hs : s.MembershipsInOrder) (hspares : revoke.SparesAuthority s)
    (h : revoke.command.outcome s = (.applied, t)) (hknown : t.FactsKnown) :
    t.MembershipsInOrder := by
  obtain ⟨part, u, hu, rfl, hoption, hwithdraws⟩ := revoke_applied h
  obtain ⟨grantor, hgrantor, hloses⟩ := hspares
  rw [← roleMembershipGrantor_congr hu] at hgrantor
  obtain ⟨hcomplete, hwrite⟩ := write_of_complete hgrantor hknown.2
  rw [hwrite]
  unfold writeRecords
  dsimp only
  have hcompletes : s.roleMembershipGrantorsComplete = true := by
    rwa [← hu.roleMembershipGrantorsComplete]
  set pairs := membershipPairs (s.factRoles revoke.revokees) revoke.parents with hpairs
  refine finish_inOrder hs hcompletes ?_ hoption fun hpart => hloses (hwithdraws hpart)
  have hstart : SameContents s (if (pairs.any fun pair => u.roleMembershipGrantors.any
      (isFor pair.1 pair.2 grantor)) = true then u.snapshotRoleMembershipGrantors else u) :=
    keeps_ite (fun _ => hu.trans (.pushUndo u _)) fun _ => hu
  exact (RevokedFrom.start hs hstart).revokeRecords hcompletes pairs

end Order

end RevokeRoles

end SafeMigrate
