import Mathlib.Order.Bounds.Basic
import SafeMigrate.RoleRuns

/-! The memberships that a `REVOKE ... CASCADE` of one role from one member leaves
without authority, and when exactly these go with the revoked one. -/

namespace SafeMigrate

open Command AnalysisState KeyedList RoleMembershipGrantor

namespace RoleMembershipGrantor

def GivesAdmin (r : RoleMembershipGrantor) (member role : ObjectId) : Prop :=
  r.member = member ∧ r.role = role ∧ r.admin = true

section Orphans

variable (records : List RoleMembershipGrantor) (supreme : ObjectId → Prop)
  (revoked : ObjectId × ObjectId × ObjectId)

/-- A record of the revoked role whose grantor had the ADMIN option on the role, and
has it no longer once the revoked record and the removed ones are gone. -/
structure LeftWithout (removed : Set RoleMembershipGrantor) (r : RoleMembershipGrantor) : Prop where
  mem : r ∈ records
  ne : r.key ≠ revoked
  role : r.role = revoked.2.1
  plain : ¬supreme r.grantor
  had : ∃ a ∈ records, a.GivesAdmin r.grantor r.role
  lost : ∀ a ∈ records, a.GivesAdmin r.grantor r.role → a.key = revoked ∨ a ∈ removed

inductive Orphaned : RoleMembershipGrantor → Prop
  | intro {r : RoleMembershipGrantor} (hr : r ∈ records) (hne : r.key ≠ revoked)
      (hrole : r.role = revoked.2.1) (hplain : ¬supreme r.grantor)
      (hhad : ∃ a ∈ records, a.GivesAdmin r.grantor r.role)
      (hlost : ∀ a ∈ records, a.GivesAdmin r.grantor r.role → a.key ≠ revoked → Orphaned a) :
      Orphaned r

/-- No other record gives the member the ADMIN option on the record's role, the
revoked one apart. -/
def Unshielded (r : RoleMembershipGrantor) : Prop :=
  r.key ≠ revoked ∧
    ∀ other ∈ records, other.GivesAdmin r.member r.role → other.key = revoked ∨ other.key = r.key

/-- The role had the ADMIN option on the revoked role by the revoked record alone, or by
an orphaned one. -/
def LosesAuthority (id : ObjectId) : Prop :=
  ∃ a ∈ records, a.GivesAdmin id revoked.2.1 ∧ (Orphaned records supreme revoked a ∨
    a.key = revoked ∧ ∀ other ∈ records, other.GivesAdmin id revoked.2.1 → other.key = revoked)

variable {records supreme revoked}

theorem orphaned_iff {r : RoleMembershipGrantor} : Orphaned records supreme revoked r ↔
    LeftWithout records supreme revoked {a | Orphaned records supreme revoked a} r := by
  constructor
  · intro h
    cases h with
    | intro hr hne hrole hplain hhad hlost =>
      refine ⟨hr, hne, hrole, hplain, hhad, fun a ha hadmin => ?_⟩
      by_cases hkey : a.key = revoked
      · exact Or.inl hkey
      · exact Or.inr (hlost a ha hadmin hkey)
  · intro h
    exact .intro h.mem h.ne h.role h.plain h.had fun a ha hadmin hkey =>
      (h.lost a ha hadmin).resolve_left hkey

/-- The orphaned records are the least set that holds every record left without
authority once the set is gone. -/
theorem orphaned_isLeast : IsLeast {removed : Set RoleMembershipGrantor |
    ∀ r, LeftWithout records supreme revoked removed r → r ∈ removed}
    {r | Orphaned records supreme revoked r} := by
  refine ⟨fun r hr => orphaned_iff.mpr hr, fun removed hremoved r horphan => ?_⟩
  change Orphaned records supreme revoked r at horphan
  induction horphan with
  | intro hr hne hrole hplain hhad hlost ih =>
    refine hremoved _ ⟨hr, hne, hrole, hplain, hhad, fun a ha hadmin => ?_⟩
    by_cases hkey : a.key = revoked
    · exact Or.inl hkey
    · exact Or.inr (ih a ha hadmin hkey)

/-- The grantor of an orphaned record is one that loses its authority. -/
theorem Orphaned.grantor_loses {r : RoleMembershipGrantor}
    (h : Orphaned records supreme revoked r) :
    LosesAuthority records supreme revoked r.grantor := by
  obtain ⟨-, -, hrole, -, ⟨a, ha, hadmin⟩, hlost⟩ := orphaned_iff.mp h
  rw [hrole] at hadmin hlost
  by_cases hall : ∀ other ∈ records, other.GivesAdmin r.grantor revoked.2.1 → other.key = revoked
  · exact ⟨a, ha, hadmin, Or.inr ⟨hall a ha hadmin, hall⟩⟩
  · push Not at hall
    obtain ⟨other, hother, hgives, hkey⟩ := hall
    exact ⟨other, hother, hgives, Or.inl ((hlost other hother hgives).resolve_left hkey)⟩

/-- What a role granted that loses its authority is orphaned, if the role has no ADMIN
record left. -/
theorem LosesAuthority.orphaned {r : RoleMembershipGrantor}
    (h : LosesAuthority records supreme revoked r.grantor)
    (hshields : ∀ a, Orphaned records supreme revoked a → Unshielded records revoked a)
    (hdistinct : Distinct key records) (hr : r ∈ records) (hne : r.key ≠ revoked)
    (hrole : r.role = revoked.2.1) (hplain : ¬supreme r.grantor) :
    Orphaned records supreme revoked r := by
  obtain ⟨a, ha, hadmin, hcase⟩ := h
  refine .intro hr hne hrole hplain ⟨a, ha, hrole ▸ hadmin⟩ fun b hb hgives hkey => ?_
  rw [hrole] at hgives
  rcases hcase with horphan | ⟨-, hall⟩
  · obtain ⟨-, hothers⟩ := hshields a horphan
    have hsame : b.key = a.key := by
      refine (hothers b hb ?_).resolve_left hkey
      rw [hadmin.1, hadmin.2.1]
      exact hgives
    rwa [List.inj_on_of_nodup_map hdistinct hb ha hsame]
  · exact absurd (hall b hb hgives) hkey

end Orphans

end RoleMembershipGrantor

section Revoke

variable {revoke : RevokeRoles} {s u : AnalysisState} {member role grantor : ObjectId}

/-- What a revoke of one membership leaves for the cascade. -/
theorem revokeRecord_membership (hdistinct : Distinct key u.roleMembershipGrantors) :
    let progress := revoke.revokeRecord .membership grantor (u, []) (member, role)
    progress.1.roleMembershipGrantors =
      u.roleMembershipGrantors.eraseP (isFor member role grantor) ∧
    ∀ id, id ∈ progress.2 ↔ id = member ∧ ∃ a ∈ u.roleMembershipGrantors,
      a.key = (member, role, grantor) ∧ a.admin = true ∧
        ∀ other ∈ u.roleMembershipGrantors, other.GivesAdmin member role →
          other.key = (member, role, grantor) := by
  have hstill : holdsAdmin (u.roleMembershipGrantors.eraseP (isFor member role grantor)) member
      role = false ↔ ∀ other ∈ u.roleMembershipGrantors, other.GivesAdmin member role →
        other.key = (member, role, grantor) := by
    rw [← Bool.not_eq_true, holdsAdmin_iff]
    simp only [mem_eraseP_isFor hdistinct, GivesAdmin]
    grind
  intro progress
  cases hfind : u.roleMembershipGrantors.find? (isFor member role grantor) with
  | none =>
    have hprogress : progress = (u, []) := by
      simp only [progress, RevokeRoles.revokeRecord, hfind]
    have habsent : ∀ a ∈ u.roleMembershipGrantors, a.key ≠ (member, role, grantor) :=
      fun a ha hkey => List.find?_eq_none.mp hfind a ha (isFor_iff.mpr hkey)
    rw [hprogress]
    refine ⟨(List.eraseP_of_forall_not fun a ha => ?_).symm, fun id => ?_⟩
    · exact fun hfor => habsent a ha (isFor_iff.mp hfor)
    · simp only [List.not_mem_nil, false_iff, not_and]
      rintro - ⟨a, ha, hkey, -⟩
      exact habsent a ha hkey
  | some record =>
    have hrecord : record ∈ u.roleMembershipGrantors := List.mem_of_find?_eq_some hfind
    have hfor : record.key = (member, role, grantor) := isFor_iff.mp (List.find?_some hfind)
    have honly : ∀ a ∈ u.roleMembershipGrantors, a.key = (member, role, grantor) → a = record :=
      fun a ha hkey => List.inj_on_of_nodup_map hdistinct ha hrecord (hkey.trans hfor.symm)
    have hsnapshot : SameContents
        (u.setRoleMembershipGrantors (u.roleMembershipGrantors.eraseP (isFor member role grantor)))
        ((u.setRoleMembershipGrantors
          (u.roleMembershipGrantors.eraseP (isFor member role grantor))).snapshotRole member) :=
      .pushUndo _ _
    constructor
    · simp only [progress, RevokeRoles.revokeRecord, hfind, reconcile_records]
      exact hsnapshot.roleMembershipGrantors
    · intro id
      simp only [progress, RevokeRoles.revokeRecord, hfind, List.nil_append, ← hstill]
      cases hadmin : record.admin <;>
        cases holdsAdmin (u.roleMembershipGrantors.eraseP (isFor member role grantor)) member role
      all_goals grind

theorem mem_recordsGrantedBy_erased {v : AnalysisState}
    (hdistinct : Distinct key u.roleMembershipGrantors)
    (hv : v.roleMembershipGrantors =
      u.roleMembershipGrantors.eraseP (isFor member role grantor)) {g : ObjectId}
    {r : RoleMembershipGrantor} : r ∈ v.recordsGrantedBy g ↔ r ∈ u.roleMembershipGrantors ∧
      r.grantor = g ∧ Unshielded u.roleMembershipGrantors (member, role, grantor) r := by
  have hleft : Distinct key v.roleMembershipGrantors := hv ▸ distinct_eraseP_isFor hdistinct
  rw [mem_recordsGrantedBy hleft, hv]
  simp only [mem_eraseP_isFor hdistinct, Unshielded, GivesAdmin]
  grind

/-- The records that the cascade withdraws are the orphaned ones exactly if no orphaned
record is shielded, and if a role that loses its authority granted no other record that
is not shielded. -/
theorem withdrawn_orphans_iff {v : AnalysisState} {initial : List ObjectId}
    {supreme : ObjectId → Prop}
    (hdistinct : Distinct key u.roleMembershipGrantors)
    (hv : v.roleMembershipGrantors =
      u.roleMembershipGrantors.eraseP (isFor member role grantor))
    (hinitial : ∀ id, id ∈ initial ↔ id = member ∧ ∃ a ∈ u.roleMembershipGrantors,
      a.key = (member, role, grantor) ∧ a.admin = true ∧
        ∀ other ∈ u.roleMembershipGrantors, other.GivesAdmin member role →
          other.key = (member, role, grantor)) :
    let records := u.roleMembershipGrantors
    let revoked := (member, role, grantor)
    (∀ r, r ∈ v.withdrawnRecords initial ↔ Orphaned records supreme revoked r) ↔
      (∀ r, Orphaned records supreme revoked r → Unshielded records revoked r) ∧
        ∀ r ∈ records, LosesAuthority records supreme revoked r.grantor →
          Unshielded records revoked r → r.role = role ∧ ¬supreme r.grantor := by
  intro records revoked
  have hgrants (g : ObjectId) (r : RoleMembershipGrantor) : r ∈ v.recordsGrantedBy g ↔
      r ∈ records ∧ r.grantor = g ∧ Unshielded records revoked r :=
    mem_recordsGrantedBy_erased hdistinct hv
  have hstart : ∀ id, LosesAuthority records supreme revoked id → id ∈ initial ∨
      ∃ a, Orphaned records supreme revoked a ∧ a.GivesAdmin id role := by
    rintro id ⟨a, ha, hgives, horphan | ⟨hkey, hall⟩⟩
    · exact Or.inr ⟨a, horphan, hgives⟩
    · refine Or.inl ((hinitial id).mpr ?_)
      obtain rfl : id = member := hgives.1.symm.trans (Prod.mk.inj hkey).1
      exact ⟨rfl, a, ha, hkey, hgives.2.2, hall⟩
  constructor
  · intro hwithdrawn
    obtain ⟨visited, hbegin, hclosed, hfrom, -⟩ := withdrawnRecords_spec v initial
      (Q := fun _ => True) (fun _ _ => trivial) fun _ _ _ _ _ => trivial
    refine ⟨fun r horphan => ?_, fun r hr hloses hshield => ?_⟩
    · obtain ⟨g, -, hgranted⟩ := hfrom r ((hwithdrawn r).mpr horphan)
      exact ((hgrants g r).mp hgranted).2.2
    · have hvisited : r.grantor ∈ visited := by
        rcases hstart r.grantor hloses with hmem | ⟨a, horphan, hgives⟩
        · exact hbegin hmem
        · obtain ⟨g, hg, hgranted⟩ := hfrom a ((hwithdrawn a).mpr horphan)
          rw [← hgives.1]
          exact (hclosed g hg a hgranted).2 hgives.2.2
      have hgranted := (hgrants r.grantor r).mpr ⟨hr, rfl, hshield⟩
      have horphan := (hwithdrawn r).mp (hclosed _ hvisited r hgranted).1
      exact ⟨(orphaned_iff.mp horphan).role, (orphaned_iff.mp horphan).plain⟩
  · rintro ⟨hshields, hlosers⟩
    have hstep : ∀ g r, LosesAuthority records supreme revoked g → r ∈ v.recordsGrantedBy g →
        Orphaned records supreme revoked r := by
      intro g r hg hgranted
      obtain ⟨hr, rfl, hshield⟩ := (hgrants g r).mp hgranted
      obtain ⟨hrole, hplain⟩ := hlosers r hr hg hshield
      exact hg.orphaned hshields hdistinct hr hshield.1 hrole hplain
    obtain ⟨visited, hbegin, hclosed, hfrom, hloses⟩ := withdrawnRecords_spec v initial
      (Q := LosesAuthority records supreme revoked)
      (fun id hid => by
        obtain ⟨rfl, a, ha, hkey, hadmin, hall⟩ := (hinitial id).mp hid
        have hrole : a.role = role := (Prod.mk.inj (Prod.mk.inj hkey).2).1
        exact ⟨a, ha, ⟨(Prod.mk.inj hkey).1, hrole, hadmin⟩, Or.inr ⟨hkey, hall⟩⟩)
      (fun g r hg hgranted hadmin => by
        have horphan := hstep g r hg hgranted
        have hleft := orphaned_iff.mp horphan
        exact ⟨r, hleft.mem, ⟨rfl, hleft.role, hadmin⟩, Or.inl horphan⟩)
    intro r
    constructor
    · intro hr
      obtain ⟨g, hg, hgranted⟩ := hfrom r hr
      exact hstep g r (hloses g hg) hgranted
    · intro horphan
      -- along the orphaned records: the grantor of each is visited
      induction horphan with
      | intro hr hne hrole hplain hhad hlost ih =>
        rename_i r
        have horphan : Orphaned records supreme revoked r := .intro hr hne hrole hplain hhad hlost
        have hvisited : r.grantor ∈ visited := by
          obtain ⟨a, ha, hgives, hcase⟩ := horphan.grantor_loses
          rcases hstart r.grantor ⟨a, ha, hgives, hcase⟩ with hmem | ⟨a, haorphan, hgives⟩
          · exact hbegin hmem
          · have hleft := orphaned_iff.mp haorphan
            obtain ⟨g, hg, hgranted⟩ := hfrom a (ih a hleft.mem (hrole ▸ hgives) hleft.ne)
            rw [← hgives.1]
            exact (hclosed g hg a hgranted).2 hgives.2.2
        have hgranted := (hgrants r.grantor r).mpr ⟨hr, rfl, hshields r horphan⟩
        exact (hclosed _ hvisited r hgranted).1

/-- The records that an applied revoke of one membership leaves. -/
theorem revokeOne_records {t : AnalysisState} {name : String} (hroles : revoke.roles = [name])
    (hrevokees : s.factRoles revoke.revokees = [member])
    (hgrantor : s.roleMembershipGrantor revoke.grantedBy = some grantor)
    (hcascade : revoke.cascade = true) (hoption : revoke.roleOption = none)
    (hcomplete : s.roleMembershipGrantorsComplete = true)
    (hdistinct : Distinct key s.roleMembershipGrantors)
    (h : revoke.command.outcome s = (.applied, t)) :
    ∃ (v : AnalysisState) (initial : List ObjectId), v.roleMembershipGrantors =
        s.roleMembershipGrantors.eraseP (isFor member (roleId name) grantor) ∧
      (∀ id, id ∈ initial ↔ id = member ∧ ∃ a ∈ s.roleMembershipGrantors,
        a.key = (member, roleId name, grantor) ∧ a.admin = true ∧
          ∀ other ∈ s.roleMembershipGrantors, other.GivesAdmin member (roleId name) →
            other.key = (member, roleId name, grantor)) ∧
      ∀ r, r ∈ t.roleMembershipGrantors ↔ r ∈ s.roleMembershipGrantors ∧
        r.key ≠ (member, roleId name, grantor) ∧ r ∉ v.withdrawnRecords initial := by
  obtain ⟨part, u, hu, rfl, hpart, -⟩ := RevokeRoles.revoke_applied h
  obtain rfl := hpart hoption
  have hrecords : u.roleMembershipGrantors = s.roleMembershipGrantors :=
    hu.roleMembershipGrantors
  have hcompletes : u.roleMembershipGrantorsComplete = true := by
    rw [hu.roleMembershipGrantorsComplete, hcomplete]
  rw [← roleMembershipGrantor_congr hu] at hgrantor
  have hpairs : membershipPairs [member] revoke.parents = [(member, roleId name)] := by
    simp [membershipPairs, RevokeRoles.parents, hroles]
  have hwrite : revoke.write .membership [member] u =
      revoke.writeRecords .membership grantor [member] u := by
    simp only [RevokeRoles.write, hgrantor, hcompletes, if_true]
  rw [hrevokees, hwrite]
  unfold RevokeRoles.writeRecords
  simp only [hpairs, List.foldl_cons, List.foldl_nil, hcascade, Bool.true_and]
  -- the state of the first phase: that of the checks, the records saved if one is named
  set w := if ([(member, roleId name)].any fun pair =>
      u.roleMembershipGrantors.any (isFor pair.1 pair.2 grantor)) = true then
    u.snapshotRoleMembershipGrantors else u with hw
  have hwrecords : w.roleMembershipGrantors = s.roleMembershipGrantors := by
    have hkeeps : SameContents u w :=
      keeps_ite (fun _ => SameContents.pushUndo u _) fun _ => SameContents.refl u
    rw [hkeeps.roleMembershipGrantors, hrecords]
  obtain ⟨hleft, hinitial⟩ :=
    @revokeRecord_membership revoke w member (roleId name) grantor (hwrecords ▸ hdistinct)
  rw [hwrecords] at hleft hinitial
  set progress := revoke.revokeRecord .membership grantor (w, []) (member, roleId name)
  refine ⟨progress.1, progress.2, hleft, hinitial, fun r => ?_⟩
  have hdone : Distinct key progress.1.roleMembershipGrantors :=
    hleft ▸ distinct_eraseP_isFor hdistinct
  have hmem : r ∈ progress.1.roleMembershipGrantors ↔ r ∈ s.roleMembershipGrantors ∧
      r.key ≠ (member, roleId name, grantor) := by rw [hleft, mem_eraseP_isFor hdistinct]
  by_cases hempty : progress.2 = []
  · have hnone : progress.1.withdrawnRecords [] = [] := by
      rw [List.eq_nil_iff_forall_not_mem]
      intro r hr
      obtain ⟨_, -, -, hfrom, hnever⟩ := withdrawnRecords_spec progress.1 []
        (Q := fun _ => False) (by simp) fun _ _ h _ _ => h
      obtain ⟨g, hg, -⟩ := hfrom r hr
      exact hnever g hg
    simp only [hempty, List.isEmpty_nil, hnone]
    simpa using hmem
  · have hsome : progress.2.isEmpty = false := by simp [hempty]
    simp only [hsome, Bool.not_false, if_true, cascade_records hdone, List.mem_filter, hmem,
      decide_eq_true_iff, and_assoc]

/-- A revoke of one membership with `CASCADE` leaves all records but the revoked one and the
least set of records left without authority exactly if no record of that set is shielded,
and if what else a role granted that loses its authority is shielded. -/
theorem revokeCascade_orphans_iff {t : AnalysisState} {name : String}
    (hroles : revoke.roles = [name]) (hrevokees : s.factRoles revoke.revokees = [member])
    (hgrantor : s.roleMembershipGrantor revoke.grantedBy = some grantor)
    (hcascade : revoke.cascade = true) (hoption : revoke.roleOption = none)
    (hcomplete : s.roleMembershipGrantorsComplete = true)
    (hdistinct : Distinct key s.roleMembershipGrantors)
    (h : revoke.command.outcome s = (.applied, t)) :
    let records := s.roleMembershipGrantors
    let revoked := (member, roleId name, grantor)
    IsLeast {removed : Set RoleMembershipGrantor |
        ∀ r, LeftWithout records s.IsSupreme revoked removed r → r ∈ removed}
      {r | Orphaned records s.IsSupreme revoked r} ∧
    ((∀ r, r ∈ t.roleMembershipGrantors ↔
        r ∈ records ∧ r.key ≠ revoked ∧ ¬Orphaned records s.IsSupreme revoked r) ↔
      (∀ r, Orphaned records s.IsSupreme revoked r → Unshielded records revoked r) ∧
        ∀ r ∈ records, LosesAuthority records s.IsSupreme revoked r.grantor →
          Unshielded records revoked r → r.role = roleId name ∧ ¬s.IsSupreme r.grantor) := by
  intro records revoked
  obtain ⟨v, initial, hv, hinitial, ht⟩ := revokeOne_records hroles hrevokees hgrantor hcascade
    hoption hcomplete hdistinct h
  refine ⟨orphaned_isLeast, Iff.trans ?_ (withdrawn_orphans_iff hdistinct hv hinitial)⟩
  have hleft : Distinct key v.roleMembershipGrantors := hv ▸ distinct_eraseP_isFor hdistinct
  have hremoved : ∀ r ∈ v.withdrawnRecords initial, r ∈ records ∧ r.key ≠ revoked := by
    intro r hr
    have hmem := withdrawnRecords_subset hleft initial hr
    rwa [hv, mem_eraseP_isFor hdistinct] at hmem
  refine forall_congr' fun r => ?_
  rw [ht r]
  constructor
  · intro hiff
    constructor
    · intro hr
      obtain ⟨hmem, hne⟩ := hremoved r hr
      by_contra hkept
      exact (hiff.mpr ⟨hmem, hne, hkept⟩).2.2 hr
    · intro horphan
      have hlost := orphaned_iff.mp horphan
      by_contra hkept
      exact (hiff.mp ⟨hlost.mem, hlost.ne, hkept⟩).2.2 horphan
  · intro hiff
    exact and_congr_right fun _ => and_congr_right fun _ => not_congr hiff

end Revoke

section Cluster

/-- The roles of a cluster, all created by its bootstrap superuser. -/
def rolesNamed (names : List String) : AnalysisState :=
  names.foldl (fun s name => (s.applyRoleStatement (createNamed name)).2) cluster

def adminRecord (member role grantor : String) : RoleMembershipGrantor :=
  ⟨roleId member, roleId role, roleId grantor, true, true, true⟩

def plainRecord (member role grantor : String) : RoleMembershipGrantor :=
  ⟨roleId member, roleId role, roleId grantor, false, true, true⟩

/-- `REVOKE a FROM b CASCADE` -/
def revokeAFromB : RevokeRoles :=
  { roles := ["a"], revokees := [.named "b" false], cascade := true }

def afterRevoke (s : AnalysisState) : AnalysisState := (revokeAFromB.command.outcome s).2

theorem rolesNamed_plain {names : List String} {records : List RoleMembershipGrantor}
    {name : String}
    (hrole : (((rolesNamed names).setRoleMembershipGrantors records).roleAt (roleId name)).map
      (·.isSuperuser) = some false)
    (hboot : ((rolesNamed names).setRoleMembershipGrantors records).bootstrapSuperuser.map roleId ≠
      some (roleId name)) :
    ¬((rolesNamed names).setRoleMembershipGrantors records).IsSupreme (roleId name) := by
  rintro (⟨role, hpresent, hsuper⟩ | hsame)
  · rw [hpresent, Option.map_some, hsuper] at hrole
    cases hrole
  · exact hboot hsame

/-- `b` administers `a` and `c`, and has granted `c` to `d`. -/
def twoRoles : AnalysisState :=
  (rolesNamed ["a", "b", "c", "d"]).setRoleMembershipGrantors
    [adminRecord "b" "a" "postgres", adminRecord "b" "c" "postgres", plainRecord "d" "c" "b"]

/-- `b` has granted `a` to `c` and `d`, and both of them to `e`. -/
def twoGrantors : AnalysisState :=
  (rolesNamed ["a", "b", "c", "d", "e"]).setRoleMembershipGrantors
    [adminRecord "b" "a" "postgres", adminRecord "c" "a" "b", adminRecord "d" "a" "b",
      adminRecord "e" "a" "c", adminRecord "e" "a" "d"]

def revokedFromPostgres : ObjectId × ObjectId × ObjectId :=
  (roleId "b", roleId "a", roleId "postgres")

/-- A record of another role goes, and the records that two orphaned grantors gave the
same member stay. -/
theorem revokeAFromB_orphans :
    (revokeAFromB.command.outcome twoRoles).1 = .applied ∧
    ¬(∀ r, r ∈ (afterRevoke twoRoles).roleMembershipGrantors ↔
      r ∈ twoRoles.roleMembershipGrantors ∧ r.key ≠ revokedFromPostgres ∧
        ¬Orphaned twoRoles.roleMembershipGrantors twoRoles.IsSupreme revokedFromPostgres r) ∧
    (revokeAFromB.command.outcome twoGrantors).1 = .applied ∧
    ¬(∀ r, r ∈ (afterRevoke twoGrantors).roleMembershipGrantors ↔
      r ∈ twoGrantors.roleMembershipGrantors ∧ r.key ≠ revokedFromPostgres ∧
        ¬Orphaned twoGrantors.roleMembershipGrantors twoGrantors.IsSupreme revokedFromPostgres
          r) := by
  refine ⟨by decide +kernel, fun hclaim => ?_, by decide +kernel, fun hclaim => ?_⟩
  · have hkept : plainRecord "d" "c" "b" ∈ (afterRevoke twoRoles).roleMembershipGrantors := by
      refine (hclaim _).mpr ⟨by decide +kernel, by decide, fun horphan => ?_⟩
      have hrole := (orphaned_iff.mp horphan).role
      revert hrole
      decide
    revert hkept
    decide +kernel
  · have hrecords : twoGrantors.roleMembershipGrantors = [adminRecord "b" "a" "postgres",
        adminRecord "c" "a" "b", adminRecord "d" "a" "b", adminRecord "e" "a" "c",
        adminRecord "e" "a" "d"] := by decide +kernel
    have horphan (name : String)
        (hmem : adminRecord name "a" "b" ∈ twoGrantors.roleMembershipGrantors) :
        Orphaned twoGrantors.roleMembershipGrantors twoGrantors.IsSupreme revokedFromPostgres
          (adminRecord name "a" "b") := by
      refine .intro hmem ?_ rfl (rolesNamed_plain (by decide +kernel) (by decide +kernel))
        ⟨adminRecord "b" "a" "postgres", by decide +kernel, rfl, rfl, rfl⟩ fun a ha hgives hne => ?_
      · simp [adminRecord, key, revokedFromPostgres, roleId]
      · rw [hrecords] at ha
        simp only [List.mem_cons, List.not_mem_nil, or_false] at ha
        rcases ha with rfl | rfl | rfl | rfl | rfl <;>
          simp_all [adminRecord, key, revokedFromPostgres, roleId, GivesAdmin]
    have hgone : adminRecord "e" "a" "c" ∉ (afterRevoke twoGrantors).roleMembershipGrantors := by
      intro hmem
      refine ((hclaim _).mp hmem).2.2 (.intro (by decide +kernel) (by decide) rfl
        (rolesNamed_plain (by decide +kernel) (by decide +kernel))
        ⟨adminRecord "c" "a" "b", by decide +kernel, rfl, rfl, rfl⟩ fun a ha hgives hne => ?_)
      rw [hrecords] at ha
      simp only [List.mem_cons, List.not_mem_nil, or_false] at ha
      rcases ha with rfl | rfl | rfl | rfl | rfl
      · exact absurd rfl hne
      · exact horphan "c" (by decide +kernel)
      · exact absurd hgives.1 (by decide)
      · exact absurd hgives.1 (by decide)
      · exact absurd hgives.1 (by decide)
    revert hgone
    decide +kernel

/-- `b` has granted `a` to `c`. -/
def chain : AnalysisState :=
  (rolesNamed ["a", "b", "c"]).setRoleMembershipGrantors
    [adminRecord "b" "a" "postgres", plainRecord "c" "a" "b"]

theorem revokeAFromB_chain :
    (afterRevoke chain).roleMembershipGrantors = [] ∧
    Orphaned chain.roleMembershipGrantors chain.IsSupreme revokedFromPostgres
      (plainRecord "c" "a" "b") := by
  have hrecords : chain.roleMembershipGrantors =
      [adminRecord "b" "a" "postgres", plainRecord "c" "a" "b"] := by decide +kernel
  have hafter : (afterRevoke chain).roleMembershipGrantors = [] := by decide +kernel
  have hdistinct : Distinct key chain.roleMembershipGrantors := by
    rw [Distinct, hrecords]
    decide
  have happlied : revokeAFromB.command.outcome chain = (.applied, afterRevoke chain) :=
    Prod.ext (by decide +kernel) rfl
  have hsound := (@revokeCascade_orphans_iff revokeAFromB chain (roleId "b") (roleId "postgres")
    (afterRevoke chain) "a" rfl (by decide +kernel) (by decide +kernel) rfl rfl (by decide +kernel)
    hdistinct happlied).2
  have hleft : ∀ r, r ∈ chain.roleMembershipGrantors → r.key ≠ revokedFromPostgres →
      r = plainRecord "c" "a" "b" := by
    intro r hr hne
    rw [hrecords, List.mem_cons, List.mem_singleton] at hr
    exact hr.resolve_left fun hsame => hne (by rw [hsame]; rfl)
  have hall := hsound.mpr ⟨fun r horphan => ?_, fun r hr _ hshield => ?_⟩
  · refine ⟨hafter, by_contra fun hkept => ?_⟩
    have hmem := (hall (plainRecord "c" "a" "b")).mpr ⟨by decide +kernel, by decide, hkept⟩
    rw [hafter] at hmem
    cases hmem
  · have hlost := orphaned_iff.mp horphan
    obtain rfl := hleft r hlost.mem hlost.ne
    refine ⟨by decide, fun other hother hgives => Or.inl ?_⟩
    rw [hrecords, List.mem_cons, List.mem_singleton] at hother
    rcases hother with rfl | rfl
    · rfl
    · exact absurd hgives.2.2 (by decide)
  · obtain rfl := hleft r hr hshield.1
    exact ⟨rfl, rolesNamed_plain (by decide +kernel) (by decide +kernel)⟩

end Cluster

end SafeMigrate
