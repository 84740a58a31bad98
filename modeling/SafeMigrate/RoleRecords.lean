import SafeMigrate.Bookkeeping
import SafeMigrate.KeyedList
import SafeMigrate.RoleCommands

/-! Membership records as a set: what granting and revoking do to them, and when
the roles' own lists say the same. -/

namespace SafeMigrate

open Command AnalysisState KeyedList RoleMembershipGrantor

namespace RoleMembershipGrantor

def key (r : RoleMembershipGrantor) : ObjectId × ObjectId × ObjectId := (r.member, r.role, r.grantor)

/-- The membership graph. -/
def Links (records : List RoleMembershipGrantor) (member role : ObjectId) : Prop :=
  ∃ r ∈ records, r.member = member ∧ r.role = role

variable {records : List RoleMembershipGrantor} {member role grantor : ObjectId}

theorem isFor_iff {r : RoleMembershipGrantor} :
    isFor member role grantor r = true ↔ r.key = (member, role, grantor) := by
  simp [isFor, key, and_assoc]

theorem eraseP_isFor : records.eraseP (isFor member role grantor) =
    remove key records (member, role, grantor) := by
  refine congrArg (List.eraseP · records) (funext fun r => ?_)
  rw [Bool.eq_iff_iff, isFor_iff]
  exact decide_eq_true_iff.symm

theorem holdsAdmin_iff : holdsAdmin records member role = true ↔
    ∃ r ∈ records, r.member = member ∧ r.role = role ∧ r.admin = true := by
  simp [holdsAdmin, and_assoc]

theorem mem_project {keep : RoleMembershipGrantor → Bool} {id : ObjectId} :
    id ∈ project records member keep ↔
      ∃ r ∈ records, r.member = member ∧ keep r = true ∧ r.role = id := by
  simp [project, mem_retainUnseen, and_assoc]

theorem mem_eraseP_isFor (h : Distinct key records) {r : RoleMembershipGrantor} :
    r ∈ records.eraseP (isFor member role grantor) ↔
      r ∈ records ∧ r.key ≠ (member, role, grantor) := by
  rw [eraseP_isFor, remove_eq_filter h, List.mem_filter, decide_eq_true_iff]

theorem distinct_eraseP_isFor (h : Distinct key records) :
    Distinct key (records.eraseP (isFor member role grantor)) :=
  h.sublist (List.eraseP_sublist.map key)

theorem map_key_updateFirst (f : RoleMembershipGrantor → RoleMembershipGrantor)
    (hf : ∀ r, (f r).key = r.key) (p : RoleMembershipGrantor → Bool) :
    (updateFirst p f records).map key = records.map key :=
  map_updateFirst (fun r _ => hf r) records

/-- Records of other keys stay as they are. -/
theorem mem_updateFirst_isFor (member role grantor : ObjectId) (h : Distinct key records)
    {f : RoleMembershipGrantor → RoleMembershipGrantor} {x : RoleMembershipGrantor} :
    x ∈ updateFirst (isFor member role grantor) f records ↔
      (x ∈ records ∧ x.key ≠ (member, role, grantor)) ∨
        ∃ r ∈ records, r.key = (member, role, grantor) ∧ x = f r := by
  induction records with
  | nil => simp [updateFirst]
  | cons r records ih =>
    have hn := List.nodup_cons.mp h
    by_cases hr : isFor member role grantor r = true
    · have hkey := isFor_iff.mp hr
      have hrest : ∀ y ∈ records, y.key ≠ (member, role, grantor) := fun y hy heq =>
        hn.1 (by rw [hkey, ← heq]; exact List.mem_map_of_mem hy)
      rw [updateFirst, if_pos hr, List.mem_cons]
      constructor
      · rintro (rfl | hx)
        · exact Or.inr ⟨r, List.mem_cons_self, hkey, rfl⟩
        · exact Or.inl ⟨List.mem_cons_of_mem _ hx, hrest x hx⟩
      · rintro (⟨hx, hne⟩ | ⟨y, hy, hykey, rfl⟩)
        · rcases List.mem_cons.mp hx with rfl | hx
          · exact absurd hkey hne
          · exact Or.inr hx
        · rcases List.mem_cons.mp hy with rfl | hy
          · exact Or.inl rfl
          · exact absurd hykey (hrest y hy)
    · have hkey : r.key ≠ (member, role, grantor) := fun heq => hr (isFor_iff.mpr heq)
      rw [updateFirst, if_neg hr, List.mem_cons, ih hn.2]
      constructor
      · rintro (rfl | ⟨hx, hne⟩ | ⟨y, hy, hykey, rfl⟩)
        · exact Or.inl ⟨List.mem_cons_self, hkey⟩
        · exact Or.inl ⟨List.mem_cons_of_mem _ hx, hne⟩
        · exact Or.inr ⟨y, List.mem_cons_of_mem _ hy, hykey, rfl⟩
      · rintro (⟨hx, hne⟩ | ⟨y, hy, hykey, rfl⟩)
        · rcases List.mem_cons.mp hx with rfl | hx
          · exact Or.inl rfl
          · exact Or.inr (Or.inl ⟨hx, hne⟩)
        · rcases List.mem_cons.mp hy with rfl | hy
          · exact absurd hykey hkey
          · exact Or.inr (Or.inr ⟨y, hy, hykey, rfl⟩)

end RoleMembershipGrantor

theorem SameContents.roleAt {s t : AnalysisState} (h : SameContents s t) : t.roleAt = s.roleAt :=
  h.reads (·.roleAt) fun _ => rfl

namespace AnalysisState

/-- The role's lists are the union of what the records of the member say. -/
structure ListsRecords (s : AnalysisState) (id : ObjectId) (role : RoleState) : Prop where
  memberOf : ∀ x, x ∈ role.memberOf ↔ x ∈ project s.roleMembershipGrantors id fun _ => true
  canAdminister : ∀ x, x ∈ role.canAdministerMembership ↔
    x ∈ project s.roleMembershipGrantors id (·.admin)
  canInherit : ∀ x, x ∈ role.canInheritFrom ↔ x ∈ project s.roleMembershipGrantors id (·.inherit)
  canSet : ∀ x, x ∈ role.canSetRoleTo ↔ x ∈ project s.roleMembershipGrantors id (·.set)

def Projected (s : AnalysisState) (id : ObjectId) : Prop :=
  ∀ role, s.roleAt id = some role → s.ListsRecords id role

/-- A superuser, or the bootstrap role. -/
def IsSupreme (s : AnalysisState) (id : ObjectId) : Prop :=
  (∃ role, s.roleAt id = some role ∧ role.isSuperuser = true) ∨
    s.bootstrapSuperuser.map roleId = some id

/-- Which roles there are has not changed, nor who of them is a superuser. -/
structure SameRoles (s t : AnalysisState) : Prop where
  known : t.rolesKnown = s.rolesKnown
  complete : t.roleMembershipGrantorsComplete = s.roleMembershipGrantorsComplete
  bootstrap : t.bootstrapSuperuser = s.bootstrapSuperuser
  superusers : ∀ id, (t.roleAt id).map (·.isSuperuser) = (s.roleAt id).map (·.isSuperuser)

namespace SameRoles

variable {s t u : AnalysisState}

theorem refl (s : AnalysisState) : SameRoles s s := ⟨rfl, rfl, rfl, fun _ => rfl⟩

theorem trans (h : SameRoles s t) (h' : SameRoles t u) : SameRoles s u :=
  ⟨h'.known.trans h.known, h'.complete.trans h.complete, h'.bootstrap.trans h.bootstrap,
    fun id => (h'.superusers id).trans (h.superusers id)⟩

theorem of_contents (h : SameContents s t) : SameRoles s t := by
  have hroles : t.roleAt = s.roleAt := h.roleAt
  exact ⟨h.rolesKnown, h.roleMembershipGrantorsComplete, h.bootstrapSuperuser,
    fun id => by rw [hroles]⟩

theorem setRecords (s : AnalysisState) (records : List RoleMembershipGrantor) :
    SameRoles s (s.setRoleMembershipGrantors records) := ⟨rfl, rfl, rfl, fun _ => rfl⟩

theorem isSupreme (h : SameRoles s t) {id : ObjectId} (hs : s.IsSupreme id) : t.IsSupreme id := by
  rcases hs with ⟨role, hrole, hsuper⟩ | hboot
  · have hsame := h.superusers id
    rw [hrole, Option.map_some, hsuper] at hsame
    obtain ⟨role', hrole', hsuper'⟩ := Option.map_eq_some_iff.mp hsame
    exact Or.inl ⟨role', hrole', hsuper'⟩
  · exact Or.inr (h.bootstrap ▸ hboot)

theorem isSome (h : SameRoles s t) (id : ObjectId) : (t.roleAt id).isSome = (s.roleAt id).isSome := by
  have hsame := congrArg Option.isSome (h.superusers id)
  simpa using hsame

end SameRoles

section Reconcile

variable {s : AnalysisState} {member : ObjectId}

theorem roleAt_insert (s : AnalysisState) (member id : ObjectId) (role : RoleState) :
    (s.setRoles (s.roles.insert member (.present role))).roleAt id =
      if id = member then some role else s.roleAt id := by
  unfold roleAt
  by_cases hid : id = member
  · subst hid
    simp [setRoles]
  · rw [if_neg hid]
    simp [setRoles, AList.lookup_insert_ne hid]

theorem roleAt_modify (s : AnalysisState) (member id : ObjectId) (f : RoleState → RoleState) :
    (s.modifyRole member f).roleAt id =
      if id = member then (s.roleAt member).map f else s.roleAt id := by
  unfold modifyRole
  cases hrole : s.roleAt member with
  | none =>
    by_cases hid : id = member
    · rw [if_pos hid, hid, hrole]
      rfl
    · rw [if_neg hid]
  | some role =>
    rw [Option.map_some]
    exact roleAt_insert s member id (f role)

theorem modifyRole_eq (s : AnalysisState) (member : ObjectId) (f : RoleState → RoleState) :
    (s.modifyRole member f).roleMembershipGrantors = s.roleMembershipGrantors ∧
      (s.modifyRole member f).roleMembershipGrantorsComplete = s.roleMembershipGrantorsComplete ∧
        (s.modifyRole member f).rolesKnown = s.rolesKnown ∧
          (s.modifyRole member f).bootstrapSuperuser = s.bootstrapSuperuser := by
  unfold modifyRole
  cases s.roleAt member <;> exact ⟨rfl, rfl, rfl, rfl⟩

theorem sameRoles_modify (s : AnalysisState) (member : ObjectId) {f : RoleState → RoleState}
    (hf : ∀ role, (f role).isSuperuser = role.isSuperuser) : SameRoles s (s.modifyRole member f) := by
  obtain ⟨-, hcomplete, hknown, hboot⟩ := modifyRole_eq s member f
  refine ⟨hknown, hcomplete, hboot, fun id => ?_⟩
  rw [roleAt_modify]
  by_cases hid : id = member
  · rw [if_pos hid, hid, Option.map_map]
    exact congrArg (Option.map · (s.roleAt member)) (funext hf)
  · rw [if_neg hid]

/-- What is known of the roles, and whether their records are complete, does not
grow. -/
structure NoMoreKnown (s t : AnalysisState) : Prop where
  roles : t.rolesKnown = s.rolesKnown
  complete : t.roleMembershipGrantorsComplete = true → s.roleMembershipGrantorsComplete = true

instance : Std.Refl NoMoreKnown := ⟨fun _ => ⟨rfl, id⟩⟩

instance : IsTrans AnalysisState NoMoreKnown :=
  ⟨fun _ _ _ h h' => ⟨h'.roles.trans h.roles, h.complete ∘ h'.complete⟩⟩

theorem noMoreKnown_of_contents {t : AnalysisState} (h : SameContents s t) : NoMoreKnown s t :=
  ⟨h.rolesKnown, fun hcomplete => by
    rwa [← h.roleMembershipGrantorsComplete]⟩

theorem noMoreKnown_modify (s : AnalysisState) (member : ObjectId) (f : RoleState → RoleState) :
    NoMoreKnown s ((s.snapshotRole member).modifyRole member f) := by
  obtain ⟨-, hcomplete, hknown, -⟩ := modifyRole_eq (s.snapshotRole member) member f
  refine IsTrans.trans _ _ _ (noMoreKnown_of_contents (.pushUndo s _)) ⟨hknown, fun h => ?_⟩
  rwa [hcomplete] at h

theorem reconcile_records (s : AnalysisState) (member : ObjectId) :
    (s.reconcileMembershipProjection member).roleMembershipGrantors = s.roleMembershipGrantors := by
  unfold reconcileMembershipProjection
  split
  · exact (modifyRole_eq s member _).1
  · rfl

theorem sameRoles_reconcile (s : AnalysisState) (member : ObjectId) :
    SameRoles s (s.reconcileMembershipProjection member) := by
  unfold reconcileMembershipProjection
  split
  · exact sameRoles_modify s member fun _ => rfl
  · exact .refl s

theorem noMoreKnown_reconcile (s : AnalysisState) (member : ObjectId) :
    NoMoreKnown s ((s.snapshotRole member).reconcileMembershipProjection member) := by
  unfold reconcileMembershipProjection
  exact keeps_ite (fun _ => noMoreKnown_modify s member _)
    fun _ => noMoreKnown_of_contents (.pushUndo s _)

theorem listsRecords_congr {t : AnalysisState} {id : ObjectId} {role : RoleState}
    (h : ∀ r, r.member = id → (r ∈ t.roleMembershipGrantors ↔ r ∈ s.roleMembershipGrantors))
    (hs : s.ListsRecords id role) : t.ListsRecords id role := by
  have hproject : ∀ keep x, x ∈ project t.roleMembershipGrantors id keep ↔
      x ∈ project s.roleMembershipGrantors id keep := by
    intro keep x
    rw [mem_project, mem_project]
    exact exists_congr fun r => and_congr_left fun hr => h r hr.1
  exact ⟨fun x => (hs.memberOf x).trans (hproject _ x).symm,
    fun x => (hs.canAdminister x).trans (hproject _ x).symm,
    fun x => (hs.canInherit x).trans (hproject _ x).symm,
    fun x => (hs.canSet x).trans (hproject _ x).symm⟩

/-- A role's lists follow from the records of its own memberships. -/
theorem Projected.congr {t : AnalysisState} {id : ObjectId} (hs : s.Projected id)
    (hrole : t.roleAt id = s.roleAt id)
    (h : ∀ r, r.member = id → (r ∈ t.roleMembershipGrantors ↔ r ∈ s.roleMembershipGrantors)) :
    t.Projected id := fun role hid => listsRecords_congr h (hs role (hrole ▸ hid))

theorem projected_reconcile (hcomplete : s.roleMembershipGrantorsComplete = true) :
    (s.reconcileMembershipProjection member).Projected member := by
  intro role hrole
  have hrecords := reconcile_records s member
  unfold reconcileMembershipProjection at hrole
  rw [if_pos hcomplete, roleAt_modify, if_pos rfl] at hrole
  obtain ⟨old, -, rfl⟩ := Option.map_eq_some_iff.mp hrole
  refine ⟨fun x => ?_, fun x => ?_, fun x => ?_, fun x => ?_⟩ <;> rw [hrecords]

theorem Projected.reconcile {id : ObjectId} (hs : s.Projected id) :
    (s.reconcileMembershipProjection member).Projected id := by
  by_cases hcomplete : s.roleMembershipGrantorsComplete = true
  · by_cases hid : id = member
    · subst hid
      exact projected_reconcile hcomplete
    · refine hs.congr ?_ fun r _ => by rw [reconcile_records]
      unfold reconcileMembershipProjection
      rw [if_pos hcomplete, roleAt_modify, if_neg hid]
  · unfold reconcileMembershipProjection
    rwa [if_neg hcomplete]

end Reconcile

end AnalysisState

end SafeMigrate
