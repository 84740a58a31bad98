import SafeMigrate.RoleRecords

/-! What an applied `GRANT` of roles does to the membership records, and that the
memberships it adds close no cycle. -/

namespace SafeMigrate

open Command AnalysisState KeyedList RoleMembershipGrantor

/-- The state while the pairs of a grant are recorded. -/
structure GrantedFrom (s : AnalysisState) (options : MembershipOptions) (grantor : ObjectId)
    (pairs : List (ObjectId × ObjectId)) (t : AnalysisState) : Prop where
  same : SameRoles s t
  roles : t.roleAt = s.roleAt
  distinct : Distinct key t.roleMembershipGrantors
  origin : ∀ r' ∈ t.roleMembershipGrantors, (∃ r ∈ s.roleMembershipGrantors, r.key = r'.key) ∨
    r'.grantor = grantor ∧ (r'.member, r'.role) ∈ pairs
  kept : ∀ r ∈ s.roleMembershipGrantors, ∃ r' ∈ t.roleMembershipGrantors, r'.key = r.key ∧
    (r.admin = true → r'.admin = true ∨
      options.admin = some false ∧ r.grantor = grantor ∧ (r.member, r.role) ∈ pairs)
  others : ∀ r, r.member ∉ pairs.map (·.1) →
    (r ∈ t.roleMembershipGrantors ↔ r ∈ s.roleMembershipGrantors)

section Records

variable {s t : AnalysisState} {options : MembershipOptions} {grantor : ObjectId}
  {pairs : List (ObjectId × ObjectId)} {member parent : ObjectId}

theorem GrantedFrom.refl (h : Distinct key s.roleMembershipGrantors) :
    GrantedFrom s options grantor pairs s :=
  ⟨.refl s, rfl, h, fun r hr => Or.inl ⟨r, hr, rfl⟩, fun r hr => ⟨r, hr, rfl, Or.inl⟩,
    fun _ _ => Iff.rfl⟩

theorem GrantedFrom.updated (h : GrantedFrom s options grantor pairs t)
    (hpair : (member, parent) ∈ pairs) {f : RoleMembershipGrantor → RoleMembershipGrantor}
    (hkey : ∀ r, (f r).key = r.key)
    (hadmin : ∀ r, r.admin = true → (f r).admin = true ∨ options.admin = some false) :
    GrantedFrom s options grantor pairs (t.setRoleMembershipGrantors
      (updateFirst (isFor member parent grantor) f t.roleMembershipGrantors)) := by
  have hmem (x : RoleMembershipGrantor) := mem_updateFirst_isFor member parent
    grantor h.distinct (f := f) (x := x)
  refine ⟨h.same.trans (.setRecords t _), h.roles, ?_, fun r' hr' => ?_, fun r hr => ?_,
    fun r hr => ?_⟩
  · show ((updateFirst _ f _).map key).Nodup
    rw [map_key_updateFirst f hkey]
    exact h.distinct
  · rcases (hmem _).mp hr' with ⟨hold, -⟩ | ⟨old, hold, -, rfl⟩
    · exact h.origin r' hold
    · have hsame := hkey old
      rcases h.origin old hold with ⟨r, hr, heq⟩ | ⟨hgrantor, hin⟩
      · exact Or.inl ⟨r, hr, heq.trans hsame.symm⟩
      · obtain ⟨hm, hrest⟩ := Prod.mk.inj hsame
        obtain ⟨hro, hg⟩ := Prod.mk.inj hrest
        exact Or.inr ⟨hg.trans hgrantor, by rw [hm, hro]; exact hin⟩
  · obtain ⟨old, hold, heq, hkept⟩ := h.kept r hr
    by_cases hfor : old.key = (member, parent, grantor)
    · refine ⟨f old, (hmem _).mpr (Or.inr ⟨old, hold, hfor, rfl⟩), (hkey old).trans heq, fun hr => ?_⟩
      rcases hkept hr with hkept | hlost
      · rcases hadmin old hkept with hadmin | hfalse
        · exact Or.inl hadmin
        · obtain ⟨hm, hrest⟩ := Prod.mk.inj (heq.symm.trans hfor)
          obtain ⟨hro, hg⟩ := Prod.mk.inj hrest
          exact Or.inr ⟨hfalse, hg, by rw [hm, hro]; exact hpair⟩
      · exact Or.inr hlost
    · exact ⟨old, (hmem _).mpr (Or.inl ⟨hold, hfor⟩), heq, hkept⟩
  · rw [← h.others r hr]
    have hother : ∀ x : RoleMembershipGrantor, x.key = (member, parent, grantor) →
        r.member ≠ x.member := by
      intro x hx heq
      exact hr (List.mem_map.mpr ⟨(member, parent), hpair, (heq.trans (congrArg Prod.fst hx)).symm⟩)
    constructor
    · intro hr'
      rcases (hmem _).mp hr' with ⟨hold, -⟩ | ⟨old, -, hfor, rfl⟩
      · exact hold
      · exact absurd rfl (hother (f old) ((hkey old).trans hfor))
    · exact fun hold => (hmem _).mpr (Or.inl ⟨hold, fun hfor => hother r hfor rfl⟩)

theorem GrantedFrom.added (h : GrantedFrom s options grantor pairs t)
    (hpair : (member, parent) ∈ pairs) {new : RoleMembershipGrantor}
    (hnew : new.key = (member, parent, grantor))
    (hfree : t.roleMembershipGrantors.any (isFor member parent grantor) = false) :
    GrantedFrom s options grantor pairs
      (t.setRoleMembershipGrantors (t.roleMembershipGrantors ++ [new])) := by
  have hfresh : new.key ∉ t.roleMembershipGrantors.map key := by
    rw [hnew]
    intro hmem
    obtain ⟨r, hr, hkey⟩ := List.mem_map.mp hmem
    have hany := List.any_eq_true.mpr ⟨r, hr, isFor_iff.mpr hkey⟩
    rw [hfree] at hany
    cases hany
  obtain ⟨hm, hrest⟩ := Prod.mk.inj hnew
  obtain ⟨hro, hg⟩ := Prod.mk.inj hrest
  refine ⟨h.same.trans (.setRecords t _), h.roles, h.distinct.concat hfresh, fun r' hr' => ?_,
    fun r hr => ?_, fun r hr => ?_⟩
  · rcases List.mem_append.mp hr' with hold | hadded
    · exact h.origin r' hold
    · rw [List.mem_singleton.mp hadded]
      exact Or.inr ⟨hg, by rw [hm, hro]; exact hpair⟩
  · obtain ⟨old, hold, hkept⟩ := h.kept r hr
    exact ⟨old, List.mem_append_left _ hold, hkept⟩
  · rw [← h.others r hr]
    refine List.mem_append.trans (or_iff_left fun hadded => ?_)
    rw [List.mem_singleton.mp hadded, hm] at hr
    exact hr (List.mem_map.mpr ⟨(member, parent), hpair, rfl⟩)

theorem GrantedFrom.grantRecord (h : GrantedFrom s options grantor pairs t)
    (hpair : (member, parent) ∈ pairs) :
    GrantedFrom s options grantor pairs (t.grantRecord options grantor member parent) := by
  unfold AnalysisState.grantRecord
  dsimp only
  by_cases hany : t.roleMembershipGrantors.any (isFor member parent grantor) = true
  · rw [if_pos hany]
    refine h.updated hpair (fun _ => rfl) fun r hr => ?_
    cases hoption : options.admin with
    | none => exact Or.inl hr
    | some value => cases value <;> simp
  · rw [if_neg hany]
    exact h.added hpair rfl (Bool.not_eq_true _ ▸ hany)

theorem GrantedFrom.grantRecords (h : GrantedFrom s options grantor pairs t)
    {some : List (ObjectId × ObjectId)} (hsome : some ⊆ pairs) :
    GrantedFrom s options grantor pairs
      (some.foldl (fun s pair => s.grantRecord options grantor pair.1 pair.2) t) := by
  induction some generalizing t with
  | nil => exact h
  | cons pair some ih =>
    obtain ⟨hpair, hrest⟩ := List.cons_subset.mp hsome
    exact ih (h.grantRecord hpair) hrest

end Records

section Reconcile

/-- The lists of the grantees are rebuilt one role after the other. -/
theorem projected_reconcileAll {s : AnalysisState} (members : List ObjectId)
    (hcomplete : s.roleMembershipGrantorsComplete = true)
    (hs : ∀ id, id ∉ members → s.Projected id) :
    let t := members.foldl
      (fun s member => (s.snapshotRole member).reconcileMembershipProjection member) s
    SameRoles s t ∧ t.roleMembershipGrantors = s.roleMembershipGrantors ∧ ∀ id, t.Projected id := by
  induction members generalizing s with
  | nil => exact ⟨.refl s, rfl, fun id => hs id List.not_mem_nil⟩
  | cons member members ih =>
    have hsnapshot : SameContents s (s.snapshotRole member) := .pushUndo s _
    have hsame : SameRoles s ((s.snapshotRole member).reconcileMembershipProjection member) :=
      (SameRoles.of_contents hsnapshot).trans (sameRoles_reconcile _ member)
    have hrecords : ((s.snapshotRole member).reconcileMembershipProjection
        member).roleMembershipGrantors = s.roleMembershipGrantors := by
      rw [reconcile_records]
      exact hsnapshot.roleMembershipGrantors
    have hsnapped : (s.snapshotRole member).roleMembershipGrantorsComplete = true :=
      hsnapshot.roleMembershipGrantorsComplete.trans hcomplete
    have hprojected : ∀ id, id ∉ members →
        ((s.snapshotRole member).reconcileMembershipProjection member).Projected id := by
      intro id hid
      by_cases hmember : id = member
      · rw [hmember]
        exact projected_reconcile hsnapped
      · have hbefore : s.Projected id := hs id (by simp [hmember, hid])
        refine Projected.reconcile (hbefore.congr ?_ ?_)
        · exact congrFun hsnapshot.roleAt id
        · intro r _
          rw [hsnapshot.roleMembershipGrantors]
    obtain ⟨hrest, hkept, hall⟩ := ih (hsame.complete.trans hcomplete) hprojected
    exact ⟨hsame.trans hrest, hkept.trans hrecords, hall⟩

end Reconcile

section Cycles

variable {s t : AnalysisState} {proposed : List (ObjectId × ObjectId)}

/-- The membership graph that a statement proposes. -/
def Proposes (s : AnalysisState) (proposed : List (ObjectId × ObjectId)) (a b : ObjectId) : Prop :=
  b ∈ s.proposedRoles proposed a

theorem proposes_iff {a b : ObjectId} : Proposes s proposed a b ↔
    (∃ role, s.roleAt a = some role ∧ b ∈ role.memberOf) ∨ (a, b) ∈ proposed := by
  unfold Proposes proposedRoles
  rw [List.mem_append]
  refine or_congr ?_ ?_
  · cases s.roleAt a <;> simp
  · simp [List.mem_map, List.mem_filter]

theorem proposedRoles_domain {a : ObjectId} (ha : a ∉ s.proposalDomain proposed) :
    s.proposedRoles proposed a = [] := by
  rw [List.eq_nil_iff_forall_not_mem]
  intro b hb
  refine ha (List.mem_append.mpr ?_)
  rcases proposes_iff.mp hb with ⟨role, hrole, -⟩ | hpair
  · refine Or.inl (AList.mem_keys.mp (AList.lookup_isSome.mp ?_))
    unfold roleAt at hrole
    split at hrole
    · rename_i hlookup
      rw [hlookup]
      rfl
    · cases hrole
  · exact Or.inr (List.mem_map.mpr ⟨(a, b), hpair, rfl⟩)

theorem not_reached_of_wouldCycle {member parent : ObjectId}
    (h : s.wouldCycle proposed member parent = false) :
    ¬Relation.ReflTransGen (Proposes s proposed) parent member :=
  Worklist.not_reached_of_search (fun _ => proposedRoles_domain) (Nat.le_refl _) h

/-- A batch that passes leaves the proposed memberships without a cycle. -/
theorem checkCycles_ok {pairs : List (ObjectId × ObjectId)} {u v : AnalysisState} {a : Unit}
    (h : (checkCycles s proposed pairs).run.run u = (.ok a, v))
    (hacyclic : ∀ id, ¬Relation.TransGen (Proposes s proposed) id id) :
    ∀ id, ¬Relation.TransGen (Proposes s (proposed ++ pairs)) id id := by
  induction pairs generalizing proposed u with
  | nil =>
    rwa [List.append_nil]
  | cons pair pairs ih =>
    obtain ⟨member, parent⟩ := pair
    obtain ⟨_, w, hrefuse, hrest⟩ := exists_run_of_bind h
    obtain ⟨rfl, hfree⟩ := refuseIf_ok hrefuse
    have hextended := Worklist.acyclic_extended (S := Proposes s (proposed ++ [(member, parent)]))
      (m := member) (p := parent) (fun a b hab => ?_) hacyclic
      (not_reached_of_wouldCycle (Bool.not_eq_true _ ▸ hfree))
    · have hall := ih hrest hextended
      rwa [List.append_assoc] at hall
    · rw [proposes_iff, List.mem_append, ← or_assoc, ← proposes_iff] at hab
      refine hab.imp_right fun hnew => ?_
      exact Prod.mk.inj (List.mem_singleton.mp hnew)

end Cycles

end SafeMigrate
