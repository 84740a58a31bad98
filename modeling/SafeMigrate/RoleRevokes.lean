import SafeMigrate.RoleMemberships

/-! What an applied `REVOKE` of roles does to the membership records: the records
that it names, and those that the cascade withdraws with them. -/

namespace SafeMigrate

open Command AnalysisState KeyedList RoleMembershipGrantor

/-- What takes away an ADMIN option that others may rest on. -/
def RevokedPart.withdraws (part : RevokedPart) : Prop := part = .membership ∨ part = .adminOption

/-- The state once the pairs of a revoke are handled, with the members that the
cascade starts from. -/
structure RevokedFrom (s : AnalysisState) (cascade : Bool) (part : RevokedPart) (grantor : ObjectId)
    (pairs : List (ObjectId × ObjectId)) (progress : AnalysisState × List ObjectId) : Prop where
  same : SameRoles s progress.1
  distinct : Distinct key progress.1.roleMembershipGrantors
  projected : ∀ id, progress.1.Projected id
  origin : ∀ r' ∈ progress.1.roleMembershipGrantors, ∃ r ∈ s.roleMembershipGrantors,
    r.key = r'.key ∧ (r'.admin = true → r.admin = true)
  kept : ∀ r ∈ s.roleMembershipGrantors,
    (∃ r' ∈ progress.1.roleMembershipGrantors, r'.key = r.key ∧ r'.admin = r.admin) ∨
      part.withdraws ∧ r.grantor = grantor ∧ (r.member, r.role) ∈ pairs
  revoked : part.withdraws → ∀ r' ∈ progress.1.roleMembershipGrantors, r'.grantor = grantor →
    (r'.member, r'.role) ∈ pairs → r'.admin = false ∧ part ≠ .membership
  lost : cascade = true → ∀ r ∈ s.roleMembershipGrantors, r.admin = true →
    (∃ r' ∈ progress.1.roleMembershipGrantors, r'.key = r.key ∧ r'.admin = true) ∨
      r.member ∈ progress.2 ∨ ∃ other ∈ s.roleMembershipGrantors, other.member = r.member ∧
        other.role = r.role ∧ other.admin = true ∧ other.grantor ≠ grantor
  members : ∀ m ∈ progress.2, part.withdraws ∧ ∃ r ∈ s.roleMembershipGrantors, r.member = m ∧
    r.admin = true ∧ r.grantor = grantor ∧ (r.member, r.role) ∈ pairs ∧
      ∀ other ∈ s.roleMembershipGrantors, other.member = r.member → other.role = r.role →
        other.admin = true → other.grantor = grantor

section Records

variable {s : AnalysisState} {cascade : Bool} {part : RevokedPart} {grantor : ObjectId}
  {pairs : List (ObjectId × ObjectId)} {progress : AnalysisState × List ObjectId}
  {member parent : ObjectId}

theorem RevokedFrom.start {u : AnalysisState} (hs : s.MembershipsInOrder) (hu : SameContents s u) :
    RevokedFrom s cascade part grantor [] (u, []) := by
  have hrecords : u.roleMembershipGrantors = s.roleMembershipGrantors :=
    hu.roleMembershipGrantors
  refine ⟨.of_contents hu, (MembershipsInOrder.of_contents hs hu).distinct,
    (MembershipsInOrder.of_contents hs hu).projected,
    fun r hr => ⟨r, hrecords ▸ hr, rfl, id⟩, fun r hr => Or.inl ⟨r, hrecords ▸ hr, rfl, rfl⟩,
    by simp, fun _ r hr h => Or.inl ⟨r, hrecords ▸ hr, rfl, h⟩, by simp⟩

theorem key_inj {r r' : RoleMembershipGrantor} (h : r.key = r'.key) :
    r.member = r'.member ∧ r.role = r'.role ∧ r.grantor = r'.grantor := by
  obtain ⟨hm, hrest⟩ := Prod.mk.inj h
  exact ⟨hm, Prod.mk.inj hrest⟩

theorem mem_handled {pair : ObjectId × ObjectId} :
    pair ∈ pairs ++ [(member, parent)] ↔ pair ∈ pairs ∨ pair = (member, parent) := by
  rw [List.mem_append, List.mem_singleton]

/-- A pair that asks for nothing leaves everything as it is. -/
theorem RevokedFrom.idle (h : RevokedFrom s cascade part grantor pairs progress)
    (hdone : part.withdraws → ∀ x ∈ progress.1.roleMembershipGrantors,
      x.key = (member, parent, grantor) → x.admin = false ∧ part ≠ .membership) :
    RevokedFrom s cascade part grantor (pairs ++ [(member, parent)]) progress := by
  refine { h with
    kept := fun r hr => (h.kept r hr).imp_right fun ⟨hpart, hg, hpair⟩ =>
      ⟨hpart, hg, mem_handled.mpr (Or.inl hpair)⟩,
    revoked := fun hpart r' hr' hg hpair => ?_,
    members := fun m hm => ?_ }
  · rcases mem_handled.mp hpair with hold | hnew
    · exact h.revoked hpart r' hr' hg hold
    · obtain ⟨hm, hro⟩ := Prod.mk.inj hnew
      exact hdone hpart r' hr' (by rw [key, hm, hro, hg])
  · obtain ⟨hpart, r, hr, hrm, hadmin, hg, hpair, hothers⟩ := h.members m hm
    exact ⟨hpart, r, hr, hrm, hadmin, hg, mem_handled.mpr (Or.inl hpair), hothers⟩

/-- Another ADMIN record, by another grantor, is not touched by the statement. -/
theorem RevokedFrom.stillAdmin (h : RevokedFrom s cascade part grantor pairs progress)
    {other : RoleMembershipGrantor} (hother : other ∈ s.roleMembershipGrantors)
    (hadmin : other.admin = true) (hne : other.grantor ≠ grantor) :
    holdsAdmin (progress.1.roleMembershipGrantors.eraseP
      (isFor other.member other.role grantor)) other.member other.role = true := by
  rcases h.kept other hother with ⟨r', hr', hkey, hadmin'⟩ | ⟨-, hg, -⟩
  · obtain ⟨hm, hro, hg⟩ := key_inj hkey
    refine holdsAdmin_iff.mpr ⟨r', (mem_eraseP_isFor h.distinct).mpr ⟨hr', fun hsame => hne ?_⟩,
      hm, hro, hadmin'.trans hadmin⟩
    rw [← hg]
    exact (Prod.mk.inj (Prod.mk.inj hsame).2).2
  · exact absurd hg hne

/-- A write to the record of one membership, and the members that it adds. -/
theorem RevokedFrom.step (h : RevokedFrom s cascade part grantor pairs progress)
    (hcomplete : s.roleMembershipGrantorsComplete = true)
    {records : List RoleMembershipGrantor} {members : List ObjectId}
    (hdistinct : Distinct key records)
    (hfrom : ∀ x ∈ records, (x ∈ progress.1.roleMembershipGrantors ∧
        x.key ≠ (member, parent, grantor)) ∨
      ∃ r ∈ progress.1.roleMembershipGrantors, r.key = (member, parent, grantor) ∧
        x.key = r.key ∧ (x.admin = true → r.admin = true))
    (hothers : ∀ x ∈ progress.1.roleMembershipGrantors, x.key ≠ (member, parent, grantor) →
      x ∈ records)
    (hkeeps : part.withdraws ∨ ∀ x ∈ progress.1.roleMembershipGrantors,
      x.key = (member, parent, grantor) → ∃ x' ∈ records, x'.key = x.key ∧ x'.admin = x.admin)
    (hdone : part.withdraws → ∀ x ∈ records, x.key = (member, parent, grantor) →
      x.admin = false ∧ part ≠ .membership)
    (hloses : cascade = true → part.withdraws → ∀ x ∈ progress.1.roleMembershipGrantors,
      x.key = (member, parent, grantor) → x.admin = true → member ∈ members ∨
        holdsAdmin (progress.1.roleMembershipGrantors.eraseP (isFor member parent grantor)) member
          parent = true)
    (hmembers : ∀ m ∈ members, m ∈ progress.2 ∨ part.withdraws ∧ m = member ∧
      (∃ x ∈ progress.1.roleMembershipGrantors, x.key = (member, parent, grantor) ∧
        x.admin = true) ∧ holdsAdmin (progress.1.roleMembershipGrantors.eraseP
          (isFor member parent grantor)) member parent = false)
    (hmore : progress.2 ⊆ members) :
    RevokedFrom s cascade part grantor (pairs ++ [(member, parent)])
      (((progress.1.setRoleMembershipGrantors records).snapshotRole
        member).reconcileMembershipProjection member, members) := by
  have hset : SameRoles progress.1 (progress.1.setRoleMembershipGrantors records) :=
    .setRecords progress.1 records
  have hsnapshot : SameContents (progress.1.setRoleMembershipGrantors records)
      ((progress.1.setRoleMembershipGrantors records).snapshotRole member) := .pushUndo _ _
  have hwritten : (((progress.1.setRoleMembershipGrantors records).snapshotRole
      member).reconcileMembershipProjection member).roleMembershipGrantors = records := by
    rw [reconcile_records]
    exact hsnapshot.roleMembershipGrantors
  have hsame := (hset.trans (.of_contents hsnapshot)).trans (sameRoles_reconcile _ member)
  refine ⟨h.same.trans hsame, by rw [hwritten]; exact hdistinct, fun id => ?_, ?_, ?_, ?_, ?_, ?_⟩
  · by_cases hid : id = member
    · rw [hid]
      refine projected_reconcile ?_
      rw [(SameRoles.of_contents hsnapshot).complete, hset.complete, h.same.complete, hcomplete]
    · refine Projected.reconcile ((h.projected id).congr ?_ fun r hr => ?_)
      · exact congrFun hsnapshot.roleAt id
      · rw [hsnapshot.roleMembershipGrantors]
        have hne : r.key ≠ (member, parent, grantor) := fun heq =>
          hid (hr.symm.trans (congrArg Prod.fst heq))
        constructor
        · intro hmem
          rcases hfrom r hmem with ⟨hold, -⟩ | ⟨old, -, hkey, hsamekey, -⟩
          · exact hold
          · exact absurd (hsamekey.trans hkey) hne
        · exact fun hold => hothers r hold hne
  · rw [hwritten]
    intro r' hr'
    rcases hfrom r' hr' with ⟨hold, -⟩ | ⟨old, hold, -, hkey, hadmin⟩
    · exact h.origin r' hold
    · obtain ⟨r, hr, heq, hback⟩ := h.origin old hold
      exact ⟨r, hr, heq.trans hkey.symm, fun h => hback (hadmin h)⟩
  · rw [hwritten]
    intro r hr
    rcases h.kept r hr with ⟨r', hr', hkey, hadmin⟩ | ⟨hpart, hg, hpair⟩
    · by_cases hfor : r'.key = (member, parent, grantor)
      · rcases hkeeps with hwithdraws | hkeeps
        · obtain ⟨hm, hrest⟩ := Prod.mk.inj (hkey.symm.trans hfor)
          obtain ⟨hro, hg⟩ := Prod.mk.inj hrest
          exact Or.inr ⟨hwithdraws, hg, mem_handled.mpr (Or.inr (Prod.ext hm hro))⟩
        · obtain ⟨x, hx, hxkey, hxadmin⟩ := hkeeps r' hr' hfor
          exact Or.inl ⟨x, hx, hxkey.trans hkey, hxadmin.trans hadmin⟩
      · exact Or.inl ⟨r', hothers r' hr' hfor, hkey, hadmin⟩
    · exact Or.inr ⟨hpart, hg, mem_handled.mpr (Or.inl hpair)⟩
  · rw [hwritten]
    intro hpart r' hr' hg hpair
    by_cases hfor : r'.key = (member, parent, grantor)
    · exact hdone hpart r' hr' hfor
    · rcases hfrom r' hr' with ⟨hold, -⟩ | ⟨old, -, hkey, hsamekey, -⟩
      · refine h.revoked hpart r' hold hg ((mem_handled.mp hpair).resolve_right fun hnew => hfor ?_)
        obtain ⟨hm, hro⟩ := Prod.mk.inj hnew
        rw [key, hm, hro, hg]
      · exact absurd (hsamekey.trans hkey) hfor
  · rw [hwritten]
    intro hcascade r hr hadmin
    rcases h.lost hcascade r hr hadmin with ⟨r', hr', hkey, hadmin'⟩ | hmember | hother
    · by_cases hfor : r'.key = (member, parent, grantor)
      · rcases hkeeps with hwithdraws | hkeeps
        · obtain ⟨hm, hrest⟩ := Prod.mk.inj (hkey.symm.trans hfor)
          have hro : r.role = parent := (Prod.mk.inj hrest).1
          rcases hloses hcascade hwithdraws r' hr' hfor hadmin' with hin | hstill
          · exact Or.inr (Or.inl (hm ▸ hin))
          · obtain ⟨b', hb', hbm, hbr, hbadmin⟩ := holdsAdmin_iff.mp hstill
            obtain ⟨hold, hne⟩ := (mem_eraseP_isFor h.distinct).mp hb'
            obtain ⟨b, hb, hbkey, hback⟩ := h.origin b' hold
            obtain ⟨hm', hro', hg'⟩ := key_inj hbkey
            refine Or.inr (Or.inr ⟨b, hb, ?_, ?_, hback hbadmin, fun hg => hne ?_⟩)
            · rw [hm', hbm, hm]
            · rw [hro', hbr, hro]
            · rw [key, hbm, hbr, ← hg', hg]
        · obtain ⟨x, hx, hxkey, hxadmin⟩ := hkeeps r' hr' hfor
          exact Or.inl ⟨x, hx, hxkey.trans hkey, hxadmin.trans hadmin'⟩
      · exact Or.inl ⟨r', hothers r' hr' hfor, hkey, hadmin'⟩
    · exact Or.inr (Or.inl (hmore hmember))
    · exact Or.inr (Or.inr hother)
  · intro m hm
    rcases hmembers m hm with hold | ⟨hpart, rfl, ⟨x, hx, hkey, hadmin⟩, hfree⟩
    · obtain ⟨hpart, r, hr, hrm, hadmin, hg, hpair, hothers⟩ := h.members m hold
      exact ⟨hpart, r, hr, hrm, hadmin, hg, mem_handled.mpr (Or.inl hpair), hothers⟩
    · obtain ⟨r, hr, heq, hback⟩ := h.origin x hx
      obtain ⟨hm', hrest⟩ := Prod.mk.inj (heq.trans hkey)
      obtain ⟨hro, hg⟩ := Prod.mk.inj hrest
      refine ⟨hpart, r, hr, hm', hback hadmin, hg, mem_handled.mpr (Or.inr (Prod.ext hm' hro)),
        fun other hother hom hor hoadmin => ?_⟩
      by_contra hne
      have hstill := h.stillAdmin hother hoadmin hne
      rw [hom, hor, hm', hro, hfree] at hstill
      cases hstill

/-- A record that is rewritten in place. -/
theorem RevokedFrom.rewritten (h : RevokedFrom s cascade part grantor pairs progress)
    (hcomplete : s.roleMembershipGrantorsComplete = true)
    {f : RoleMembershipGrantor → RoleMembershipGrantor} (hkey : ∀ r, (f r).key = r.key)
    (hadmin : ∀ r, (f r).admin = true → r.admin = true)
    (hkeeps : part.withdraws ∨ ∀ r, (f r).admin = r.admin)
    (hdone : part.withdraws → part ≠ .membership ∧ ∀ r, (f r).admin = false)
    {members : List ObjectId}
    (hloses : cascade = true → part.withdraws → ∀ x ∈ progress.1.roleMembershipGrantors,
      x.key = (member, parent, grantor) → x.admin = true → member ∈ members ∨
        holdsAdmin (progress.1.roleMembershipGrantors.eraseP (isFor member parent grantor)) member
          parent = true)
    (hmembers : ∀ m ∈ members, m ∈ progress.2 ∨ part.withdraws ∧ m = member ∧
      (∃ x ∈ progress.1.roleMembershipGrantors, x.key = (member, parent, grantor) ∧
        x.admin = true) ∧ holdsAdmin (progress.1.roleMembershipGrantors.eraseP
          (isFor member parent grantor)) member parent = false)
    (hmore : progress.2 ⊆ members) :
    RevokedFrom s cascade part grantor (pairs ++ [(member, parent)])
      (((progress.1.setRoleMembershipGrantors (updateFirst (isFor member parent grantor) f
        progress.1.roleMembershipGrantors)).snapshotRole member).reconcileMembershipProjection member,
        members) := by
  have hmem (x : RoleMembershipGrantor) := mem_updateFirst_isFor member parent
    grantor h.distinct (f := f) (x := x)
  refine h.step hcomplete ?_ (fun x hx => ?_) (fun x hx hne => ?_) ?_ (fun hpart x hx hfor => ?_)
    hloses hmembers hmore
  · rw [Distinct, map_key_updateFirst f hkey]
    exact h.distinct
  · rcases (hmem x).mp hx with hold | ⟨r, hr, hfor, rfl⟩
    · exact Or.inl hold
    · exact Or.inr ⟨r, hr, hfor, hkey r, hadmin r⟩
  · exact (hmem x).mpr (Or.inl ⟨hx, hne⟩)
  · refine hkeeps.imp_right fun hsame x hx hfor => ?_
    exact ⟨f x, (hmem _).mpr (Or.inr ⟨x, hx, hfor, rfl⟩), hkey x, hsame x⟩
  · rcases (hmem x).mp hx with ⟨-, hne⟩ | ⟨r, -, -, rfl⟩
    · exact absurd hfor hne
    · exact ⟨(hdone hpart).2 r, (hdone hpart).1⟩

/-- A record that goes. -/
theorem RevokedFrom.removed (h : RevokedFrom s cascade part grantor pairs progress)
    (hcomplete : s.roleMembershipGrantorsComplete = true)
    (hpart : part.withdraws) {members : List ObjectId}
    (hloses : cascade = true → part.withdraws → ∀ x ∈ progress.1.roleMembershipGrantors,
      x.key = (member, parent, grantor) → x.admin = true → member ∈ members ∨
        holdsAdmin (progress.1.roleMembershipGrantors.eraseP (isFor member parent grantor)) member
          parent = true)
    (hmembers : ∀ m ∈ members, m ∈ progress.2 ∨ part.withdraws ∧ m = member ∧
      (∃ x ∈ progress.1.roleMembershipGrantors, x.key = (member, parent, grantor) ∧
        x.admin = true) ∧ holdsAdmin (progress.1.roleMembershipGrantors.eraseP
          (isFor member parent grantor)) member parent = false)
    (hmore : progress.2 ⊆ members) :
    RevokedFrom s cascade part grantor (pairs ++ [(member, parent)])
      (((progress.1.setRoleMembershipGrantors (progress.1.roleMembershipGrantors.eraseP
        (isFor member parent grantor))).snapshotRole member).reconcileMembershipProjection member,
        members) :=
  h.step hcomplete (distinct_eraseP_isFor h.distinct)
    (fun _ hx => Or.inl ((mem_eraseP_isFor h.distinct).mp hx))
    (fun _ hx hne => (mem_eraseP_isFor h.distinct).mpr ⟨hx, hne⟩) (Or.inl hpart)
    (fun _ _ hx hfor => absurd hfor ((mem_eraseP_isFor h.distinct).mp hx).2) hloses hmembers hmore

theorem RevokedFrom.revokeRecord {revoke : RevokeRoles}
    (h : RevokedFrom s revoke.cascade part grantor pairs progress)
    (hcomplete : s.roleMembershipGrantorsComplete = true) (member parent : ObjectId) :
    RevokedFrom s revoke.cascade part grantor (pairs ++ [(member, parent)])
      (revoke.revokeRecord part grantor progress (member, parent)) := by
  unfold RevokeRoles.revokeRecord
  dsimp only
  cases hfind : progress.1.roleMembershipGrantors.find? (isFor member parent grantor) with
  | none =>
    exact h.idle fun _ x hx hfor =>
      absurd (isFor_iff.mpr hfor) (List.find?_eq_none.mp hfind x hx)
  | some record =>
    have hrecord : record ∈ progress.1.roleMembershipGrantors := List.mem_of_find?_eq_some hfind
    have hfor : record.key = (member, parent, grantor) := isFor_iff.mp (List.find?_some hfind)
    have honly : ∀ x ∈ progress.1.roleMembershipGrantors, x.key = (member, parent, grantor) →
        x = record := fun x hx hxkey =>
      List.inj_on_of_nodup_map h.distinct hx hrecord (hxkey.trans hfor.symm)
    cases part with
    | adminOption =>
      dsimp only
      by_cases hadmin : record.admin = true
      · rw [if_pos hadmin]
        refine h.rewritten (f := fun r => { r with admin := false }) hcomplete (fun _ => rfl)
          (fun _ hr => by cases hr) (Or.inl (Or.inr rfl)) (fun _ => ⟨nofun, fun _ => rfl⟩)
          (fun hcascade _ x hx hxkey _ => ?_) (fun m hm => ?_) ?_
        · rw [hcascade, Bool.true_and]
          cases holdsAdmin (progress.1.roleMembershipGrantors.eraseP (isFor member parent grantor))
            member parent <;> simp
        · split at hm
          · rename_i hpush
            refine (List.mem_append.mp hm).imp_right fun hnew => ?_
            refine ⟨Or.inr rfl, List.mem_singleton.mp hnew, ⟨record, hrecord, hfor, hadmin⟩, ?_⟩
            exact Bool.not_eq_true' _ ▸ (Bool.and_eq_true_iff.mp hpush).2
          · exact Or.inl hm
        · split
          · exact List.subset_append_left _ _
          · exact List.Subset.refl _
      · rw [if_neg hadmin]
        refine h.idle fun _ x hx hxkey => ⟨?_, nofun⟩
        rw [honly x hx hxkey]
        exact Bool.not_eq_true _ ▸ hadmin
    | inheritOption =>
      have hpart : ¬RevokedPart.inheritOption.withdraws := by simp [RevokedPart.withdraws]
      exact h.rewritten (f := fun r => { r with inherit := false }) hcomplete (fun _ => rfl)
        (fun _ => id) (Or.inr fun _ => rfl) (absurd · hpart) (fun _ h => absurd h hpart)
        (fun _ => Or.inl) (List.Subset.refl _)
    | setOption =>
      have hpart : ¬RevokedPart.setOption.withdraws := by simp [RevokedPart.withdraws]
      exact h.rewritten (f := fun r => { r with set := false }) hcomplete (fun _ => rfl)
        (fun _ => id) (Or.inr fun _ => rfl) (absurd · hpart) (fun _ h => absurd h hpart)
        (fun _ => Or.inl) (List.Subset.refl _)
    | membership =>
      refine h.removed hcomplete (Or.inl rfl) (fun _ _ x hx hxkey hxadmin => ?_)
        (fun m hm => ?_) ?_
      · rw [← honly x hx hxkey, hxadmin, Bool.true_and]
        cases holdsAdmin (progress.1.roleMembershipGrantors.eraseP (isFor member parent grantor))
          member parent <;> simp
      · split at hm
        · rename_i hpush
          obtain ⟨hadmin, hfree⟩ := Bool.and_eq_true_iff.mp hpush
          refine (List.mem_append.mp hm).imp_right fun hnew => ?_
          refine ⟨Or.inl rfl, List.mem_singleton.mp hnew, ⟨record, hrecord, hfor, hadmin⟩, ?_⟩
          exact Bool.not_eq_true' _ ▸ hfree
        · exact Or.inl hm
      · split
        · exact List.subset_append_left _ _
        · exact List.Subset.refl _

theorem RevokedFrom.revokeRecords {revoke : RevokeRoles}
    (h : RevokedFrom s revoke.cascade part grantor pairs progress)
    (hcomplete : s.roleMembershipGrantorsComplete = true) (more : List (ObjectId × ObjectId)) :
    RevokedFrom s revoke.cascade part grantor (pairs ++ more)
      (more.foldl (revoke.revokeRecord part grantor) progress) := by
  induction more generalizing pairs progress with
  | nil => rwa [List.append_nil]
  | cons pair more ih =>
    have hall := ih (h.revokeRecord hcomplete pair.1 pair.2)
    rwa [List.append_assoc] at hall

end Records

section Cascade

variable {s : AnalysisState}

/-- Another record of the list stands at another place. -/
theorem mem_eraseIdx_of_key (h : Distinct key s.roleMembershipGrantors) {i : Nat}
    {r other : RoleMembershipGrantor} (hr : s.roleMembershipGrantors[i]? = some r) :
    other ∈ s.roleMembershipGrantors.eraseIdx i ↔
      other ∈ s.roleMembershipGrantors ∧ other.key ≠ r.key := by
  rw [List.mem_eraseIdx_iff_getElem?, List.mem_iff_getElem?]
  constructor
  · rintro ⟨j, hne, hj⟩
    refine ⟨⟨j, hj⟩, fun hkey => hne ((List.getElem?_inj ?_ h).mp ?_)⟩
    · rw [List.length_map]
      exact (List.getElem?_eq_some_iff.mp hj).1
    · rw [List.getElem?_map, List.getElem?_map, hj, hr, Option.map_some, Option.map_some, hkey]
  · rintro ⟨⟨j, hj⟩, hne⟩
    refine ⟨j, fun heq => hne ?_, hj⟩
    rw [heq, hr] at hj
    rw [Option.some.inj hj]

theorem mem_recordsGrantedBy (h : Distinct key s.roleMembershipGrantors) {g : ObjectId}
    {r : RoleMembershipGrantor} : r ∈ s.recordsGrantedBy g ↔
      r ∈ s.roleMembershipGrantors ∧ r.grantor = g ∧ ∀ other ∈ s.roleMembershipGrantors,
        other.member = r.member → other.role = r.role → other.admin = true → other.key = r.key := by
  have hfree : ∀ i, s.roleMembershipGrantors[i]? = some r →
      (holdsAdmin (s.roleMembershipGrantors.eraseIdx i) r.member r.role = false ↔
        ∀ other ∈ s.roleMembershipGrantors, other.member = r.member → other.role = r.role →
          other.admin = true → other.key = r.key) := by
    intro i hi
    rw [← Bool.not_eq_true, holdsAdmin_iff]
    constructor
    · intro hnone other hother hm hro hadmin
      by_contra hne
      exact hnone ⟨other, (mem_eraseIdx_of_key h hi).mpr ⟨hother, hne⟩, hm, hro, hadmin⟩
    · rintro hall ⟨other, hother, hm, hro, hadmin⟩
      obtain ⟨hmem, hne⟩ := (mem_eraseIdx_of_key h hi).mp hother
      exact hne (hall other hmem hm hro hadmin)
  unfold recordsGrantedBy
  rw [List.mem_map]
  constructor
  · rintro ⟨⟨x, i⟩, hx, rfl⟩
    obtain ⟨hzip, hgranted⟩ := List.mem_filter.mp hx
    have hi := List.mem_zipIdx_iff_getElem?.mp hzip
    obtain ⟨hg, hadmin⟩ := Bool.and_eq_true_iff.mp hgranted
    refine ⟨List.mem_of_getElem? hi, beq_iff_eq.mp hg, (hfree i hi).mp ?_⟩
    exact Bool.not_eq_true'  _ ▸ hadmin
  · rintro ⟨hr, rfl, hall⟩
    obtain ⟨i, hi⟩ := List.mem_iff_getElem?.mp hr
    refine ⟨(r, i), List.mem_filter.mpr ⟨List.mem_zipIdx_iff_getElem?.mpr hi, ?_⟩, rfl⟩
    rw [(hfree i hi).mpr hall]
    simp

/-- The roles that the cascade visits, and what it makes of the records they
granted. -/
theorem withdrawnRecords_spec (s : AnalysisState) (initial : List ObjectId) {Q : ObjectId → Prop}
    (hstart : ∀ g ∈ initial, Q g)
    (hstep : ∀ g r, Q g → r ∈ s.recordsGrantedBy g → r.admin = true → Q r.member) :
    ∃ visited : List ObjectId, initial ⊆ visited ∧
      (∀ g ∈ visited, ∀ r ∈ s.recordsGrantedBy g, r ∈ s.withdrawnRecords initial ∧
        (r.admin = true → r.member ∈ visited)) ∧
      (∀ r ∈ s.withdrawnRecords initial, ∃ g ∈ visited, r ∈ s.recordsGrantedBy g) ∧
      ∀ g ∈ visited, Q g := by
  have hnone : ∀ g, g ∉ s.roleMembershipGrantors.map (·.grantor) →
      (s.recordsGrantedBy g).length = 0 := by
    intro g hg
    rw [List.length_eq_zero_iff, List.eq_nil_iff_forall_not_mem]
    intro r hr
    obtain ⟨⟨x, i⟩, hx, rfl⟩ := List.mem_map.mp hr
    obtain ⟨hzip, hgranted⟩ := List.mem_filter.mp hx
    refine hg (List.mem_map.mpr ⟨x, List.mem_of_getElem? (List.mem_zipIdx_iff_getElem?.mp hzip), ?_⟩)
    exact beq_iff_eq.mp (Bool.and_eq_true_iff.mp hgranted).1
  have hrun := Worklist.drain_run (s.roleMembershipGrantors.map (·.grantor))
    (fun g => (s.recordsGrantedBy g).length)
    (fun removals g => (((s.recordsGrantedBy g).filter (·.admin)).map (·.member),
      removals ++ s.recordsGrantedBy g)) [] initial.reverse []
    (P := fun visited pending removals =>
      (∀ g ∈ initial, g ∈ visited ∨ g ∈ pending) ∧
      (∀ g ∈ visited, ∀ r ∈ s.recordsGrantedBy g, r ∈ removals ∧
        (r.admin = true → r.member ∈ visited ∨ r.member ∈ pending)) ∧
      (∀ r ∈ removals, ∃ g ∈ visited, r ∈ s.recordsGrantedBy g) ∧
      ∀ g, g ∈ visited ∨ g ∈ pending → Q g)
    hnone (fun _ g => ?_) (fun visited a pending removals ha h => ?_)
    (fun visited a pending removals ha h => ?_) (Nat.le_refl _) ?_
  · obtain ⟨hinitial, hclosed, hfrom, hQ⟩ := hrun
    refine ⟨_, fun g hg => (hinitial g hg).resolve_right List.not_mem_nil, fun g hg r hr => ?_,
      hfrom, fun g hg => hQ g (Or.inl hg)⟩
    obtain ⟨hremoved, hadmin⟩ := hclosed g hg r hr
    exact ⟨hremoved, fun h => (hadmin h).resolve_right List.not_mem_nil⟩
  · rw [List.length_map]
    exact List.length_filter_le _ _
  · obtain ⟨hinitial, hclosed, hfrom, hQ⟩ := h
    have hskip : ∀ g, g ∈ visited ∨ g ∈ a :: pending → g ∈ visited ∨ g ∈ pending := by
      intro g hg
      rcases hg with hg | hg
      · exact Or.inl hg
      · rcases List.mem_cons.mp hg with rfl | hg
        · exact Or.inl ha
        · exact Or.inr hg
    refine ⟨fun g hg => hskip g (hinitial g hg), fun g hg r hr => ?_, hfrom, fun g hg => ?_⟩
    · exact (hclosed g hg r hr).imp_right fun hadmin h => hskip _ (hadmin h)
    · exact hQ g (hg.imp_right (List.mem_cons_of_mem a))
  · obtain ⟨hinitial, hclosed, hfrom, hQ⟩ := h
    have hmove : ∀ g, g ∈ visited ∨ g ∈ a :: pending → g ∈ a :: visited ∨
        g ∈ (((s.recordsGrantedBy a).filter (·.admin)).map (·.member)).reverse ++ pending := by
      intro g hg
      rcases hg with hg | hg
      · exact Or.inl (List.mem_cons_of_mem a hg)
      · rcases List.mem_cons.mp hg with rfl | hg
        · exact Or.inl List.mem_cons_self
        · exact Or.inr (List.mem_append_right _ hg)
    have hQa : Q a := hQ a (Or.inr List.mem_cons_self)
    refine ⟨fun g hg => hmove g (hinitial g hg), fun g hg r hr => ?_, fun r hr => ?_, fun g hg => ?_⟩
    · rcases List.mem_cons.mp hg with rfl | hg
      · refine ⟨List.mem_append_right _ hr, fun h => Or.inr (List.mem_append_left _ ?_)⟩
        exact List.mem_reverse.mpr (List.mem_map.mpr ⟨r, List.mem_filter.mpr ⟨hr, h⟩, rfl⟩)
      · obtain ⟨hremoved, hadmin⟩ := hclosed g hg r hr
        exact ⟨List.mem_append_left _ hremoved, fun h => hmove _ (hadmin h)⟩
    · rcases List.mem_append.mp hr with hold | hnew
      · obtain ⟨g, hg, hgranted⟩ := hfrom r hold
        exact ⟨g, List.mem_cons_of_mem a hg, hgranted⟩
      · exact ⟨a, List.mem_cons_self, hnew⟩
    · rcases hg with hg | hg
      · rcases List.mem_cons.mp hg with rfl | hg
        · exact hQa
        · exact hQ g (Or.inl hg)
      · rcases List.mem_append.mp hg with hfound | hg
        · obtain ⟨r, hr, rfl⟩ := List.mem_map.mp (List.mem_reverse.mp hfound)
          obtain ⟨hgranted, hadmin⟩ := List.mem_filter.mp hr
          exact hstep a r hQa hgranted hadmin
        · exact hQ g (Or.inr (List.mem_cons_of_mem a hg))
  · refine ⟨fun g hg => Or.inr (List.mem_reverse.mpr hg), by simp, by simp, fun g hg => ?_⟩
    exact hstart g (List.mem_reverse.mp (hg.resolve_left List.not_mem_nil))

theorem isFor_key (r : RoleMembershipGrantor) :
    (fun other => !isFor r.member r.role r.grantor other) =
      fun other => decide (other.key ≠ r.key) := by
  funext other
  rw [Bool.eq_iff_iff, Bool.not_eq_true', ← Bool.not_eq_true, isFor_iff, decide_eq_true_iff]
  rfl

theorem removeMembershipRecord_records (s : AnalysisState) (r : RoleMembershipGrantor) :
    (s.removeMembershipRecord r).roleMembershipGrantors =
      s.roleMembershipGrantors.filter fun other => decide (other.key ≠ r.key) := by
  have hsnapshot : SameContents s (s.snapshotRole r.member) := .pushUndo _ _
  have hrecords : (s.snapshotRole r.member).roleMembershipGrantors = s.roleMembershipGrantors :=
    hsnapshot.roleMembershipGrantors
  unfold removeMembershipRecord
  dsimp only
  rw [reconcile_records, hrecords, isFor_key]
  rfl

/-- Removing one record, and the member's lists with it. -/
theorem removeMembershipRecord_spec (hcomplete : s.roleMembershipGrantorsComplete = true)
    (hprojected : ∀ id, s.Projected id) (r : RoleMembershipGrantor) :
    SameRoles s (s.removeMembershipRecord r) ∧ ∀ id, (s.removeMembershipRecord r).Projected id := by
  have hsnapshot : SameContents s (s.snapshotRole r.member) := .pushUndo _ _
  have hrecords : (s.snapshotRole r.member).roleMembershipGrantors = s.roleMembershipGrantors :=
    hsnapshot.roleMembershipGrantors
  have hset := SameRoles.setRecords (s.snapshotRole r.member)
    (s.roleMembershipGrantors.filter fun other => decide (other.key ≠ r.key))
  have hwritten : s.removeMembershipRecord r = ((s.snapshotRole r.member).setRoleMembershipGrantors
      (s.roleMembershipGrantors.filter fun other =>
        decide (other.key ≠ r.key))).reconcileMembershipProjection r.member := by
    unfold removeMembershipRecord
    dsimp only
    rw [hrecords, isFor_key]
  rw [hwritten]
  refine ⟨((SameRoles.of_contents hsnapshot).trans hset).trans (sameRoles_reconcile _ _),
    fun id => ?_⟩
  by_cases hid : id = r.member
  · rw [hid]
    refine projected_reconcile ?_
    rw [hset.complete, (SameRoles.of_contents hsnapshot).complete, hcomplete]
  · refine Projected.reconcile ((hprojected id).congr ?_ fun other hother => ?_)
    · exact congrFun hsnapshot.roleAt id
    · refine List.mem_filter.trans (and_iff_left (decide_eq_true fun hsame => hid ?_))
      rw [← hother]
      exact congrArg Prod.fst hsame

theorem removeRecords_records (s : AnalysisState) (removals : List RoleMembershipGrantor) :
    (removals.foldl removeMembershipRecord s).roleMembershipGrantors =
      s.roleMembershipGrantors.filter fun r => decide (r.key ∉ removals.map key) := by
  induction removals generalizing s with
  | nil => exact (List.filter_eq_self.mpr (by simp)).symm
  | cons r removals ih =>
    rw [List.foldl_cons, ih, removeMembershipRecord_records, List.filter_filter]
    refine List.filter_congr fun other _ => ?_
    simp [Bool.and_comm]

theorem removeRecords_spec (hcomplete : s.roleMembershipGrantorsComplete = true)
    (hprojected : ∀ id, s.Projected id) (removals : List RoleMembershipGrantor) :
    SameRoles s (removals.foldl removeMembershipRecord s) ∧
      ∀ id, (removals.foldl removeMembershipRecord s).Projected id := by
  induction removals generalizing s with
  | nil => exact ⟨.refl s, hprojected⟩
  | cons r removals ih =>
    obtain ⟨hsame, hlists⟩ := removeMembershipRecord_spec hcomplete hprojected r
    obtain ⟨hrest, hall⟩ := ih (hsame.complete.trans hcomplete) hlists
    exact ⟨hsame.trans hrest, hall⟩

theorem withdrawnRecords_subset (hdistinct : Distinct key s.roleMembershipGrantors)
    (initial : List ObjectId) : s.withdrawnRecords initial ⊆ s.roleMembershipGrantors := by
  intro r hr
  obtain ⟨_, -, -, hgranted, -⟩ := withdrawnRecords_spec s initial (Q := fun _ => True)
    (fun _ _ => trivial) fun _ _ _ _ _ => trivial
  obtain ⟨g, -, hr⟩ := hgranted r hr
  exact ((mem_recordsGrantedBy hdistinct).mp hr).1

/-- The cascade leaves the records that it does not withdraw. -/
theorem cascade_records (hdistinct : Distinct key s.roleMembershipGrantors)
    (initial : List ObjectId) :
    (s.cascadeMembershipsGrantedBy initial).roleMembershipGrantors =
      s.roleMembershipGrantors.filter fun r => decide (r ∉ s.withdrawnRecords initial) := by
  have hfrom := withdrawnRecords_subset hdistinct initial
  unfold cascadeMembershipsGrantedBy
  dsimp only
  by_cases hempty : (s.withdrawnRecords initial).isEmpty = true
  · rw [if_pos hempty, List.isEmpty_iff.mp hempty]
    exact (List.filter_eq_self.mpr (by simp)).symm
  · have hrecords : s.snapshotRoleMembershipGrantors.roleMembershipGrantors =
        s.roleMembershipGrantors := (SameContents.pushUndo s _).roleMembershipGrantors
    rw [if_neg hempty, removeRecords_records, hrecords]
    refine List.filter_congr fun r hr => decide_eq_decide.mpr (not_congr ⟨fun hmem => ?_, fun hmem =>
      List.mem_map_of_mem hmem⟩)
    obtain ⟨x, hx, hkey⟩ := List.mem_map.mp hmem
    rwa [← List.inj_on_of_nodup_map hdistinct (hfrom hx) hr hkey]

theorem cascade_spec (hcomplete : s.roleMembershipGrantorsComplete = true)
    (hprojected : ∀ id, s.Projected id) (initial : List ObjectId) :
    SameRoles s (s.cascadeMembershipsGrantedBy initial) ∧
      ∀ id, (s.cascadeMembershipsGrantedBy initial).Projected id := by
  unfold cascadeMembershipsGrantedBy
  dsimp only
  by_cases hempty : (s.withdrawnRecords initial).isEmpty = true
  · rw [if_pos hempty]
    exact ⟨.refl s, hprojected⟩
  · rw [if_neg hempty]
    have hsnapshot : SameContents s s.snapshotRoleMembershipGrantors := .pushUndo _ _
    have hrecords : s.snapshotRoleMembershipGrantors.roleMembershipGrantors =
        s.roleMembershipGrantors := hsnapshot.roleMembershipGrantors
    obtain ⟨hsame, hlists⟩ := removeRecords_spec (s := s.snapshotRoleMembershipGrantors)
      ((SameRoles.of_contents hsnapshot).complete.trans hcomplete)
      (fun id => (hprojected id).congr (congrFun hsnapshot.roleAt id)
        fun r _ => by rw [hrecords]) (s.withdrawnRecords initial)
    exact ⟨(SameRoles.of_contents hsnapshot).trans hsame, hlists⟩

end Cascade

end SafeMigrate
