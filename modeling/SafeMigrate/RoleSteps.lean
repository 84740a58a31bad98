import SafeMigrate.RoleGrants

/-! What an applied role statement has checked, and the write that it ends with. -/

namespace SafeMigrate

open Command AnalysisState KeyedList RoleMembershipGrantor

/-- The roles that the facts stand for. -/
def AnalysisState.factRoles (s : AnalysisState) (facts : List RoleFact) : List ObjectId :=
  facts.filterMap fun fact => (s.roleFactIdentity fact).map fun role => roleId role.1

section Checks

variable {s t : AnalysisState} {R : AnalysisState → AnalysisState → Prop} [KeepsEvidence R]

theorem keeps_checkRoleTarget (role : ObjectId) : Keeps R (checkRoleTarget role) := by
  refine Keeps.bind Keeps.get fun s => ?_
  split
  · exact Keeps.pure _
  · exact keeps_leaveUnresolved _
  · exact keeps_refuse _

theorem declines_checkRoleTarget (role : ObjectId) : Declines (checkRoleTarget role) := by
  refine Declines.bind declines_get fun s => ?_
  split
  · exact declines_pure _
  · exact declines_leaveUnresolved _
  · exact declines_refuse _

theorem keeps_checkRoleFact (fact : RoleFact) : Keeps R (checkRoleFact fact) := by
  refine Keeps.bind Keeps.get fun s => ?_
  split
  · exact keeps_leaveUnresolved _
  · refine Keeps.ite (fun _ => Keeps.pure _) fun _ => ?_
    split
    · exact Keeps.pure _
    · exact Keeps.bind (keeps_taint _ _) fun _ => Keeps.pure _
    · exact keeps_refuse _

theorem declines_checkRoleFact (fact : RoleFact) : Declines (checkRoleFact fact) := by
  refine Declines.bind declines_get fun s => ?_
  split
  · exact declines_leaveUnresolved _
  · refine Throws.ite (fun _ => declines_pure _) fun _ => ?_
    split
    · exact declines_pure _
    · exact Declines.bind (declines_modify _) fun _ => declines_pure _
    · exact declines_refuse _

theorem declines_checkRoleFacts (facts : List RoleFact) : Declines (checkRoleFacts facts) := by
  induction facts with
  | nil => exact declines_pure _
  | cons fact facts ih =>
    exact Declines.bind (declines_checkRoleFact fact) fun _ => Declines.bind ih fun _ =>
      declines_pure _

theorem keeps_checkGrantedBy (grantedBy : Option RoleFact) :
    Keeps R (checkGrantedBy grantedBy) := by
  cases grantedBy with
  | none => exact Keeps.pure _
  | some fact => exact Keeps.bind (keeps_checkRoleFact fact) fun _ => Keeps.pure _

theorem declines_checkGrantedBy (grantedBy : Option RoleFact) :
    Declines (checkGrantedBy grantedBy) := by
  cases grantedBy with
  | none => exact declines_pure _
  | some fact => exact Declines.bind (declines_checkRoleFact fact) fun _ => declines_pure _

theorem keeps_checkMembershipOptions (p : Prop) [Decidable p] :
    Keeps R (checkMembershipOptions p) := by
  refine Keeps.ite (fun _ => Keeps.bind Keeps.get fun s => ?_) fun _ => Keeps.pure _
  split
  · exact keeps_refuseIf _ _
  · exact keeps_leaveUnresolved _

theorem declines_checkMembershipOptions (p : Prop) [Decidable p] :
    Declines (checkMembershipOptions p) := by
  refine Throws.ite (fun _ => Declines.bind declines_get fun s => ?_) fun _ => declines_pure _
  split
  · exact declines_refuseIf _ _
  · exact declines_leaveUnresolved _

theorem keeps_checkMembershipAuthority (grantedBy : Option RoleFact) (parents : List ObjectId)
    (membership : String) :
    Keeps R (checkMembershipAuthority grantedBy parents membership) := by
  refine Keeps.bind Keeps.get fun s => ?_
  split
  · refine Keeps.ite (fun _ => ?_) fun _ => keeps_taint _ _
    split
    · exact Keeps.pure _
    · exact keeps_refuse _
    · exact keeps_taint _ _
  · exact keeps_taintIf _ _ _

theorem declines_checkMembershipAuthority (grantedBy : Option RoleFact) (parents : List ObjectId)
    (membership : String) :
    Declines (checkMembershipAuthority grantedBy parents membership) := by
  refine Declines.bind declines_get fun s => ?_
  split
  · refine Throws.ite (fun _ => ?_) fun _ => declines_modify _
    split
    · exact declines_pure _
    · exact declines_refuse _
    · exact declines_modify _
  · exact declines_taintIf _ _ _

theorem roleAt_of_present {id : ObjectId} (h : s.roleLookup id = .present) :
    (s.roleAt id).isSome := by
  unfold roleLookup at h
  unfold roleAt
  split at h
  · rename_i hlookup
    rw [hlookup]
    rfl
  · cases h
  · split at h <;> cases h

/-- With a complete catalog, a fact stands for `PUBLIC` or for a present role. -/
theorem checkRoleFact_ok {fact : RoleFact} {id : ObjectId}
    (h : (checkRoleFact fact).run.run s = (.ok id, t)) :
    ((s.roleFactIdentity fact).map fun role => roleId role.1) = some id ∧
      (s.rolesKnown = true → id.name = "public" ∨ (s.roleAt id).isSome) := by
  obtain ⟨_, _, hget, h⟩ := exists_run_of_bind h
  cases hget
  split at h
  · cases h
  · rename_i name known hidentity
    by_cases hpublic : name = "public"
    · rw [if_pos hpublic] at h
      cases h
      exact ⟨by rw [hidentity, hpublic]; rfl, fun _ => Or.inl rfl⟩
    · rw [if_neg hpublic] at h
      split at h
      · rename_i hpresent
        cases h
        exact ⟨by rw [hidentity]; rfl, fun _ => Or.inr (roleAt_of_present hpresent)⟩
      · rename_i hunknown
        cases h
        refine ⟨by rw [hidentity]; rfl, fun hknown => ?_⟩
        unfold roleLookup at hunknown
        rw [hknown] at hunknown
        split at hunknown <;> cases hunknown
      · cases h

theorem roleFactIdentity_congr (h : SameContents s t) : t.roleFactIdentity = s.roleFactIdentity := by
  funext fact
  cases fact <;> first | rfl | skip
  · exact congrArg some (Prod.ext h.currentRole h.currentRoleKnown)
  · exact congrArg some (Prod.ext h.currentRole h.currentRoleKnown)
  · exact congrArg some (Prod.ext (h.reads (·.sessionRole) fun _ => rfl)
      (h.reads (·.sessionRoleKnown) fun _ => rfl))

theorem checkRoleFacts_ok {facts : List RoleFact} {ids : List ObjectId}
    (h : (checkRoleFacts facts).run.run s = (.ok ids, t)) :
    SameContents s t ∧ ids = s.factRoles facts ∧
      (s.rolesKnown = true → ∀ id ∈ ids, id.name = "public" ∨ (s.roleAt id).isSome) := by
  induction facts generalizing s ids with
  | nil =>
    cases h
    exact ⟨rfl, rfl, by simp⟩
  | cons fact facts ih =>
    obtain ⟨id, u, hfact, h⟩ := exists_run_of_bind h
    have hkept : SameContents s u := .of_check (keeps_checkRoleFact fact) hfact
    obtain ⟨rest, v, hfacts, hpure⟩ := exists_run_of_bind h
    cases hpure
    obtain ⟨hidentity, hpresent⟩ := checkRoleFact_ok hfact
    obtain ⟨hrest, rfl, hall⟩ := ih hfacts
    have hroles : u.roleAt = s.roleAt := hkept.roleAt
    refine ⟨hkept.trans hrest, ?_, fun hknown other hother => ?_⟩
    · unfold factRoles
      rw [List.filterMap_cons, hidentity, roleFactIdentity_congr hkept]
    · rcases List.mem_cons.mp hother with rfl | hother
      · exact hpresent hknown
      · rw [← hroles]
        exact hall (hkept.rolesKnown.trans hknown) other hother

end Checks

section Grant

variable {s t : AnalysisState} {grant : GrantRoles}

theorem isCheck_collectOption (options : MembershipOptions) (option : RoleMembershipOptionFact) :
    IsCheck (GrantRoles.collectOption options option) := by
  cases option <;> exact IsCheck.bind (isCheck_leaveUnresolvedIf _ _) fun _ => IsCheck.pure _

theorem declines_collectOption (options : MembershipOptions) (option : RoleMembershipOptionFact) :
    Declines (GrantRoles.collectOption options option) := by
  cases option <;>
    exact Declines.bind (declines_leaveUnresolvedIf _ _) fun _ => declines_pure _

theorem collectOption_admin {options result : MembershipOptions} {option : RoleMembershipOptionFact}
    {value : Bool} (h : (GrantRoles.collectOption options option).run.run s = (.ok result, t))
    (hresult : result.admin = some value) : options.admin = some value ∨ option = .admin value := by
  cases option with
  | admin written =>
    obtain ⟨_, u, -, hpure⟩ := exists_run_of_bind h
    cases hpure
    exact Or.inr (congrArg _ (Option.some.inj hresult))
  | inherit written =>
    obtain ⟨_, u, -, hpure⟩ := exists_run_of_bind h
    cases hpure
    exact Or.inl hresult
  | set written =>
    obtain ⟨_, u, -, hpure⟩ := exists_run_of_bind h
    cases hpure
    exact Or.inl hresult

theorem collectOptions_ok {written : List RoleMembershipOptionFact}
    {options result : MembershipOptions} (value : Bool)
    (h : (written.foldlM GrantRoles.collectOption options).run.run s = (.ok result, t)) :
    t = s ∧ (result.admin = some value → options.admin = some value ∨ .admin value ∈ written) := by
  induction written generalizing s options with
  | nil =>
    cases h
    exact ⟨rfl, Or.inl⟩
  | cons option written ih =>
    rw [List.foldlM_cons] at h
    obtain ⟨next, u, hoption, hrest⟩ := exists_run_of_bind h
    obtain rfl := isCheck_collectOption options option _ _ _ hoption
    obtain ⟨rfl, hadmin⟩ := ih hrest
    refine ⟨rfl, fun hresult => ?_⟩
    rcases hadmin hresult with hnext | hmem
    · rcases collectOption_admin hoption hnext with hold | rfl
      · exact Or.inl hold
      · exact Or.inr List.mem_cons_self
    · exact Or.inr (List.mem_cons_of_mem _ hmem)

theorem isCheck_checkCycles (s : AnalysisState) (proposed pairs : List (ObjectId × ObjectId)) :
    IsCheck (checkCycles s proposed pairs) := by
  induction pairs generalizing proposed with
  | nil => exact IsCheck.pure _
  | cons pair pairs ih => exact IsCheck.bind (isCheck_refuseIf _ _) fun _ => ih _

theorem declines_checkCycles (s : AnalysisState) (proposed pairs : List (ObjectId × ObjectId)) :
    Declines (checkCycles s proposed pairs) := by
  induction pairs generalizing proposed with
  | nil => exact declines_pure _
  | cons pair pairs ih => exact Declines.bind (declines_refuseIf _ _) fun _ => ih _

theorem declines_grant (grant : GrantRoles) : Declines grant.command := by
  refine Declines.bind (Throws.forM _ declines_checkRoleTarget) fun _ => ?_
  refine Declines.bind (declines_checkRoleFacts _) fun _ => ?_
  refine Declines.bind (declines_checkGrantedBy _) fun _ => ?_
  refine Declines.bind (declines_taintIf _ _ _) fun _ => ?_
  refine Declines.bind (declines_checkMembershipOptions _) fun _ => ?_
  refine Declines.bind (declines_checkMembershipAuthority _ _ _) fun _ => ?_
  refine Declines.bind (Throws.foldlM _ _ declines_collectOption) fun _ => ?_
  refine Declines.bind (declines_leaveUnresolvedIf _ _) fun _ => ?_
  refine Declines.bind (declines_leaveUnresolvedIf _ _) fun _ => ?_
  refine Declines.bind declines_get fun _ => Declines.bind (declines_checkCycles _ _ _) fun _ => ?_
  exact Declines.bind (declines_modify _) fun _ => declines_pure _

theorem proposes_congr {proposed : List (ObjectId × ObjectId)} (h : SameContents s t) :
    Proposes t proposed = Proposes s proposed := by
  have hroles : t.roleAt = s.roleAt := h.roleAt
  funext a b
  rw [eq_iff_iff, proposes_iff, proposes_iff, hroles]

/-- An applied grant has found its grantees, and the memberships that it adds
close no cycle. -/
theorem grant_applied (h : grant.command.outcome s = (.applied, t)) :
    ∃ options u, SameContents s u ∧ t = grant.write options (s.factRoles grant.grantees) u ∧
      (options.admin = some false → .admin false ∈ grant.roleOptions) ∧
      (s.rolesKnown = true → ∀ id ∈ s.factRoles grant.grantees, (s.roleAt id).isSome) ∧
      ((∀ id, ¬Relation.TransGen (Proposes s []) id id) → ∀ id, ¬Relation.TransGen
        (Proposes s (membershipPairs (s.factRoles grant.grantees) grant.parents)) id id) := by
  obtain ⟨_, u₁, htargets, h₁⟩ := exists_run_of_bind (ran_of_outcome (declines_grant grant) h)
  have k₁ : SameContents s u₁ := .of_check (Keeps.forM _ keeps_checkRoleTarget) htargets
  obtain ⟨grantees, u₂, hfacts, h₂⟩ := exists_run_of_bind h₁
  obtain ⟨k₂, hgrantees, hpresent⟩ := checkRoleFacts_ok hfacts
  obtain ⟨_, u₃, hgrantedBy, h₃⟩ := exists_run_of_bind h₂
  have k₃ : SameContents u₂ u₃ := .of_check (keeps_checkGrantedBy _) hgrantedBy
  obtain ⟨_, u₄, htaint, h₄⟩ := exists_run_of_bind h₃
  have k₄ : SameContents u₃ u₄ := .of_check (keeps_taintIf _ _ _) htaint
  obtain ⟨_, u₅, hsupport, h₅⟩ := exists_run_of_bind h₄
  have k₅ : SameContents u₄ u₅ := .of_check (keeps_checkMembershipOptions _) hsupport
  obtain ⟨_, u₆, hauthority, h₆⟩ := exists_run_of_bind h₅
  have k₆ : SameContents u₅ u₆ := .of_check (keeps_checkMembershipAuthority _ _ _) hauthority
  obtain ⟨options, u₇, hoptions, h₇⟩ := exists_run_of_bind h₆
  obtain ⟨rfl, hadmin⟩ := collectOptions_ok false hoptions
  obtain ⟨_, u₈, hgrantOption, h₈⟩ := exists_run_of_bind h₇
  obtain ⟨rfl, -⟩ := leaveUnresolvedIf_ok hgrantOption
  obtain ⟨_, u₉, hpublic, h₉⟩ := exists_run_of_bind h₈
  obtain ⟨rfl, hnotPublic⟩ := leaveUnresolvedIf_ok hpublic
  obtain ⟨_, _, hget, h₁₀⟩ := exists_run_of_bind h₉
  cases hget
  obtain ⟨_, v, hcycles, h₁₁⟩ := exists_run_of_bind h₁₀
  obtain ⟨_, _, hmodify, hpure⟩ := exists_run_of_bind h₁₁
  cases hmodify
  cases hpure
  have hkept := k₁.trans (k₂.trans (k₃.trans (k₄.trans (k₅.trans k₆))))
  have hroles : u₁.roleAt = s.roleAt := k₁.roleAt
  have hids : grantees = s.factRoles grant.grantees := by
    rw [hgrantees]
    unfold factRoles
    rw [roleFactIdentity_congr k₁]
  subst hids
  obtain rfl := isCheck_checkCycles _ _ _ _ _ _ hcycles
  refine ⟨options, _, hkept, rfl, fun hfalse => ?_, fun hknown id hid => ?_, fun hacyclic => ?_⟩
  · rcases hadmin hfalse with hnone | hmem
    · cases hnone
    · exact hmem
  · rcases hpresent ((k₁.rolesKnown).trans hknown) id hid with hname | hsome
    · refine absurd (List.any_eq_true.mpr ⟨id, hid, ?_⟩) hnotPublic
      exact decide_eq_true hname
    · rwa [hroles] at hsome
  · rw [← proposes_congr hkept] at hacyclic ⊢
    exact checkCycles_ok hcycles hacyclic

end Grant

end SafeMigrate
