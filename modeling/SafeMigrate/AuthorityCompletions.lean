import SafeMigrate.RoleAuthority
import SafeMigrate.RoleRuns

/-! Definite answers about roles hold in every state that agrees with what is
known. Refusing a grant is not always definite. -/

namespace SafeMigrate.AnalysisState

/-- `t` is `s` with everything unknown filled in. A known catalog of roles is
complete: a role that it does not list does not exist. -/
structure Completes (s t : AnalysisState) : Prop where
  roles : s.rolesKnown = true → ∀ id, t.roleAt id = s.roleAt id
  sessionRole : s.sessionRoleKnown = true → t.sessionRole = s.sessionRole
  version : ∀ version, s.pgVersion = some version → t.pgVersion = some version
  versioned : t.pgVersion.isSome = true

/-- A definite answer is the truth, however the unknown is filled in. -/
def Entails (s : AnalysisState) (answer : Option Bool) (truth : AnalysisState → Prop) : Prop :=
  ∀ b, answer = some b → ∀ t, s.Completes t → (truth t ↔ b = true)

/-- The target exists, and the session's role gets to it by memberships with the SET
option, or is a superuser. -/
def MaySetRoleTo (t : AnalysisState) (target : String) : Prop :=
  (t.presentRole target).isSome = true ∧
    ((t.presentRole t.sessionRole).any (·.isSuperuser) = true ∨
      ∃ id, Relation.ReflTransGen (fun a b => b ∈ t.settableRoles a.name)
        (roleId t.sessionRole) id ∧ id.name = target)

/-- A role whose privileges are inherited has the grant itself. -/
def ReachesGrant (t : AnalysisState) (granted : ObjectId → Bool) (start : ObjectId) : Prop :=
  ∃ id, Relation.ReflTransGen (fun a b => b ∈ t.inheritsFrom a) start id ∧ granted id = true

variable {s t : AnalysisState}

namespace Completes

theorem presentRole (h : s.Completes t) (hroles : s.rolesKnown = true) (name : String) :
    t.presentRole name = s.presentRole name := h.roles hroles (roleId name)

theorem administers (h : s.Completes t) (hroles : s.rolesKnown = true) (member target : ObjectId) :
    t.administers member target = s.administers member target := by
  funext id
  unfold AnalysisState.administers
  rw [h.presentRole hroles]

theorem settableRoles (h : s.Completes t) (hroles : s.rolesKnown = true) :
    t.settableRoles = s.settableRoles := by
  funext name
  unfold AnalysisState.settableRoles
  rw [h.presentRole hroles]

theorem inheritsFrom (h : s.Completes t) (hroles : s.rolesKnown = true)
    (hversion : s.pgVersion.isSome = true) : t.inheritsFrom = s.inheritsFrom := by
  funext id
  obtain ⟨version, hsome⟩ := Option.isSome_iff_exists.mp hversion
  unfold AnalysisState.inheritsFrom
  rw [h.presentRole hroles, h.version version hsome, hsome]

theorem self (hversion : s.pgVersion.isSome = true) : s.Completes s :=
  ⟨fun _ _ => rfl, fun _ => rfl, fun _ h => h, hversion⟩

end Completes

section Inherited

variable {granted : ObjectId → Bool} {start : ObjectId}

theorem NotGranted.versioned (h : s.NotGranted granted start) : s.pgVersion.isSome = true := by
  have hstart := (h start Relation.ReflTransGen.refl).2
  unfold isPassed at hstart
  exact (Bool.and_eq_true_iff.mp hstart).2

/-- With the server version unknown, only the first role of the search counts. -/
theorem GrantedFirst.reachesGrant (h : s.GrantedFirst granted start)
    (hroles : s.rolesKnown = true) (ht : s.Completes t) : t.ReachesGrant granted start := by
  obtain ⟨id, hreach, hgranted⟩ := h.reached
  cases hversion : s.pgVersion with
  | some version =>
    refine ⟨id, ?_, hgranted⟩
    rw [ht.inheritsFrom hroles (by rw [hversion]; rfl)]
    exact hreach
  | none =>
    have hsame : id = start := by
      rcases Relation.ReflTransGen.cases_tail hreach with hsame | ⟨last, -, hstep⟩
      · exact hsame
      · simp [AnalysisState.inheritsFrom, hversion] at hstep
    exact ⟨start, Relation.ReflTransGen.refl, hsame ▸ hgranted⟩

theorem NotGranted.not_reachesGrant (h : s.NotGranted granted start)
    (hroles : s.rolesKnown = true) (ht : s.Completes t) : ¬t.ReachesGrant granted start := by
  rintro ⟨id, hreach, hgranted⟩
  rw [ht.inheritsFrom hroles h.versioned] at hreach
  rw [(h id hreach).1] at hgranted
  cases hgranted

theorem inheritedAnswer_entails (hroles : s.rolesKnown = true) :
    s.Entails (s.inheritedAnswer granted start) fun t => t.ReachesGrant granted start := by
  intro b hb t ht
  cases b with
  | true =>
    have hfirst := inheritedAnswer_true_iff.mp hb
    exact iff_of_true (hfirst.reachesGrant hroles ht) rfl
  | false =>
    have hnot := inheritedAnswer_false_iff.mp hb
    exact iff_of_false (hnot.not_reachesGrant hroles ht) Bool.false_ne_true

theorem effectiveRelationPrivilege_entails (relation : RelationState) (role : ObjectId)
    (privilege : Privilege) (grantOption : Bool) :
    s.Entails (s.effectiveRelationPrivilege relation role privilege grantOption) fun t =>
      t.ReachesGrant (directlyGranted relation privilege grantOption) role := by
  rw [effectiveRelationPrivilege_eq]
  by_cases hroles : s.rolesKnown = true
  · rw [if_pos hroles]
    exact inheritedAnswer_entails hroles
  · rw [if_neg hroles]
    intro b hb
    cases hb

theorem hasAdminPrivilegesOnRole_entails (member target : ObjectId) :
    s.Entails (s.hasAdminPrivilegesOnRole member target) fun t =>
      t.ReachesGrant (t.administers member target) member := by
  rw [hasAdminPrivilegesOnRole_eq]
  by_cases hroles : s.rolesKnown = true
  · rw [if_pos hroles]
    intro b hb t ht
    dsimp only
    rw [ht.administers hroles]
    exact inheritedAnswer_entails hroles b hb t ht
  · rw [if_neg hroles]
    intro b hb
    cases hb

end Inherited

section Setting

/-- Where the search for a role to switch to stops. -/
def setVerdict (target : String) (id : ObjectId) : Option Bool :=
  if id.name = target then some true else none

theorem canSetRoleLoop_eq (target : String) (fuel : Nat) (visited pending : List ObjectId) :
    s.canSetRoleLoop target fuel visited pending =
      ((Worklist.preorder (fun id => s.settableRoles id.name) fuel visited pending).findSome?
        (setVerdict target)).getD false := by
  induction fuel generalizing visited pending with
  | zero => rfl
  | succ fuel ih =>
    cases pending with
    | nil => rfl
    | cons id pending =>
      rw [canSetRoleLoop, Worklist.preorder]
      by_cases hvisited : id ∈ visited
      · rw [if_pos hvisited, if_pos hvisited]
        exact ih visited pending
      rw [if_neg hvisited, if_neg hvisited, List.findSome?_cons, setVerdict]
      by_cases hname : id.name = target
      · simp [hname]
      · simpa [hname] using ih _ _

theorem settableRoles_subset (id : ObjectId) : s.settableRoles id.name ⊆ s.settableDomain := by
  intro target htarget
  unfold settableRoles at htarget
  cases hrole : s.presentRole id.name with
  | none => simp [hrole] at htarget
  | some role =>
    rw [hrole] at htarget
    exact List.mem_flatMap.mpr ⟨_, mem_entries_of_presentRole hrole, htarget⟩

/-- The rounds that the search for a role to switch to takes, at most. -/
def settingFuel (s : AnalysisState) (pending : List ObjectId) : Nat :=
  Worklist.fuelFor s.settableDomain (fun id => (s.settableRoles id.name).length) [] pending

/-- Without a short cut, the answer is what the search finds. -/
theorem canSetRoleTo_search {target : String} {session : RoleState} (hroles : s.rolesKnown = true)
    (hknown : s.sessionRoleKnown = true) (htarget : (s.presentRole target).isSome = true)
    (hother : s.sessionRole ≠ target) (hsession : s.presentRole s.sessionRole = some session)
    (hplain : session.isSuperuser = false) :
    s.canSetRoleTo target = some (((Worklist.preorder (fun id => s.settableRoles id.name)
      (s.settingFuel session.canSetRoleTo.reverse) [] session.canSetRoleTo.reverse).findSome?
        (setVerdict target)).getD false) := by
  have hnotNone : (s.presentRole target).isNone = false := by
    rw [← Option.not_isSome, htarget]
    rfl
  simp only [canSetRoleTo, hroles, hknown, hnotNone, hother, hsession, hplain,
    canSetRoleLoop_eq, Bool.true_eq_false, or_self, if_false, Bool.false_eq_true,
    Option.bind_eq_bind, Option.bind_some]
  rfl

theorem settableRoles_pending {session : RoleState}
    (hsession : s.presentRole s.sessionRole = some session) :
    session.canSetRoleTo.reverse ⊆ s.settableDomain := by
  intro id hid
  exact List.mem_flatMap.mpr
    ⟨_, mem_entries_of_presentRole hsession, List.mem_reverse.mp hid⟩

theorem findSome?_setVerdict {target : String} {order : List ObjectId} :
    (order.findSome? (setVerdict target)).getD false = true ↔ ∃ id ∈ order, id.name = target := by
  induction order with
  | nil => simp
  | cons id order ih =>
    rw [List.findSome?_cons, setVerdict]
    by_cases hname : id.name = target
    · simp [hname]
    · simpa [hname] using ih

/-- A role of the name is found exactly if it can be reached. -/
theorem found_iff_reached {target : String} {session : RoleState}
    (hother : s.sessionRole ≠ target) (hsession : s.presentRole s.sessionRole = some session) :
    ((Worklist.preorder (fun id => s.settableRoles id.name)
      (s.settingFuel session.canSetRoleTo.reverse) [] session.canSetRoleTo.reverse).findSome?
        (setVerdict target)).getD false = true ↔
      ∃ id, Relation.ReflTransGen (fun a b => b ∈ s.settableRoles a.name)
        (roleId s.sessionRole) id ∧ id.name = target := by
  have hmem (id : ObjectId) := @Worklist.mem_preorder_iff _ _ s.settableDomain
    (fun id => (s.settableRoles id.name).length) (fun id => s.settableRoles id.name)
    (fun _ => Nat.le_refl _) settableRoles_subset (s.settingFuel session.canSetRoleTo.reverse)
    session.canSetRoleTo.reverse (settableRoles_pending hsession) (Nat.le_refl _) id
  have hsettable : s.settableRoles s.sessionRole = session.canSetRoleTo := by
    simp [settableRoles, hsession]
  rw [findSome?_setVerdict]
  constructor
  · rintro ⟨id, hid, hname⟩
    obtain ⟨start, hstart, hreach⟩ := (hmem id).mp hid
    refine ⟨id, hreach.head ?_, hname⟩
    exact hsettable ▸ List.mem_reverse.mp hstart
  · rintro ⟨id, hreach, hname⟩
    rcases Relation.ReflTransGen.cases_head hreach with heq | ⟨start, hstart, hreach⟩
    · subst heq
      exact absurd hname hother
    · exact ⟨id, (hmem id).mpr ⟨start, List.mem_reverse.mpr (hsettable ▸ hstart), hreach⟩, hname⟩

theorem Completes.maySetRoleTo_iff (h : s.Completes t) (hroles : s.rolesKnown = true)
    (hknown : s.sessionRoleKnown = true) (target : String) :
    t.MaySetRoleTo target ↔ s.MaySetRoleTo target := by
  unfold MaySetRoleTo
  rw [h.presentRole hroles, h.presentRole hroles, h.sessionRole hknown, h.settableRoles hroles]

theorem canSetRoleTo_entails (target : String) :
    s.Entails (s.canSetRoleTo target) fun t => t.MaySetRoleTo target := by
  intro b hb t ht
  by_cases hunknown : s.rolesKnown = false ∨ s.sessionRoleKnown = false
  · simp [canSetRoleTo, hunknown] at hb
  rw [not_or, Bool.not_eq_false, Bool.not_eq_false] at hunknown
  obtain ⟨hroles, hknown⟩ := hunknown
  dsimp only
  rw [ht.maySetRoleTo_iff hroles hknown]
  cases htarget : s.presentRole target with
  | none =>
    simp [canSetRoleTo, hroles, hknown, htarget] at hb
    subst hb
    simp [MaySetRoleTo, htarget]
  | some role =>
    have hpresent : (s.presentRole target).isSome = true := by rw [htarget]; rfl
    by_cases hself : s.sessionRole = target
    · simp [canSetRoleTo, hroles, hknown, htarget, hself] at hb
      subst hb
      exact iff_of_true ⟨hpresent, Or.inr ⟨_, Relation.ReflTransGen.refl, hself⟩⟩ rfl
    cases hsession : s.presentRole s.sessionRole with
    | none => simp [canSetRoleTo, hroles, hknown, htarget, hself, hsession] at hb
    | some session =>
      cases hsuper : session.isSuperuser with
      | true =>
        simp [canSetRoleTo, hroles, hknown, htarget, hself, hsession, hsuper] at hb
        subst hb
        exact iff_of_true ⟨hpresent, Or.inl (by simp [hsession, hsuper])⟩ rfl
      | false =>
        rw [canSetRoleTo_search hroles hknown hpresent hself hsession hsuper] at hb
        cases hb
        have hnever : (s.presentRole s.sessionRole).any (·.isSuperuser) = false := by
          simp [hsession, hsuper]
        rw [found_iff_reached hself hsession, MaySetRoleTo, hpresent, hnever]
        simp

end Setting

section Refusal

variable {relation : RelationState} {privileges : Finset Privilege}

/-- A grant is refused only when every question about the grantor has an answer, and
the grantor does not have the rights of the relation's owner. -/
def RefusesDefinitely (s : AnalysisState) (relation : RelationState)
    (privileges : Finset Privilege) (grantor : Option ObjectId) : Prop :=
  ∀ role, grantor = some role →
    s.authorizeRelationGrant relation privileges grantor = some false →
      (∀ privilege ∈ privileges,
        s.effectiveRelationPrivilege relation role privilege true ≠ none) ∧
      ∀ t, s.Completes t →
        ¬Relation.ReflTransGen (fun a b => b ∈ t.inheritsFrom a) role relation.owner

/-- No listed role, a superuser or the owner; or a role for which the search finds
every grant option before a role that it cannot pass; or one for which it decides them
all, and which does not inherit from the owner. -/
def DecidesGrant (s : AnalysisState) (relation : RelationState) (privileges : Finset Privilege)
    (grantor : Option ObjectId) : Prop :=
  ∀ id role, grantor = some id → s.presentRole id.name = some role →
    role.isSuperuser = true ∨ relation.owner = id ∨
    (∀ privilege ∈ privileges, s.rolesKnown = true ∧
      s.GrantedFirst (directlyGranted relation privilege true) id) ∨
    s.rolesKnown = true ∧
      (∀ privilege ∈ privileges, s.GrantedFirst (directlyGranted relation privilege true) id ∨
        s.NotGranted (directlyGranted relation privilege true) id) ∧
      ¬Relation.ReflTransGen (fun a b => b ∈ s.inheritsFrom a) id relation.owner

theorem effectiveRelationPrivilege_true_iff {role : ObjectId} {privilege : Privilege} :
    s.effectiveRelationPrivilege relation role privilege true = some true ↔
      s.rolesKnown = true ∧ s.GrantedFirst (directlyGranted relation privilege true) role := by
  rw [effectiveRelationPrivilege_eq]
  by_cases hroles : s.rolesKnown = true
  · simp [hroles, inheritedAnswer_true_iff]
  · simp [hroles]

theorem effectiveRelationPrivilege_false_iff {role : ObjectId} {privilege : Privilege} :
    s.effectiveRelationPrivilege relation role privilege true = some false ↔
      s.rolesKnown = true ∧ s.NotGranted (directlyGranted relation privilege true) role := by
  rw [effectiveRelationPrivilege_eq]
  by_cases hroles : s.rolesKnown = true
  · simp [hroles, inheritedAnswer_false_iff]
  · simp [hroles]

theorem answer_cases (answer : Option Bool) :
    answer = none ∨ answer = some false ∨ answer = some true := by
  cases answer with
  | none => exact Or.inl rfl
  | some b => cases b <;> simp

/-- Whoever is not a superuser or the owner is refused unless every search finds its option. -/
theorem authorizeRelationGrant_false_iff {id : ObjectId} {role : RoleState}
    (hrole : s.presentRole id.name = some role) (hplain : ¬role.isSuperuser = true)
    (hother : relation.owner ≠ id) :
    s.authorizeRelationGrant relation privileges (some id) = some false ↔
      ∃ privilege ∈ privileges, s.effectiveRelationPrivilege relation id privilege true ≠
        some true := by
  simp [authorizeRelationGrant, hrole, hplain, hother]

theorem refusesDefinitely_iff (grantor : Option ObjectId) :
    s.RefusesDefinitely relation privileges grantor ↔
      s.DecidesGrant relation privileges grantor := by
  constructor
  · intro h id role hid hrole
    subst hid
    by_cases hplain : role.isSuperuser = true
    · exact Or.inl hplain
    by_cases hother : relation.owner = id
    · exact Or.inr (Or.inl hother)
    refine Or.inr (Or.inr ?_)
    by_cases hall : ∀ privilege ∈ privileges,
        s.effectiveRelationPrivilege relation id privilege true = some true
    · exact Or.inl fun privilege hmem =>
        effectiveRelationPrivilege_true_iff.mp (hall privilege hmem)
    push Not at hall
    obtain ⟨hanswers, howner⟩ :=
      h id rfl ((authorizeRelationGrant_false_iff hrole hplain hother).mpr hall)
    obtain ⟨refused, hrefused, hne⟩ := hall
    have hfalse : s.effectiveRelationPrivilege relation id refused true = some false :=
      ((answer_cases _).resolve_left (hanswers refused hrefused)).resolve_right hne
    obtain ⟨hroles, hnot⟩ := effectiveRelationPrivilege_false_iff.mp hfalse
    refine Or.inr ⟨hroles, fun privilege hmem => ?_, howner s (Completes.self hnot.versioned)⟩
    rcases (answer_cases _).resolve_left (hanswers privilege hmem) with hno | hyes
    · exact Or.inr (effectiveRelationPrivilege_false_iff.mp hno).2
    · exact Or.inl (effectiveRelationPrivilege_true_iff.mp hyes).2
  · intro h id hid hrefuses
    subst hid
    cases hrole : s.presentRole id.name with
    | none => simp [authorizeRelationGrant, hrole] at hrefuses
    | some role =>
      rcases h id role rfl hrole with hsuper | howner | hall | ⟨hroles, hdecided, hapart⟩
      · simp [authorizeRelationGrant, hrole, hsuper] at hrefuses
      · simp [authorizeRelationGrant, hrole, howner] at hrefuses
      · have hgranted : ∀ privilege ∈ privileges,
            s.effectiveRelationPrivilege relation id privilege true = some true :=
          fun privilege hmem => effectiveRelationPrivilege_true_iff.mpr (hall privilege hmem)
        simp only [authorizeRelationGrant, hrole, Option.bind_eq_bind, Option.bind_some] at hrefuses
        rw [if_pos hgranted] at hrefuses
        split at hrefuses <;> cases hrefuses
      have hknown : ∀ privilege ∈ privileges,
          s.effectiveRelationPrivilege relation id privilege true ≠ none := by
        intro privilege hmem
        rcases hdecided privilege hmem with hyes | hno
        · simp [effectiveRelationPrivilege_true_iff.mpr ⟨hroles, hyes⟩]
        · simp [effectiveRelationPrivilege_false_iff.mpr ⟨hroles, hno⟩]
      refine ⟨hknown, fun t ht => ?_⟩
      by_cases hplain : role.isSuperuser = true
      · simp [authorizeRelationGrant, hrole, hplain] at hrefuses
      by_cases hother : relation.owner = id
      · simp [authorizeRelationGrant, hrole, hother] at hrefuses
      obtain ⟨refused, hrefused, hne⟩ :=
        (authorizeRelationGrant_false_iff hrole hplain hother).mp hrefuses
      have hfalse : s.effectiveRelationPrivilege relation id refused true = some false :=
        ((answer_cases _).resolve_left (hknown refused hrefused)).resolve_right hne
      rw [ht.inheritsFrom hroles (effectiveRelationPrivilege_false_iff.mp hfalse).2.versioned]
      exact hapart

end Refusal

section Soundness

/-- The loop ends, and the answer is the verdict that it ends with. -/
def EndsWith {ρ : Type} (verdict : ObjectId → Option ρ) (next : ObjectId → List ObjectId)
    (pending : List ObjectId) (idle answer : ρ) : Prop :=
  ∃ fuel found, Worklist.seek verdict next fuel [] pending = some found ∧ answer = found.getD idle

/-- The searches end, their definite answers are true under every completion, and only
a definite answer refuses a grant. -/
structure AnswersSoundly (s : AnalysisState) (relation : RelationState)
    (privileges : Finset Privilege) (grantor : Option ObjectId) : Prop where
  setRoleEnds : ∀ target session, s.rolesKnown = true → s.sessionRoleKnown = true →
    (s.presentRole target).isSome = true → s.sessionRole ≠ target →
    s.presentRole s.sessionRole = some session → session.isSuperuser = false →
    ∃ b, s.canSetRoleTo target = some b ∧ EndsWith (setVerdict target)
      (fun id => s.settableRoles id.name) session.canSetRoleTo.reverse false b
  setRole : ∀ target, s.Entails (s.canSetRoleTo target) fun t => t.MaySetRoleTo target
  privilegeEnds : s.rolesKnown = true → ∀ role privilege grantOption,
    EndsWith (s.inheritanceVerdict (directlyGranted relation privilege grantOption))
      s.inheritsFrom [role] (some false)
      (s.effectiveRelationPrivilege relation role privilege grantOption)
  privilege : ∀ role privilege grantOption,
    s.Entails (s.effectiveRelationPrivilege relation role privilege grantOption) fun t =>
      t.ReachesGrant (directlyGranted relation privilege grantOption) role
  adminEnds : s.rolesKnown = true → ∀ member target,
    EndsWith (s.inheritanceVerdict (s.administers member target)) s.inheritsFrom [member]
      (some false) (s.hasAdminPrivilegesOnRole member target)
  admin : ∀ member target, s.Entails (s.hasAdminPrivilegesOnRole member target) fun t =>
    t.ReachesGrant (t.administers member target) member
  refusal : s.RefusesDefinitely relation privileges grantor

/-- Everything but a refusal is sound in every state, and a refusal exactly if the
grantor's case is decided. -/
theorem roleAuthority_sound_iff (s : AnalysisState) (relation : RelationState)
    (privileges : Finset Privilege) (grantor : Option ObjectId) :
    s.AnswersSoundly relation privileges grantor ↔
      s.DecidesGrant relation privileges grantor := by
  rw [← refusesDefinitely_iff]
  refine ⟨fun h => h.refusal, fun h => ⟨?_, canSetRoleTo_entails, ?_,
    effectiveRelationPrivilege_entails relation, ?_, hasAdminPrivilegesOnRole_entails, h⟩⟩
  · intro target session hroles hknown htarget hother hsession hplain
    have hends := @Worklist.seek_eq _ _ _ s.settableDomain
      (fun id => (s.settableRoles id.name).length) (fun id => s.settableRoles id.name)
      (fun _ => Nat.le_refl _) settableRoles_subset (setVerdict target) _ []
      session.canSetRoleTo.reverse (settableRoles_pending hsession) (Nat.le_refl _)
    exact ⟨_, canSetRoleTo_search hroles hknown htarget hother hsession hplain, _, _, hends, rfl⟩
  · intro hroles role privilege grantOption
    refine ⟨_, _, seek_inheritance _ role, ?_⟩
    rw [effectiveRelationPrivilege_eq, if_pos hroles]
    rfl
  · intro hroles member target
    refine ⟨_, _, seek_inheritance _ member, ?_⟩
    rw [hasAdminPrivilegesOnRole_eq, if_pos hroles]
    rfl

/-- A table of the role `a`, without grants. -/
def ownedByA : RelationState :=
  { id := ⟨"public", "accounts"⟩, owner := roleId "a", generation := 0, estimatedRows := none,
    kind := .table, persistence := .permanent, createdAtTxDepth := 0 }

def unversioned : AnalysisState := { grantedToB with pgVersionNum := none }

/-- A member of the owner is refused a grant on the table, and so is a role of which
nothing is known. -/
theorem ownersMember_refused :
    ¬grantedToB.AnswersSoundly ownedByA {.select} (some (roleId "b")) ∧
    ¬unversioned.AnswersSoundly ownedByA {.select} (some (roleId "c")) := by
  constructor
  · intro h
    have hrefused : grantedToB.authorizeRelationGrant ownedByA {.select} (some (roleId "b")) =
        some false := by decide +kernel
    have hinherits : roleId "a" ∈ grantedToB.inheritsFrom (roleId "b") := by decide +kernel
    have hversion : grantedToB.pgVersion.isSome = true := by decide +kernel
    exact (h.refusal _ rfl hrefused).2 _ (Completes.self hversion)
      (Relation.ReflTransGen.single hinherits)
  · intro h
    have hrefused : unversioned.authorizeRelationGrant ownedByA {.select} (some (roleId "c")) =
        some false := by decide +kernel
    exact (h.refusal _ rfl hrefused).1 .select (by decide) (by decide +kernel)

end Soundness

end SafeMigrate.AnalysisState
