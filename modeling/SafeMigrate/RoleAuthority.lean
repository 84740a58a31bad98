import SafeMigrate.Privileges
import SafeMigrate.SearchOrder
import SafeMigrate.SessionSettings

/-! What the membership graph lets a role do: the three searches over it, and the
answers they give while something is unknown. -/

namespace SafeMigrate

namespace PrivilegeMatrix

variable (m : PrivilegeMatrix)

def hasPrivilege (role : ObjectId) (privilege : Privilege) : Bool :=
  (m.grants.lookup role).any fun held =>
    decide (privilege ∈ held) || (decide (privilege ≠ .all) && decide (.all ∈ held))

def hasDirectPrivilege (role : ObjectId) (privilege : Privilege) : Bool :=
  m.hasPrivilege role privilege || m.hasPrivilege (roleId "public") privilege

def hasDirectGrantOption (role : ObjectId) (privilege : Privilege) : Bool :=
  m.hasGrantOption role privilege || m.hasGrantOption (roleId "public") privilege

end PrivilegeMatrix

namespace AnalysisState

variable (s : AnalysisState)

/-- The loop of `effective_relation_privilege`. -/
def effectivePrivilegeLoop (granted : ObjectId → Bool) :
    Nat → List ObjectId → List ObjectId → Option Bool
  | 0, _, _ => some false
  | _ + 1, _, [] => some false
  | fuel + 1, visited, candidate :: pending =>
    if candidate ∈ visited then effectivePrivilegeLoop granted fuel visited pending
    else if granted candidate then some true
    else do
      let role ← s.presentRole candidate.name
      let version ← s.pgVersion
      effectivePrivilegeLoop granted fuel (candidate :: visited)
        ((inheritedRoles version role).reverse ++ pending)

/-- What the relation's privileges grant a role directly, or grant `PUBLIC`. -/
def directlyGranted (relation : RelationState) (privilege : Privilege) (grantOption : Bool)
    (candidate : ObjectId) : Bool :=
  if grantOption then relation.privileges.hasDirectGrantOption candidate privilege
  else relation.privileges.hasDirectPrivilege candidate privilege

/-- The rounds that a search over inherited privileges takes, at most. -/
def inheritanceFuel (start : ObjectId) : Nat :=
  Worklist.fuelFor (s.inheritanceDomain start)
    (fun id => ((s.presentRole id.name).map (·.canInheritFrom.length)).getD 0) [] [start]

/-- A direct or inherited privilege on a relation. -/
def effectiveRelationPrivilege (relation : RelationState) (role : ObjectId)
    (privilege : Privilege) (grantOption : Bool) : Option Bool :=
  if s.rolesKnown then
    s.effectivePrivilegeLoop (directlyGranted relation privilege grantOption)
      (s.inheritanceFuel role) [] [role]
  else none

def authorizeRelationGrant (relation : RelationState) (privileges : Finset Privilege)
    (grantor : Option ObjectId) : Option Bool := do
  let grantor ← grantor
  let role ← s.presentRole grantor.name
  if role.isSuperuser = true ∨ relation.owner = grantor then some true
  else if ∀ privilege ∈ privileges,
      s.effectiveRelationPrivilege relation grantor privilege true = some true then some true
  else some false

section Inheritance

/-- The roles whose privileges a listed role inherits. -/
def inheritsFrom (id : ObjectId) : List ObjectId :=
  match s.pgVersion, s.presentRole id.name with
  | some version, some role => inheritedRoles version role
  | _, _ => []

/-- Whether the search can go on from a role without its privileges. -/
def isPassed (id : ObjectId) : Bool := (s.presentRole id.name).isSome && s.pgVersion.isSome

/-- Where a search over inherited privileges stops, and the answer it gives there. -/
def inheritanceVerdict (granted : ObjectId → Bool) (id : ObjectId) : Option (Option Bool) :=
  if granted id then some (some true) else if s.isPassed id then none else some none

/-- The roles in the order in which their privileges are looked at. -/
def inheritanceOrder (start : ObjectId) : List ObjectId :=
  Worklist.preorder s.inheritsFrom (s.inheritanceFuel start) [] [start]

/-- What `has_admin_privileges_on_role` asks of each role. -/
def administers (member target id : ObjectId) : Bool :=
  (s.presentRole id.name).any fun role =>
    decide (id = member ∧ role.isSuperuser = true) || decide (target ∈ role.canAdministerMembership)

variable {s}

theorem inheritsFrom_eq {id : ObjectId} {role : RoleState} {version : Nat}
    (hrole : s.presentRole id.name = some role) (hversion : s.pgVersion = some version) :
    s.inheritsFrom id = inheritedRoles version role := by
  simp [inheritsFrom, hrole, hversion]

theorem inheritedRoles_subset (version : Nat) (role : RoleState) :
    inheritedRoles version role ⊆ role.canInheritFrom := by
  unfold inheritedRoles
  split
  · exact fun _ h => h
  · exact List.nil_subset _

theorem inheritedRoles_length_le (version : Nat) (role : RoleState) :
    (inheritedRoles version role).length ≤ role.canInheritFrom.length := by
  unfold inheritedRoles
  split
  · exact Nat.le_refl _
  · exact Nat.zero_le _

theorem inheritsFrom_length_le (id : ObjectId) : (s.inheritsFrom id).length ≤
    ((s.presentRole id.name).map (·.canInheritFrom.length)).getD 0 := by
  unfold inheritsFrom
  split
  · next hrole =>
    rw [hrole]
    exact inheritedRoles_length_le _ _
  · exact Nat.zero_le _

theorem mem_entries_of_presentRole {name : String} {role : RoleState}
    (h : s.presentRole name = some role) : ⟨roleId name, .present role⟩ ∈ s.roles.entries := by
  unfold presentRole roleAt at h
  split at h
  · next hlookup =>
    cases h
    exact AList.mem_lookup_iff.mp hlookup
  · cases h

theorem inheritsFrom_subset (start id : ObjectId) :
    s.inheritsFrom id ⊆ s.inheritanceDomain start := by
  intro parent hparent
  unfold inheritsFrom at hparent
  split at hparent
  · next role _ hrole =>
    exact List.mem_cons_of_mem start (List.mem_flatMap.mpr
      ⟨_, mem_entries_of_presentRole hrole, inheritedRoles_subset _ role hparent⟩)
  · cases hparent

theorem mem_inheritanceOrder {start id : ObjectId} : id ∈ s.inheritanceOrder start ↔
    Relation.ReflTransGen (fun a b => b ∈ s.inheritsFrom a) start id := by
  have hstart : [start] ⊆ s.inheritanceDomain start := by
    simp [inheritanceDomain]
  have hiff := @Worklist.mem_preorder_iff _ _ _ _ _ inheritsFrom_length_le
    (inheritsFrom_subset (s := s) start) (s.inheritanceFuel start) [start] hstart (Nat.le_refl _) id
  simpa [inheritanceOrder] using hiff

/-- The search ends, with the verdict of the first role that has one. -/
theorem seek_inheritance (granted : ObjectId → Bool) (start : ObjectId) :
    Worklist.seek (s.inheritanceVerdict granted) s.inheritsFrom (s.inheritanceFuel start + 1) []
      [start] = some ((s.inheritanceOrder start).findSome? (s.inheritanceVerdict granted)) := by
  have hstart : [start] ⊆ s.inheritanceDomain start := by
    simp [inheritanceDomain]
  exact Worklist.seek_eq inheritsFrom_length_le (inheritsFrom_subset start) _ hstart (Nat.le_refl _)

theorem effectivePrivilegeLoop_eq (granted : ObjectId → Bool) (fuel : Nat)
    (visited pending : List ObjectId) : s.effectivePrivilegeLoop granted fuel visited pending =
      ((Worklist.preorder s.inheritsFrom fuel visited pending).findSome?
        (s.inheritanceVerdict granted)).getD (some false) := by
  induction fuel generalizing visited pending with
  | zero => rfl
  | succ fuel ih =>
    cases pending with
    | nil => rfl
    | cons candidate pending =>
      rw [effectivePrivilegeLoop, Worklist.preorder]
      by_cases hvisited : candidate ∈ visited
      · rw [if_pos hvisited, if_pos hvisited]
        exact ih visited pending
      rw [if_neg hvisited, if_neg hvisited, List.findSome?_cons, inheritanceVerdict, isPassed]
      by_cases hgranted : granted candidate = true
      · simp [hgranted]
      cases hrole : s.presentRole candidate.name with
      | none => simp [hgranted]
      | some role =>
        cases hversion : s.pgVersion with
        | none => simp [hgranted]
        | some version =>
          rw [inheritsFrom_eq hrole hversion]
          simpa [hgranted] using ih _ _

theorem hasAdminLoop_eq (member target : ObjectId) (fuel : Nat) (visited pending : List ObjectId) :
    s.hasAdminLoop member target fuel visited pending =
      ((Worklist.preorder s.inheritsFrom fuel visited pending).findSome?
        (s.inheritanceVerdict (s.administers member target))).getD (some false) := by
  induction fuel generalizing visited pending with
  | zero => rfl
  | succ fuel ih =>
    cases pending with
    | nil => rfl
    | cons candidate pending =>
      rw [hasAdminLoop, Worklist.preorder]
      by_cases hvisited : candidate ∈ visited
      · rw [if_pos hvisited, if_pos hvisited]
        exact ih visited pending
      rw [if_neg hvisited, if_neg hvisited, List.findSome?_cons, inheritanceVerdict, isPassed]
      cases hrole : s.presentRole candidate.name with
      | none => simp [administers, hrole]
      | some role =>
        have hasks : s.administers member target candidate =
            decide ((candidate = member ∧ role.isSuperuser = true) ∨
              target ∈ role.canAdministerMembership) := by
          simp [administers, hrole]
        by_cases hgranted : s.administers member target candidate = true
        · have hdirect := of_decide_eq_true (hasks ▸ hgranted)
          simp [hgranted, hdirect]
        have hnot : ¬((candidate = member ∧ role.isSuperuser = true) ∨
            target ∈ role.canAdministerMembership) := by
          rw [hasks, decide_eq_true_eq] at hgranted
          exact hgranted
        cases hversion : s.pgVersion with
        | none => simp [hgranted, hnot]
        | some version =>
          rw [inheritsFrom_eq hrole hversion]
          simpa [hgranted, hnot] using ih _ _

/-- What a search over inherited privileges answers. -/
def inheritedAnswer (s : AnalysisState) (granted : ObjectId → Bool) (start : ObjectId) :
    Option Bool :=
  ((s.inheritanceOrder start).findSome? (s.inheritanceVerdict granted)).getD (some false)

theorem effectiveRelationPrivilege_eq (relation : RelationState) (role : ObjectId)
    (privilege : Privilege) (grantOption : Bool) :
    s.effectiveRelationPrivilege relation role privilege grantOption =
      if s.rolesKnown then s.inheritedAnswer (directlyGranted relation privilege grantOption) role
      else none := by
  rw [effectiveRelationPrivilege, effectivePrivilegeLoop_eq]
  rfl

theorem hasAdminPrivilegesOnRole_eq (member target : ObjectId) :
    s.hasAdminPrivilegesOnRole member target =
      if s.rolesKnown then s.inheritedAnswer (s.administers member target) member else none := by
  rw [hasAdminPrivilegesOnRole, hasAdminLoop_eq]
  rfl

/-- The search comes to a role with the privilege before one that it cannot pass. -/
def GrantedFirst (s : AnalysisState) (granted : ObjectId → Bool) (start : ObjectId) : Prop :=
  ∃ id, (s.inheritanceOrder start).find? (fun id => granted id || !s.isPassed id) = some id ∧
    granted id = true

/-- No role that the search can come to has the privilege, and all of them are listed. -/
def NotGranted (s : AnalysisState) (granted : ObjectId → Bool) (start : ObjectId) : Prop :=
  ∀ id, Relation.ReflTransGen (fun a b => b ∈ s.inheritsFrom a) start id →
    granted id = false ∧ s.isPassed id = true

theorem findSome?_verdict (granted : ObjectId → Bool) (order : List ObjectId) :
    order.findSome? (s.inheritanceVerdict granted) =
      (order.find? fun id => granted id || !s.isPassed id).map
        fun id => if granted id then some true else none := by
  induction order with
  | nil => rfl
  | cons id order ih =>
    rw [List.findSome?_cons, List.find?_cons, inheritanceVerdict]
    cases hgranted : granted id with
    | true => simp [hgranted]
    | false =>
      cases hpassed : s.isPassed id with
      | true => simpa [hgranted] using ih
      | false => simp [hgranted]

theorem inheritedAnswer_true_iff {granted : ObjectId → Bool} {start : ObjectId} :
    s.inheritedAnswer granted start = some true ↔ s.GrantedFirst granted start := by
  rw [inheritedAnswer, findSome?_verdict, GrantedFirst]
  cases (s.inheritanceOrder start).find? fun id => granted id || !s.isPassed id with
  | none => simp
  | some id => by_cases hgranted : granted id = true <;> simp [hgranted]

theorem inheritedAnswer_false_iff {granted : ObjectId → Bool} {start : ObjectId} :
    s.inheritedAnswer granted start = some false ↔ s.NotGranted granted start := by
  rw [inheritedAnswer, findSome?_verdict, NotGranted]
  constructor
  · intro h id hid
    cases hfind : (s.inheritanceOrder start).find? fun id => granted id || !s.isPassed id with
    | none =>
      have hnone := List.find?_eq_none.mp hfind id (mem_inheritanceOrder.mpr hid)
      simpa using hnone
    | some found =>
      rw [hfind] at h
      by_cases hgranted : granted found = true <;> simp [hgranted] at h
  · intro h
    have hfind : (s.inheritanceOrder start).find? (fun id => granted id || !s.isPassed id) =
        none := by
      rw [List.find?_eq_none]
      intro id hid
      obtain ⟨hgranted, hpassed⟩ := h id (mem_inheritanceOrder.mp hid)
      simp [hgranted, hpassed]
    rw [hfind]
    rfl

/-- A granting role that the search comes to is one it can reach. -/
theorem GrantedFirst.reached {granted : ObjectId → Bool} {start : ObjectId}
    (h : s.GrantedFirst granted start) : ∃ id,
      Relation.ReflTransGen (fun a b => b ∈ s.inheritsFrom a) start id ∧ granted id = true := by
  obtain ⟨id, hfind, hgranted⟩ := h
  exact ⟨id, mem_inheritanceOrder.mp (List.mem_of_find?_eq_some hfind), hgranted⟩

end Inheritance

end AnalysisState

end SafeMigrate
