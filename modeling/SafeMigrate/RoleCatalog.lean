import SafeMigrate.CycleSearch
import SafeMigrate.RoleRecords
import SafeMigrate.Validation

/-! The roles of a catalog cache: what the checks on loading accept, and the state
that an analysis starts from. -/

namespace SafeMigrate

open Relation Validation

/-- The `inferred_schema` of the member, the role and the grantor of a record. -/
structure GrantorMarks where
  member : Bool := false
  role : Bool := false
  grantor : Bool := false
deriving DecidableEq

/-- The `inferred_schema` of the identities that hold roles, by the key of the role and the place
in a list. -/
structure RoleMarks where
  key : ObjectId → Bool := fun _ => false
  identity : ObjectId → Bool := fun _ => false
  memberOf : ObjectId → Nat → Bool := fun _ _ => false
  canSetRoleTo : ObjectId → Nat → Bool := fun _ _ => false
  grantors : Nat → GrantorMarks := fun _ => {}

/-- The fields of a cache that hold roles and memberships. -/
structure DbCache where
  roles : KeyedMap ObjectId RoleState
  roleMembershipGrantors : List RoleMembershipGrantor
  roleMembershipGrantorsComplete : Bool
  marks : RoleMarks := {}

/-- An identity as the cache may hold it. -/
def validateId (label : String) (r : ObjectRef) (requireSchema : Bool) : Except String Unit := do
  ensure (r.id.name ≠ "") (label ++ " has an empty object name")
  ensure (requireSchema = true → r.id.schema ≠ "")
    (label ++ " '" ++ r.id.name ++ "' must include a schema identity")
  ensure (r.inferredSchema = false)
    (label ++ " '" ++ r.display ++ "' is marked as an inferred schema identity")

namespace DbCache

variable (c : DbCache)

def memberOf (id : ObjectId) : List ObjectId := ((c.roles.lookup id).map (·.memberOf)).getD []

/-- Every role that the membership lists speak of. -/
def roleNodes : List ObjectId := c.roles.keys ++ c.roles.keys.flatMap c.memberOf

/-- The roles are tried in the order of the map. -/
def roleMembershipCycle : Option ObjectId :=
  CycleSearch.find c.memberOf (c.roleNodes.length + 1) c.roles.keys

def validateRole (id : ObjectId) (role : RoleState) : Except String Unit := do
  validateId "role cache identity" ⟨id, c.marks.key id⟩ false
  validateId "role embedded identity" ⟨role.id, c.marks.identity id⟩ false
  ensure (id = role.id) ("role cache key '" ++ id.display ++
    "' disagrees with embedded identity '" ++ role.id.display ++ "'")
  ensure (id.schema = "") ("role '" ++ id.name ++
    "' must use the cluster role namespace, not schema '" ++ id.schema ++ "'")

def validateMembershipTarget (id : ObjectId) (target : ObjectRef) : Except String Unit := do
  validateId "role membership target" target false
  ensure (target.id.schema = "") ("role '" ++ id.name ++ "' membership target '" ++
    target.display ++ "' must use the cluster role namespace")
  ensure (target.id ∈ c.roles) ("role '" ++ id.display ++
    "' membership references missing role '" ++ target.display ++ "'")

def validateMemberOf (id : ObjectId) (role : RoleState) : Except String Unit :=
  validateOnce
    (fun target => ensure (target ≠ id) ("role '" ++ id.name ++ "' cannot be a member of itself"))
    (fun target => target)
    (fun target => "role '" ++ id.name ++ "' contains duplicate membership in '" ++ target.name ++
      "'") [] role.memberOf

/-- What an option is called where it lacks a membership, and where it is listed twice. -/
def validateOptionTargets (id : ObjectId) (role : RoleState) (access option : String)
    (targets : List ObjectId) : Except String Unit :=
  validateOnce
    (fun target => ensure (target ∈ role.memberOf) ("role '" ++ id.name ++ "' has " ++ access ++
      " '" ++ target.name ++ "' without membership"))
    (fun target => target)
    (fun target => "role '" ++ id.name ++ "' contains duplicate " ++ option ++ " target '" ++
      target.name ++ "'") [] targets

def validateSetRoleTargets (id : ObjectId) (role : RoleState) : Except String Unit :=
  validateOptionTargets id role "SET ROLE access to" "SET ROLE" role.canSetRoleTo

def validateAdminTargets (id : ObjectId) (role : RoleState) : Except String Unit :=
  validateOptionTargets id role "ADMIN option for" "ADMIN" role.canAdministerMembership

def validateInheritTargets (id : ObjectId) (role : RoleState) : Except String Unit :=
  validateOptionTargets id role "INHERIT option for" "INHERIT" role.canInheritFrom

def validateMemberships (id : ObjectId) (role : RoleState) : Except String Unit := do
  validateAll (fun target => c.validateMembershipTarget id
    ⟨target.1, c.marks.memberOf id target.2⟩) role.memberOf.zipIdx
  validateAll (fun target => c.validateMembershipTarget id
    ⟨target.1, c.marks.canSetRoleTo id target.2⟩) role.canSetRoleTo.zipIdx
  validateMemberOf id role
  validateSetRoleTargets id role
  validateAdminTargets id role
  validateInheritTargets id role

def validateProvenanceId (id : ObjectId) : Except String Unit := do
  ensure (id.schema = "") ("role membership provenance '" ++ id.display ++
    "' must use the cluster role namespace")
  ensure (id ∈ c.roles) ("role membership provenance references missing role '" ++ id.display ++ "'")

def validateProvenance (r : RoleMembershipGrantor) (marks : GrantorMarks) :
    Except String Unit := do
  validateId "role membership grantee" ⟨r.member, marks.member⟩ false
  validateId "role membership role" ⟨r.role, marks.role⟩ false
  validateId "role membership grantor" ⟨r.grantor, marks.grantor⟩ false
  validateAll c.validateProvenanceId [r.member, r.role, r.grantor]
  ensure (r.role ∈ c.memberOf r.member) ("role membership provenance '" ++ r.member.display ++
    "' -> '" ++ r.role.display ++ "' has no membership edge")

def validateProvenances : Except String Unit :=
  validateOnce (fun r => c.validateProvenance r.1 (c.marks.grantors r.2))
    (fun r => r.1.key)
    (fun r => "duplicate role membership provenance for '" ++ r.1.member.display ++ "' -> '" ++
      r.1.role.display ++ "' by '" ++ r.1.grantor.display ++ "'") []
    c.roleMembershipGrantors.zipIdx

def validateComplete (id : ObjectId) (role : RoleState) : Except String Unit :=
  validateAll (fun target =>
    ensure (∃ r ∈ c.roleMembershipGrantors, r.member = id ∧ r.role = target)
      ("complete role membership provenance is missing for '" ++ id.display ++ "' -> '" ++
        target.display ++ "'")) role.memberOf

def validateEntries (check : ObjectId → RoleState → Except String Unit) : Except String Unit :=
  validateAll (fun entry => check entry.1 entry.2) c.roles.entries

/-- `validate_semantics`, as far as it reads roles. -/
def validateRoles : Except String Unit := do
  c.validateEntries c.validateRole
  ensure (c.roleMembershipCycle = none) ("role membership graph contains a circular path at '" ++
    (c.roleMembershipCycle.map (·.name)).getD "" ++ "'")
  c.validateEntries c.validateMemberships
  c.validateProvenances
  if c.roleMembershipGrantorsComplete then c.validateEntries c.validateComplete else .ok ()

/-- The membership graph of the cache. -/
def Member (a b : ObjectId) : Prop := b ∈ c.memberOf a

/-- The identities are names of the catalog, and none is a guess of the resolver. -/
structure Unmarked : Prop where
  roles : ∀ id ∈ c.roles, c.marks.key id = false ∧ c.marks.identity id = false
  targets : ∀ id role, c.roles.lookup id = some role →
    (∀ i < role.memberOf.length, c.marks.memberOf id i = false) ∧
      ∀ i < role.canSetRoleTo.length, c.marks.canSetRoleTo id i = false
  grantors : ∀ i < c.roleMembershipGrantors.length, c.marks.grantors i = {}

/-- A role catalog that could be PostgreSQL's. -/
structure RolesWellFormed : Prop where
  unmarked : c.Unmarked
  identity : ∀ id role, c.roles.lookup id = some role →
    id.name ≠ "" ∧ id.schema = "" ∧ role.id = id
  acyclic : ∀ id, ¬TransGen c.Member id id
  targets : ∀ a b, c.Member a b → b ∈ c.roles
  distinct : ∀ id role, c.roles.lookup id = some role → role.memberOf.Nodup ∧
    role.canSetRoleTo.Nodup ∧ role.canAdministerMembership.Nodup ∧ role.canInheritFrom.Nodup
  options : ∀ id role, c.roles.lookup id = some role → role.canSetRoleTo ⊆ role.memberOf ∧
    role.canAdministerMembership ⊆ role.memberOf ∧ role.canInheritFrom ⊆ role.memberOf
  linked : ∀ r ∈ c.roleMembershipGrantors, c.Member r.member r.role ∧ r.grantor ∈ c.roles
  keys : (c.roleMembershipGrantors.map RoleMembershipGrantor.key).Nodup
  complete : c.roleMembershipGrantorsComplete = true → ∀ a b, c.Member a b →
    ∃ r ∈ c.roleMembershipGrantors, r.member = a ∧ r.role = b

section Accepted

variable {c}

theorem member_iff {a b : ObjectId} :
    c.Member a b ↔ ∃ role, c.roles.lookup a = some role ∧ b ∈ role.memberOf := by
  unfold Member memberOf
  cases c.roles.lookup a <;> simp

theorem mem_roles_iff {id : ObjectId} : id ∈ c.roles ↔ ∃ role, c.roles.lookup id = some role := by
  rw [← AList.lookup_isSome, Option.isSome_iff_exists]

theorem Member.left {a b : ObjectId} (h : c.Member a b) : a ∈ c.roles := by
  obtain ⟨role, hrole, -⟩ := member_iff.mp h
  exact mem_roles_iff.mpr ⟨role, hrole⟩

theorem validateEntries_ok {check : ObjectId → RoleState → Except String Unit} :
    c.validateEntries check = .ok () ↔
      ∀ id role, c.roles.lookup id = some role → check id role = .ok () := by
  unfold validateEntries
  rw [validateAll_ok]
  constructor
  · intro h id role hrole
    exact h ⟨id, role⟩ (AList.mem_lookup_iff.mp hrole)
  · rintro h ⟨id, role⟩ hentry
    exact h id role (AList.mem_lookup_iff.mpr hentry)

theorem mem_roleNodes {id : ObjectId} :
    id ∈ c.roleNodes ↔ id ∈ c.roles ∨ ∃ a, c.Member a id := by
  unfold roleNodes
  rw [List.mem_append, List.mem_flatMap]
  refine or_congr AList.mem_keys.symm ⟨?_, ?_⟩
  · rintro ⟨a, -, ha⟩
    exact ⟨a, ha⟩
  · rintro ⟨a, ha⟩
    exact ⟨a, AList.mem_keys.mp (Member.left ha), ha⟩

/-- Whatever the order of the map is, the search finds a cycle if there is one. -/
theorem roleMembershipCycle_isSome_iff :
    c.roleMembershipCycle.isSome = true ↔ ∃ id, TransGen c.Member id id := by
  refine CycleSearch.find_isSome_iff c.roleNodes.toFinset ?_ ?_ ?_ ?_
  · intro a _ b hb
    exact List.mem_toFinset.mpr (mem_roleNodes.mpr (Or.inr ⟨a, hb⟩))
  · intro id hid
    exact List.mem_toFinset.mpr (mem_roleNodes.mpr (Or.inl (AList.mem_keys.mpr hid)))
  · intro id hne
    obtain ⟨b, hb⟩ := List.exists_mem_of_ne_nil _ hne
    exact AList.mem_keys.mp (Member.left hb)
  · exact Nat.lt_succ_of_le (List.toFinset_card_le _)

theorem roleMembershipCycle_eq_none_iff :
    c.roleMembershipCycle = none ↔ ∀ id, ¬TransGen c.Member id id := by
  rw [← Option.not_isSome_iff_eq_none, roleMembershipCycle_isSome_iff, not_exists]

theorem validateId_ok {label : String} {r : ObjectRef} :
    validateId label r false = .ok () ↔ r.id.name ≠ "" ∧ r.inferredSchema = false := by
  simp [validateId]

/-- What holds of all elements of a list, and of all places in it. -/
theorem forall_mem_zipIdx_iff {α : Type} {l : List α} {P : α → Prop} {Q : Nat → Prop} :
    (∀ x ∈ l.zipIdx, P x.1 ∧ Q x.2) ↔ (∀ a ∈ l, P a) ∧ ∀ i < l.length, Q i := by
  constructor
  · intro h
    constructor
    · intro a ha
      obtain ⟨i, hi⟩ := List.mem_iff_getElem?.mp ha
      exact (h (a, i) (List.mk_mem_zipIdx_iff_getElem?.mpr hi)).1
    · intro i hi
      exact (h (l[i], i) (List.mk_mem_zipIdx_iff_getElem?.mpr (by simp [hi]))).2
  · rintro ⟨hall, hplaces⟩ ⟨a, i⟩ hmem
    have hget := List.mk_mem_zipIdx_iff_getElem?.mp hmem
    exact ⟨hall a (List.mem_of_getElem? hget),
      hplaces i (List.getElem?_eq_some_iff.mp hget).1⟩

theorem validateRole_ok {id : ObjectId} {role : RoleState} :
    c.validateRole id role = .ok () ↔
      (id.name ≠ "" ∧ id.schema = "" ∧ role.id = id) ∧
        c.marks.key id = false ∧ c.marks.identity id = false := by
  unfold validateRole
  simp only [bind_ok, validateId_ok, ensure_ok]
  constructor
  · rintro ⟨⟨hname, hkey⟩, ⟨-, hidentity⟩, hid, hschema⟩
    exact ⟨⟨hname, hschema, hid.symm⟩, hkey, hidentity⟩
  · rintro ⟨⟨hname, hschema, rfl⟩, hkey, hidentity⟩
    exact ⟨⟨hname, hkey⟩, ⟨hname, hidentity⟩, rfl, hschema⟩

theorem validateOptionTargets_ok {id : ObjectId} {role : RoleState} {access option : String}
    {targets : List ObjectId} :
    validateOptionTargets id role access option targets = .ok () ↔
      targets ⊆ role.memberOf ∧ targets.Nodup := by
  unfold validateOptionTargets
  rw [validateOnce_ok]
  simp [List.subset_def]

theorem validateMemberOf_ok {id : ObjectId} {role : RoleState} :
    validateMemberOf id role = .ok () ↔ id ∉ role.memberOf ∧ role.memberOf.Nodup := by
  unfold validateMemberOf
  rw [validateOnce_ok]
  simp only [ensure_ok, List.map_id', List.not_mem_nil, not_false_eq_true, implies_true, and_true]
  exact and_congr_left fun _ => ⟨fun h hid => h id hid rfl, fun h x hx he => h (he ▸ hx)⟩

/-- A role that the lists may name. -/
def Target (c : DbCache) (target : ObjectId) : Prop :=
  target.name ≠ "" ∧ target.schema = "" ∧ target ∈ c.roles

theorem validateMembershipTarget_ok {id : ObjectId} {target : ObjectRef} :
    c.validateMembershipTarget id target = .ok () ↔
      c.Target target.id ∧ target.inferredSchema = false := by
  unfold validateMembershipTarget Target
  simp only [bind_ok, validateId_ok, ensure_ok]
  tauto

theorem validateTargets_ok {id : ObjectId} {targets : List ObjectId} {marks : Nat → Bool} :
    validateAll (fun target => c.validateMembershipTarget id ⟨target.1, marks target.2⟩)
        targets.zipIdx = .ok () ↔
      (∀ target ∈ targets, c.Target target) ∧ ∀ i < targets.length, marks i = false := by
  rw [validateAll_ok, ← forall_mem_zipIdx_iff]
  simp only [validateMembershipTarget_ok]

theorem validateMemberships_ok {id : ObjectId} {role : RoleState} :
    c.validateMemberships id role = .ok () ↔
      ((∀ target ∈ role.memberOf, c.Target target) ∧
        ∀ i < role.memberOf.length, c.marks.memberOf id i = false) ∧
      ((∀ target ∈ role.canSetRoleTo, c.Target target) ∧
        ∀ i < role.canSetRoleTo.length, c.marks.canSetRoleTo id i = false) ∧
      (id ∉ role.memberOf ∧ role.memberOf.Nodup) ∧
      (role.canSetRoleTo ⊆ role.memberOf ∧ role.canSetRoleTo.Nodup) ∧
      (role.canAdministerMembership ⊆ role.memberOf ∧ role.canAdministerMembership.Nodup) ∧
      role.canInheritFrom ⊆ role.memberOf ∧ role.canInheritFrom.Nodup := by
  unfold validateMemberships validateSetRoleTargets validateAdminTargets validateInheritTargets
  simp only [bind_ok, validateTargets_ok, validateMemberOf_ok, validateOptionTargets_ok]

theorem validateProvenance_ok {r : RoleMembershipGrantor} {marks : GrantorMarks} :
    c.validateProvenance r marks = .ok () ↔
      ((∀ id ∈ [r.member, r.role, r.grantor], c.Target id) ∧ c.Member r.member r.role) ∧
        marks = {} := by
  obtain ⟨member, role, grantor⟩ := marks
  unfold validateProvenance validateProvenanceId Target
  simp only [bind_ok, validateId_ok, validateAll_ok, ensure_ok, List.forall_mem_cons,
    List.not_mem_nil, false_imp_iff, implies_true, and_true, GrantorMarks.mk.injEq]
  tauto

theorem validateProvenances_ok :
    c.validateProvenances = .ok () ↔
      ((∀ r ∈ c.roleMembershipGrantors,
          (∀ id ∈ [r.member, r.role, r.grantor], c.Target id) ∧ c.Member r.member r.role) ∧
        ∀ i < c.roleMembershipGrantors.length, c.marks.grantors i = {}) ∧
        (c.roleMembershipGrantors.map RoleMembershipGrantor.key).Nodup := by
  have hkeys : c.roleMembershipGrantors.zipIdx.map (fun r => r.1.key) =
      c.roleMembershipGrantors.map RoleMembershipGrantor.key := by
    conv_rhs => rw [← List.zipIdx_map_fst 0 c.roleMembershipGrantors, List.map_map]
    rfl
  unfold validateProvenances
  rw [validateOnce_ok, hkeys, ← forall_mem_zipIdx_iff]
  simp only [validateProvenance_ok, List.not_mem_nil, not_false_eq_true, implies_true, and_true]

theorem validateComplete_ok {id : ObjectId} {role : RoleState} :
    c.validateComplete id role = .ok () ↔
      ∀ target ∈ role.memberOf, ∃ r ∈ c.roleMembershipGrantors, r.member = id ∧ r.role = target := by
  unfold validateComplete
  simp only [validateAll_ok, ensure_ok]

theorem validateRoles_ok :
    c.validateRoles = .ok () ↔
      (∀ id role, c.roles.lookup id = some role → c.validateRole id role = .ok ()) ∧
      c.roleMembershipCycle = none ∧
      (∀ id role, c.roles.lookup id = some role → c.validateMemberships id role = .ok ()) ∧
      c.validateProvenances = .ok () ∧
      (c.roleMembershipGrantorsComplete = true → ∀ id role, c.roles.lookup id = some role →
        c.validateComplete id role = .ok ()) := by
  unfold validateRoles
  simp only [bind_ok, validateEntries_ok, ensure_ok]
  refine and_congr_right fun _ => and_congr_right fun _ => and_congr_right fun _ =>
    and_congr_right fun _ => ?_
  cases c.roleMembershipGrantorsComplete with
  | true => simp [validateEntries_ok]
  | false => simp

theorem RolesWellFormed.present (h : c.RolesWellFormed) {id : ObjectId} (hid : id ∈ c.roles) :
    c.Target id := by
  obtain ⟨role, hrole⟩ := mem_roles_iff.mp hid
  obtain ⟨hname, hschema, -⟩ := h.identity id role hrole
  exact ⟨hname, hschema, hid⟩

end Accepted

/-- The checks accept exactly the well-formed role catalogs, in whatever order
the map hands its roles out. -/
theorem accepts_roles_iff : c.validateRoles = .ok () ↔ c.RolesWellFormed := by
  rw [validateRoles_ok, roleMembershipCycle_eq_none_iff, validateProvenances_ok]
  constructor
  · rintro ⟨hidentity, hacyclic, hmemberships, ⟨⟨hprovenance, hgrantors⟩, hkeys⟩, hcomplete⟩
    have hroles (id : ObjectId) (role : RoleState) (hrole : c.roles.lookup id = some role) :=
      validateRole_ok.mp (hidentity id role hrole)
    have hlists (id : ObjectId) (role : RoleState) (hrole : c.roles.lookup id = some role) :=
      validateMemberships_ok.mp (hmemberships id role hrole)
    refine ⟨⟨?_, ?_, hgrantors⟩, fun id role hrole => (hroles id role hrole).1, hacyclic, ?_, ?_, ?_,
      ?_, hkeys, ?_⟩
    · intro id hid
      obtain ⟨role, hrole⟩ := mem_roles_iff.mp hid
      exact (hroles id role hrole).2
    · intro id role hrole
      obtain ⟨⟨-, hmembers⟩, ⟨-, hset⟩, -⟩ := hlists id role hrole
      exact ⟨hmembers, hset⟩
    · intro a b hab
      obtain ⟨role, hrole, hb⟩ := member_iff.mp hab
      exact ((hlists a role hrole).1.1 b hb).2.2
    · intro id role hrole
      obtain ⟨-, -, ⟨-, hmember⟩, ⟨-, hset⟩, ⟨-, hadmin⟩, -, hinherit⟩ := hlists id role hrole
      exact ⟨hmember, hset, hadmin, hinherit⟩
    · intro id role hrole
      obtain ⟨-, -, -, ⟨hset, -⟩, ⟨hadmin, -⟩, hinherit, -⟩ := hlists id role hrole
      exact ⟨hset, hadmin, hinherit⟩
    · intro r hr
      obtain ⟨hids, hlink⟩ := hprovenance r hr
      exact ⟨hlink, (hids r.grantor (by simp)).2.2⟩
    · intro h a b hab
      obtain ⟨role, hrole, hb⟩ := member_iff.mp hab
      exact validateComplete_ok.mp (hcomplete h a role hrole) b hb
  · intro h
    refine ⟨fun id role hrole => validateRole_ok.mpr ⟨h.identity id role hrole,
      h.unmarked.roles id (mem_roles_iff.mpr ⟨role, hrole⟩)⟩, h.acyclic, ?_,
      ⟨⟨?_, h.unmarked.grantors⟩, h.keys⟩, ?_⟩
    · intro id role hrole
      obtain ⟨hmember, hset, hadmin, hinherit⟩ := h.distinct id role hrole
      obtain ⟨hsetIn, hadminIn, hinheritIn⟩ := h.options id role hrole
      obtain ⟨hmarks, hsetMarks⟩ := h.unmarked.targets id role hrole
      have htarget : ∀ target ∈ role.memberOf, c.Target target := fun target htarget =>
        h.present (h.targets id target (member_iff.mpr ⟨role, hrole, htarget⟩))
      have hself : id ∉ role.memberOf := fun hself =>
        h.acyclic id (.single (member_iff.mpr ⟨role, hrole, hself⟩))
      exact validateMemberships_ok.mpr ⟨⟨htarget, hmarks⟩,
        ⟨fun target hin => htarget target (hsetIn hin), hsetMarks⟩, ⟨hself, hmember⟩,
        ⟨hsetIn, hset⟩, ⟨hadminIn, hadmin⟩, hinheritIn, hinherit⟩
    · intro r hr
      obtain ⟨hlink, hgrantor⟩ := h.linked r hr
      refine ⟨?_, hlink⟩
      simp only [List.forall_mem_cons, List.not_mem_nil, false_imp_iff, implies_true, and_true]
      exact ⟨h.present hlink.left, h.present (h.targets _ _ hlink), h.present hgrantor⟩
    · intro hcomplete id role hrole
      refine validateComplete_ok.mpr fun target htarget => ?_
      exact h.complete hcomplete id target (member_iff.mpr ⟨role, hrole, htarget⟩)

end DbCache

end SafeMigrate
