import SafeMigrate.Roles
import SafeMigrate.Writes

/-! `CREATE ROLE`, `DROP ROLE`, and `GRANT` and `REVOKE` of roles: the checks, the
membership records, and the older bookkeeping where the records are incomplete. -/

namespace SafeMigrate

open AnalysisState RoleMembershipGrantor

structure CreateRole where
  name : String
  inherits : Bool
  canLogin : Bool

structure DropRole where
  names : List String
  ifExists : Bool

inductive RoleMembershipOptionFact
  | admin (value : Bool)
  | inherit (value : Bool)
  | set (value : Bool)
deriving DecidableEq

structure GrantRoles where
  roles : List String
  grantees : List RoleFact
  withGrantOption : Bool := false
  roleOptions : List RoleMembershipOptionFact := []
  grantedBy : Option RoleFact := none

structure RevokeRoles where
  roles : List String
  revokees : List RoleFact
  grantOptionOnly : Bool := false
  roleOption : Option RoleMembershipOptionFact := none
  grantedBy : Option RoleFact := none
  cascade : Bool := false

/-- The options a grant writes, each at most once. -/
structure MembershipOptions where
  admin : Option Bool := none
  inherit : Option Bool := none
  set : Option Bool := none

def roleMissing (name : String) : String := "role '" ++ name ++ "' does not exist"

section Checks

/-- `validate_grant_targets` for roles. -/
def checkRoleTarget (role : ObjectId) : Statement Unit := do
  match (← get).roleLookup role with
  | .present => pure ()
  | .unknown => leaveUnresolved .unknownObjectState
  | _ => refuse (roleMissing role.name)

/-- `validate_role_facts` for one fact. `PUBLIC` is no role of the catalog. -/
def checkRoleFact (fact : RoleFact) : Statement ObjectId := do
  let s ← get
  match s.roleFactIdentity fact with
  | none => leaveUnresolved .unresolvedReference
  | some (name, _) =>
    if name = "public" then pure (roleId "public")
    else match s.roleLookup (roleId name) with
      | .present => pure (roleId name)
      | .unknown => do
        modify fun s => s.taint .catalogCoverageIncomplete .chain
        pure (roleId name)
      | _ => refuse (roleMissing name)

def checkRoleFacts : List RoleFact → Statement (List ObjectId)
  | [] => pure []
  | fact :: facts => do
    let id ← checkRoleFact fact
    let ids ← checkRoleFacts facts
    pure (id :: ids)

def checkGrantedBy (grantedBy : Option RoleFact) : Statement Unit := do
  match grantedBy with
  | some fact => do
    let _ ← checkRoleFact fact
    pure ()
  | none => pure ()

/-- Options of a single membership came with PostgreSQL 16. -/
def checkMembershipOptions (writesOptions : Prop) [Decidable writesOptions] : Statement Unit := do
  if writesOptions then
    match (← get).pgVersion with
    | some version =>
      refuseIf (version < 160000) "per-membership TRUE/FALSE options require PostgreSQL 16+"
    | none => leaveUnresolved .unsupportedSemantics
  else pure ()

namespace AnalysisState

/-- Whether the grantor may administer the roles, as far as the catalog tells. -/
def canAdminister (s : AnalysisState) (explicit : Bool) (grantor : ObjectId)
    (parents : List ObjectId) : Option Bool :=
  if explicit then
    if (s.presentRole grantor.name).any fun role => role.isSuperuser ||
        parents.all fun parent => decide (parent ∈ role.canAdministerMembership) then some true
    else none
  else parents.foldlM (fun allowed parent =>
    (s.hasAdminPrivilegesOnRole grantor parent).map (allowed && ·)) true

end AnalysisState

/-- What the grantor lacks is refused where it is known, and noted elsewhere. -/
def checkMembershipAuthority (grantedBy : Option RoleFact) (parents : List ObjectId)
    (membership : String) : Statement Unit := do
  let s ← get
  match s.roleMembershipGrantor grantedBy with
  | some grantor =>
    if s.rolesKnown then
      match s.canAdminister grantedBy.isSome grantor parents with
      | some true => pure ()
      | some false =>
        refuse ("role '" ++ grantor.name ++ "' lacks ADMIN OPTION for the " ++ membership ++
          " membership")
      | none => modify fun s => s.taint .catalogCoverageIncomplete .chain
    else modify fun s => s.taint .catalogCoverageIncomplete .chain
  | none =>
    taintIf (grantedBy.isSome = true ∨ s.currentRoleKnown = true) .catalogCoverageIncomplete .chain

end Checks

section Cycles

namespace AnalysisState

/-- The roles a role is a member of, those proposed by the statement included. -/
def proposedRoles (s : AnalysisState) (proposed : List (ObjectId × ObjectId)) (id : ObjectId) :
    List ObjectId :=
  ((s.roleAt id).map (·.memberOf)).getD [] ++ (proposed.filter (·.1 == id)).map (·.2)

def proposalDomain (s : AnalysisState) (proposed : List (ObjectId × ObjectId)) : List ObjectId :=
  s.roles.keys ++ proposed.map (·.1)

/-- Whether the membership would close a cycle. -/
def wouldCycle (s : AnalysisState) (proposed : List (ObjectId × ObjectId))
    (member parent : ObjectId) : Bool :=
  let next := s.proposedRoles proposed
  Worklist.search next member (Worklist.fuelFor (s.proposalDomain proposed)
    (fun id => (next id).length) [] [parent]) [] [parent]

end AnalysisState

/-- The memberships of a statement, each grantee with each role. -/
def membershipPairs (grantees parents : List ObjectId) : List (ObjectId × ObjectId) :=
  grantees.flatMap fun member => parents.map fun parent => (member, parent)

/-- The whole batch is checked before anything is written. -/
def checkCycles (s : AnalysisState) :
    List (ObjectId × ObjectId) → List (ObjectId × ObjectId) → Statement Unit
  | _, [] => pure ()
  | proposed, (member, parent) :: pairs => do
    refuseIf (s.wouldCycle proposed member parent = true) ("role membership '" ++ member.name ++
      "' in '" ++ parent.display ++ "' would create a cycle")
    checkCycles s (proposed ++ [(member, parent)]) pairs

end Cycles

section Grant

namespace AnalysisState

/-- An existing record takes the options that are written, a new one defaults. -/
def grantRecord (s : AnalysisState) (options : MembershipOptions) (grantor member parent : ObjectId) :
    AnalysisState :=
  let modern := s.pgVersion.any (160000 ≤ ·)
  if s.roleMembershipGrantors.any (isFor member parent grantor) then
    s.setRoleMembershipGrantors (updateFirst (isFor member parent grantor) (fun r => { r with
      admin := options.admin.getD r.admin,
      inherit := if modern then options.inherit.getD r.inherit else r.inherit,
      set := options.set.getD r.set }) s.roleMembershipGrantors)
  else
    let inherits := ((s.roleAt member).map (·.inherits)).getD true
    s.setRoleMembershipGrantors (s.roleMembershipGrantors ++ [{
      member, role := parent, grantor, admin := options.admin.getD false,
      inherit := options.inherit.getD (if modern then inherits else true),
      set := options.set.getD true }])

/-- Where the records are incomplete, one record stands for a membership. -/
def grantLegacyRecord (s : AnalysisState) (options : MembershipOptions)
    (grantor member parent : ObjectId) : AnalysisState :=
  let alreadyMember := (s.roleAt member).any fun role => decide (parent ∈ role.memberOf)
  let isForMembership (r : RoleMembershipGrantor) : Bool := r.member == member && r.role == parent
  if alreadyMember && s.roleMembershipGrantors.any isForMembership then s
  else
    s.setRoleMembershipGrantors ((s.roleMembershipGrantors.filter fun r => !isForMembership r) ++ [{
      member, role := parent, grantor, admin := options.admin.getD false,
      inherit := s.pgVersion.any (· < 160000) || options.inherit.getD true,
      set := options.set.getD true }])

end AnalysisState

def withElement (list : List ObjectId) (id : ObjectId) : List ObjectId :=
  if id ∈ list then list else list ++ [id]

/-- What an option does to a role's list: nothing where it is not written. -/
def applyOption (option : Option Bool) (list : List ObjectId) (id : ObjectId) : List ObjectId :=
  match option with
  | some true => withElement list id
  | some false => list.filter (· ≠ id)
  | none => list

/-- The membership as the role's own lists keep it. -/
def RoleState.grantLegacyMembership (version : Nat) (options : MembershipOptions) (role : RoleState)
    (parent : ObjectId) : RoleState :=
  let isNew := decide (parent ∉ role.memberOf)
  let ifNew (value : Bool) : Option Bool := if isNew then some value else none
  let inherit := if version < 160000 then ifNew true else options.inherit <|> ifNew role.inherits
  { role with
    memberOf := if isNew then role.memberOf ++ [parent] else role.memberOf,
    canAdministerMembership := applyOption options.admin role.canAdministerMembership parent,
    canInheritFrom := applyOption inherit role.canInheritFrom parent,
    canSetRoleTo := applyOption (options.set <|> ifNew true) role.canSetRoleTo parent }

/-- The grantees' own lists, where no complete records decide them. -/
def grantLegacyMembers (version : Nat) (options : MembershipOptions)
    (grantees parents : List ObjectId) (s : AnalysisState) : AnalysisState :=
  (retainUnseen [] grantees).foldl (fun s member => (s.snapshotRole member).modifyRole member
    fun role => parents.foldl (RoleState.grantLegacyMembership version options) role) s

namespace GrantRoles

variable (grant : GrantRoles)

def parents : List ObjectId := grant.roles.map roleId

/-- An option that is written twice leaves the statement unresolved. -/
def collectOption (options : MembershipOptions) : RoleMembershipOptionFact →
    Statement MembershipOptions
  | .admin value => do
    leaveUnresolvedIf (options.admin.isSome = true) .unmodeledState
    pure { options with admin := some value }
  | .inherit value => do
    leaveUnresolvedIf (options.inherit.isSome = true) .unmodeledState
    pure { options with inherit := some value }
  | .set value => do
    leaveUnresolvedIf (options.set.isSome = true) .unmodeledState
    pure { options with set := some value }

/-- The memberships are recorded, and the grantees' lists follow. -/
def write (options : MembershipOptions) (grantees : List ObjectId) (s : AnalysisState) :
    AnalysisState :=
  let version := s.conservativePgVersion
  let pairs := membershipPairs grantees grant.parents
  match s.roleMembershipGrantor grant.grantedBy with
  | some grantor =>
    let s := s.snapshotRoleMembershipGrantors
    if s.roleMembershipGrantorsComplete then
      let s := pairs.foldl (fun s pair => s.grantRecord options grantor pair.1 pair.2) s
      (retainUnseen [] grantees).foldl
        (fun s member => (s.snapshotRole member).reconcileMembershipProjection member) s
    else
      let s := pairs.foldl (fun s pair => s.grantLegacyRecord options grantor pair.1 pair.2) s
      grantLegacyMembers version options grantees grant.parents s
  | none =>
    let s := s.snapshotRoleMembershipGrantors.forgetRoleMembershipGrantors
    grantLegacyMembers version options grantees grant.parents s

def command : Statement MutationResult := do
  grant.parents.forM checkRoleTarget
  let grantees ← checkRoleFacts grant.grantees
  checkGrantedBy grant.grantedBy
  taintIf (grant.withGrantOption = true) .catalogCoverageIncomplete .chain
  checkMembershipOptions (grant.roleOptions.any (· ≠ .admin true) = true)
  checkMembershipAuthority grant.grantedBy grant.parents "granted"
  let options ← grant.roleOptions.foldlM collectOption {}
  leaveUnresolvedIf (grant.roleOptions.isEmpty = true ∧ grant.withGrantOption = true) .unmodeledState
  leaveUnresolvedIf (grantees.any (·.name = "public") = true) .unmodeledState
  let s ← get
  checkCycles s [] (membershipPairs grantees grant.parents)
  modify fun s => grant.write options grantees s
  pure .applied

end GrantRoles

end Grant

section Cascade

namespace AnalysisState

/-- The records that a role granted to members who have no other ADMIN record. -/
def recordsGrantedBy (s : AnalysisState) (grantor : ObjectId) : List RoleMembershipGrantor :=
  ((s.roleMembershipGrantors.zipIdx.filter fun entry => entry.1.grantor == grantor &&
    !holdsAdmin (s.roleMembershipGrantors.eraseIdx entry.2) entry.1.member entry.1.role)).map (·.1)

/-- The records that go once the roles have lost their ADMIN option. -/
def withdrawnRecords (s : AnalysisState) (initialGrantors : List ObjectId) :
    List RoleMembershipGrantor :=
  (Worklist.drain (fun removals grantor =>
      (((s.recordsGrantedBy grantor).filter (·.admin)).map (·.member),
        removals ++ s.recordsGrantedBy grantor))
    (Worklist.fuelFor (s.roleMembershipGrantors.map (·.grantor))
      (fun grantor => (s.recordsGrantedBy grantor).length) [] initialGrantors.reverse)
    [] initialGrantors.reverse []).2

def removeMembershipRecord (s : AnalysisState) (r : RoleMembershipGrantor) : AnalysisState :=
  let s := s.snapshotRole r.member
  let s := s.setRoleMembershipGrantors
    (s.roleMembershipGrantors.filter fun other => !isFor r.member r.role r.grantor other)
  s.reconcileMembershipProjection r.member

def cascadeMembershipsGrantedBy (s : AnalysisState) (initialGrantors : List ObjectId) :
    AnalysisState :=
  let removals := s.withdrawnRecords initialGrantors
  if removals.isEmpty then s
  else removals.foldl removeMembershipRecord s.snapshotRoleMembershipGrantors

/-- Whether a record stands for a membership that the member's role lists. -/
def recordIsListed (s : AnalysisState) (r : RoleMembershipGrantor) : Bool :=
  (s.roleAt r.member).any fun role => decide (r.role ∈ role.memberOf)

/-- The memberships, each once, that a role granted. -/
def membershipsGrantedBy (s : AnalysisState) (removals : List (ObjectId × ObjectId))
    (grantor : ObjectId) : List ObjectId × List (ObjectId × ObjectId) :=
  s.roleMembershipGrantors.foldl (fun found r =>
    if r.grantor == grantor && s.recordIsListed r && decide ((r.member, r.role) ∉ found.2) then
      (found.1 ++ [r.member], found.2 ++ [(r.member, r.role)])
    else found) ([], removals)

def removeMembership (s : AnalysisState) (membership : ObjectId × ObjectId) : AnalysisState :=
  let s := (s.snapshotRole membership.1).modifyRole membership.1 fun role => { role with
    memberOf := role.memberOf.filter (· ≠ membership.2),
    canAdministerMembership := role.canAdministerMembership.filter (· ≠ membership.2),
    canInheritFrom := role.canInheritFrom.filter (· ≠ membership.2),
    canSetRoleTo := role.canSetRoleTo.filter (· ≠ membership.2) }
  s.setRoleMembershipGrantors (s.roleMembershipGrantors.filter fun r =>
    !(r.member == membership.1 && r.role == membership.2))

/-- The cascade over memberships, whoever else granted them. -/
def cascadeRoleMemberships (s : AnalysisState) (initialGrantors : List ObjectId) : AnalysisState :=
  let removals := (Worklist.drain s.membershipsGrantedBy
    (Worklist.fuelFor (s.roleMembershipGrantors.map (·.grantor))
      (fun grantor => (s.roleMembershipGrantors.filter (·.grantor == grantor)).length) []
      initialGrantors.reverse) [] initialGrantors.reverse []).2
  if removals.isEmpty then s
  else removals.foldl removeMembership s.snapshotRoleMembershipGrantors

end AnalysisState

end Cascade

/-- What a revoke withdraws: an option of the membership, or all of it. -/
inductive RevokedPart
  | adminOption
  | inheritOption
  | setOption
  | membership
deriving DecidableEq

namespace RevokeRoles

variable (revoke : RevokeRoles)

def parents : List ObjectId := revoke.roles.map roleId

/-- Only the options a revoke can be written for are modelled. -/
def revokedPart : Statement RevokedPart :=
  match revoke.roleOption with
  | none => pure .membership
  | some (.admin false) => pure .adminOption
  | some (.inherit false) => pure .inheritOption
  | some (.set false) => pure .setOption
  | some _ => leaveUnresolved .unmodeledState

/-- Whether the statement is written for an option of PostgreSQL 16. -/
def writesMembershipOption : Bool :=
  match revoke.roleOption with
  | some (.inherit _) => true
  | some (.set _) => true
  | _ => false

section Records

/-- A record without ADMIN is left alone by a revoke of that option. Members that
lose their last ADMIN record are handed on to the cascade. -/
def revokeRecord (part : RevokedPart) (grantor : ObjectId)
    (progress : AnalysisState × List ObjectId) (pair : ObjectId × ObjectId) :
    AnalysisState × List ObjectId :=
  let s := progress.1
  let isRecord := isFor pair.1 pair.2 grantor
  let rewrite (f : RoleMembershipGrantor → RoleMembershipGrantor) : AnalysisState :=
    ((s.setRoleMembershipGrantors (updateFirst isRecord f s.roleMembershipGrantors)).snapshotRole
      pair.1).reconcileMembershipProjection pair.1
  match s.roleMembershipGrantors.find? isRecord with
  | none => progress
  | some record =>
    let stillAdmin := holdsAdmin (s.roleMembershipGrantors.eraseP isRecord) pair.1 pair.2
    match part with
    | .adminOption =>
      if record.admin then
        (rewrite fun r => { r with admin := false },
          if revoke.cascade && !stillAdmin then progress.2 ++ [pair.1] else progress.2)
      else progress
    | .inheritOption => (rewrite fun r => { r with inherit := false }, progress.2)
    | .setOption => (rewrite fun r => { r with set := false }, progress.2)
    | .membership =>
      (((s.setRoleMembershipGrantors (s.roleMembershipGrantors.eraseP isRecord)).snapshotRole
          pair.1).reconcileMembershipProjection pair.1,
        if record.admin && !stillAdmin then progress.2 ++ [pair.1] else progress.2)

def writeRecords (part : RevokedPart) (grantor : ObjectId) (revokees : List ObjectId)
    (s : AnalysisState) : AnalysisState :=
  let pairs := membershipPairs revokees revoke.parents
  let s := if pairs.any fun pair => s.roleMembershipGrantors.any (isFor pair.1 pair.2 grantor) then
    s.snapshotRoleMembershipGrantors else s
  let (s, cascadeMembers) := pairs.foldl (revoke.revokeRecord part grantor) (s, [])
  if revoke.cascade && !cascadeMembers.isEmpty then s.cascadeMembershipsGrantedBy cascadeMembers
  else s

end Records

section Legacy

/-- The member's own lists without the part of the membership. -/
def withoutPart (part : RevokedPart) (role : RoleState) (parent : ObjectId) : RoleState :=
  match part with
  | .adminOption => { role with
      canAdministerMembership := role.canAdministerMembership.filter (· ≠ parent) }
  | .inheritOption => { role with canInheritFrom := role.canInheritFrom.filter (· ≠ parent) }
  | .setOption => { role with canSetRoleTo := role.canSetRoleTo.filter (· ≠ parent) }
  | .membership => { role with
      canAdministerMembership := role.canAdministerMembership.filter (· ≠ parent),
      canInheritFrom := role.canInheritFrom.filter (· ≠ parent),
      canSetRoleTo := role.canSetRoleTo.filter (· ≠ parent),
      memberOf := role.memberOf.filter (· ≠ parent) }

def revokeLegacyMember (part : RevokedPart) (progress : AnalysisState × List ObjectId)
    (member : ObjectId) : AnalysisState × List ObjectId :=
  let s := progress.1.snapshotRole member
  if s.roleLookup member = .present then
    let withdraws := decide (part = .membership ∨ part = .adminOption)
    let s := s.modifyRole member fun role => revoke.parents.foldl (withoutPart part) role
    let s := if part = .membership then
      s.setRoleMembershipGrantors (s.roleMembershipGrantors.filter fun r =>
        !(r.member == member && decide (r.role ∈ revoke.parents)))
    else s
    (s, if revoke.cascade && withdraws then progress.2 ++ revoke.parents.map fun _ => member
      else progress.2)
  else (s, progress.2)

def writeLegacy (part : RevokedPart) (revokees : List ObjectId) (s : AnalysisState) :
    AnalysisState :=
  let withdraws := decide (part = .membership ∨ part = .adminOption)
  let cascadeGrantors := if revoke.cascade && withdraws then revokees else []
  let touchesRecords := s.roleMembershipGrantors.any fun r =>
    decide (r.member ∈ revokees) && decide (r.role ∈ revoke.parents)
  let s := if !revokees.isEmpty && (revoke.cascade || part = .membership) && touchesRecords then
    s.snapshotRoleMembershipGrantors else s
  let (s, cascadeGrantors) := revokees.foldl (revoke.revokeLegacyMember part) (s, cascadeGrantors)
  if revoke.cascade && !cascadeGrantors.isEmpty then s.cascadeRoleMemberships cascadeGrantors else s

end Legacy

/-- Records are revoked one by one where they are complete and the grantor is
known, and memberships as a whole elsewhere. -/
def write (part : RevokedPart) (revokees : List ObjectId) (s : AnalysisState) : AnalysisState :=
  match s.roleMembershipGrantor revoke.grantedBy with
  | some grantor =>
    if s.roleMembershipGrantorsComplete then revoke.writeRecords part grantor revokees s
    else revoke.writeLegacy part revokees s
  | none => revoke.writeLegacy part revokees s

def command : Statement MutationResult := do
  revoke.parents.forM checkRoleTarget
  let revokees ← checkRoleFacts revoke.revokees
  checkGrantedBy revoke.grantedBy
  taintIf (revoke.grantOptionOnly = true) .catalogCoverageIncomplete .chain
  checkMembershipOptions (revoke.writesMembershipOption = true)
  taintIf (revoke.cascade = true ∧ (← get).roleMembershipGrantorsComplete = false)
    .catalogCoverageIncomplete .chain
  checkMembershipAuthority revoke.grantedBy revoke.parents "revoked"
  let part ← revoke.revokedPart
  taintIf (part = .adminOption ∧ revoke.cascade = true ∧
    (← get).roleMembershipGrantorsComplete = false) .catalogCoverageIncomplete .chain
  leaveUnresolvedIf (revokees.any (·.name = "public") = true) .unmodeledState
  modify fun s => revoke.write part revokees s
  pure .applied

end RevokeRoles

namespace CreateRole

variable (create : CreateRole)

def write (s : AnalysisState) : AnalysisState :=
  let s := (s.snapshotRole (roleId create.name)).bumpGeneration
  s.setRoles (s.roles.insert (roleId create.name) (.present
    { id := roleId create.name, canLogin := create.canLogin, isSuperuser := false,
      inherits := create.inherits, memberOf := [], canAdministerMembership := [],
      canInheritFrom := [], canSetRoleTo := [] }))

def command : Statement MutationResult := do
  let s ← get
  refuseIf (s.roleLookup (roleId create.name) = .present)
    ("role '" ++ create.name ++ "' already exists")
  taintIf (s.roleLookup (roleId create.name) = .unknown) .unknownObjectState .chain
  modify create.write
  pure .applied

end CreateRole

namespace DropRole

variable (drop : DropRole)

def scanTarget (present : List ObjectId) (name : String) : Statement (List ObjectId) := do
  match (← get).roleLookup (roleId name) with
  | .present => pure (present ++ [roleId name])
  | .unknown => leaveUnresolved .unknownObjectState
  | _ => if drop.ifExists then pure present else refuse (roleMissing name)

/-- A complete catalog of roles does not tell what else a role owns, so a drop
of a present role is left unresolved there. -/
def command : Statement MutationResult := do
  let present ← drop.names.foldlM drop.scanTarget []
  leaveUnresolvedIf ((← get).rolesKnown = true ∧ present ≠ []) .unmodeledState
  modify fun s => present.foldl (fun s id =>
    let s := s.snapshotRole id
    s.setRoles (s.roles.insert id .dropped)) s
  pure .applied

end DropRole

inductive RoleStatement
  | create (fact : CreateRole)
  | drop (fact : DropRole)
  | grant (fact : GrantRoles)
  | revoke (fact : RevokeRoles)

def AnalysisState.applyRoleStatement (s : AnalysisState) :
    RoleStatement → MutationResult × AnalysisState
  | .create fact => fact.command.outcome s
  | .drop fact => fact.command.outcome s
  | .grant fact => fact.command.outcome s
  | .revoke fact => fact.command.outcome s

end SafeMigrate
