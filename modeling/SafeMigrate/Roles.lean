import SafeMigrate.Columns
import SafeMigrate.Statement
import SafeMigrate.Worklist

/-! Roles as statements name them, the identity that each name stands for, and
the records of who granted which membership. -/

namespace SafeMigrate

inductive RoleFact
  | named (name : String) (viaLegacyGroupSyntax : Bool)
  | currentUser
  | currentRole
  | sessionUser
  | unknown
deriving DecidableEq

def roleId (name : String) : ObjectId := ⟨"", name⟩

namespace AnalysisState

/-- The name a role fact stands for, and whether it is known to. -/
def roleFactIdentity (s : AnalysisState) : RoleFact → Option (String × Bool)
  | .named name _ => some (name, true)
  | .currentUser | .currentRole => some (s.currentRole, s.currentRoleKnown)
  | .sessionUser => some (s.sessionRole, s.sessionRoleKnown)
  | .unknown => none

/-- A present role under this identity. -/
def roleAt (s : AnalysisState) (id : ObjectId) : Option RoleState :=
  match s.roles.lookup id with
  | some (.present role) => some role
  | _ => none

def presentRole (s : AnalysisState) (name : String) : Option RoleState := s.roleAt (roleId name)

def roleLookup (s : AnalysisState) (id : ObjectId) : ObjectLookup :=
  match s.roles.lookup id with
  | some (.present _) => .present
  | some .dropped => .tombstone
  | none => if s.rolesKnown then .authoritativelyAbsent else .unknown

def setRoles (s : AnalysisState) (m : KeyedMap ObjectId RoleOverlay) : AnalysisState :=
  { s with roles := m }

def setRoleMembershipGrantors (s : AnalysisState) (records : List RoleMembershipGrantor) :
    AnalysisState := { s with roleMembershipGrantors := records }

def forgetRoleMembershipGrantors (s : AnalysisState) : AnalysisState :=
  { s with roleMembershipGrantorsComplete := false }

def modifyRole (s : AnalysisState) (id : ObjectId) (f : RoleState → RoleState) : AnalysisState :=
  match s.roleAt id with
  | some role => s.setRoles (s.roles.insert id (.present (f role)))
  | none => s

section Administration

/-- The roles whose privileges a role inherits. Before PostgreSQL 16 the role's
own attribute decides, and from then on the option of the membership. -/
def inheritedRoles (version : Nat) (role : RoleState) : List ObjectId :=
  if 160000 ≤ version ∨ role.inherits = true then role.canInheritFrom else []

/-- The loop of `has_admin_privileges_on_role`. -/
def hasAdminLoop (s : AnalysisState) (member target : ObjectId) :
    Nat → List ObjectId → List ObjectId → Option Bool
  | 0, _, _ => some false
  | _ + 1, _, [] => some false
  | fuel + 1, visited, candidate :: pending =>
    if candidate ∈ visited then hasAdminLoop s member target fuel visited pending
    else do
      let role ← s.presentRole candidate.name
      if (candidate = member ∧ role.isSuperuser = true) ∨ target ∈ role.canAdministerMembership then
        some true
      else
        let version ← s.pgVersion
        hasAdminLoop s member target fuel (candidate :: visited)
          ((inheritedRoles version role).reverse ++ pending)

/-- Every role that a search over inherited privileges can come across. -/
def inheritanceDomain (s : AnalysisState) (member : ObjectId) : List ObjectId :=
  member :: s.roles.entries.flatMap fun entry =>
    match entry.2 with
    | .present role => role.canInheritFrom
    | .dropped => []

def hasAdminPrivilegesOnRole (s : AnalysisState) (member target : ObjectId) : Option Bool :=
  if s.rolesKnown then
    s.hasAdminLoop member target (Worklist.fuelFor (s.inheritanceDomain member)
      (fun id => ((s.presentRole id.name).map (·.canInheritFrom.length)).getD 0) [] [member])
      [] [member]
  else none

/-- The role that a membership is recorded under. From PostgreSQL 16 on a
superuser grants in the name of the bootstrap superuser. -/
def roleMembershipGrantor (s : AnalysisState) (grantedBy : Option RoleFact) : Option ObjectId :=
  let explicit := grantedBy.bind fun fact => (s.roleFactIdentity fact).map fun role => roleId role.1
  explicit <|>
    if s.currentRoleKnown = false then none
    else if (s.presentRole s.currentRole).any (·.isSuperuser) then
      match s.pgVersion with
      | some version =>
        if 160000 ≤ version then s.bootstrapSuperuser.map roleId else some (roleId s.currentRole)
      | none => none
    else some (roleId s.currentRole)

end Administration

end AnalysisState

namespace RoleMembershipGrantor

/-- A record is identified by its member, its role and its grantor. -/
def isFor (member role grantor : ObjectId) (r : RoleMembershipGrantor) : Bool :=
  r.member == member && r.role == role && r.grantor == grantor

/-- Whether a member holds the ADMIN option on a role through one of the records. -/
def holdsAdmin (records : List RoleMembershipGrantor) (member role : ObjectId) : Bool :=
  records.any fun r => r.member == member && r.role == role && r.admin

/-- The roles that the member's records name, each once. -/
def project (records : List RoleMembershipGrantor) (member : ObjectId)
    (keep : RoleMembershipGrantor → Bool) : List ObjectId :=
  retainUnseen [] ((records.filter fun r => r.member == member && keep r).map (·.role))

end RoleMembershipGrantor

namespace AnalysisState

open RoleMembershipGrantor

/-- Rebuilds what the records of a member say of it as a role. -/
def reconcileMembershipProjection (s : AnalysisState) (member : ObjectId) : AnalysisState :=
  if s.roleMembershipGrantorsComplete then
    s.modifyRole member fun role => { role with
      memberOf := project s.roleMembershipGrantors member fun _ => true,
      canAdministerMembership := project s.roleMembershipGrantors member (·.admin),
      canInheritFrom := project s.roleMembershipGrantors member (·.inherit),
      canSetRoleTo := project s.roleMembershipGrantors member (·.set) }
  else s

end AnalysisState

end SafeMigrate
