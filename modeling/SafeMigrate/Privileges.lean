import Mathlib.Data.Finset.Card
import SafeMigrate.MapEdits
import SafeMigrate.Model
import SafeMigrate.Worklist

/-! The privilege matrix of a relation: effective privileges, grant options, and
who granted each, under `GRANT` and `REVOKE`. -/

namespace SafeMigrate

open MapEdits

/-- The order in which hash sets of privileges are iterated. -/
structure PrivilegeOrder where
  list : Finset Privilege → List Privilege
  nodup (privileges : Finset Privilege) : (list privileges).Nodup
  mem_list (privileges : Finset Privilege) (privilege : Privilege) :
    privilege ∈ list privileges ↔ privilege ∈ privileges

def Privilege.every : List Privilege :=
  [.select, .insert, .update, .delete, .truncate, .references, .trigger, .all, .maintain]

def PrivilegeOrder.declared : PrivilegeOrder where
  list privileges := Privilege.every.filter (· ∈ privileges)
  nodup privileges := List.Nodup.filter _ (by decide)
  mem_list privileges privilege := by
    have hevery : privilege ∈ Privilege.every := by cases privilege <;> decide
    simp [hevery]

abbrev PrivilegeSets := KeyedMap ObjectId (Finset Privilege)

abbrev GrantSources := KeyedMap (ObjectId × Privilege) (Finset ObjectId)

namespace PrivilegeSets

/-- `entry(role).or_default().extend(privileges)`. -/
def extend (sets : PrivilegeSets) (role : ObjectId) (privileges : Finset Privilege) :
    PrivilegeSets :=
  sets.insert role ((sets.lookup role).getD ∅ ∪ privileges)

/-- A set cleared, or without some privileges. -/
def withdraw (sets : PrivilegeSets) (role : ObjectId) (privileges : Finset Privilege) :
    PrivilegeSets :=
  editAt role (fun owned => some (if .all ∈ privileges then ∅ else owned \ privileges)) sets

def remove (sets : PrivilegeSets) (role : ObjectId) (privilege : Privilege) : PrivilegeSets :=
  editAt role (fun owned => some (owned.erase privilege)) sets

end PrivilegeSets

namespace GrantSources

/-- `entry(key).or_default().insert(grantor)`. -/
def record (sources : GrantSources) (key : ObjectId × Privilege) (grantor : ObjectId) :
    GrantSources :=
  sources.insert key (insert grantor ((sources.lookup key).getD ∅))

/-- The sources of one grant without one grantor, if any are left. -/
def without (grantor : ObjectId) (sources : Finset ObjectId) : Option (Finset ObjectId) :=
  if sources.erase grantor = ∅ then none else some (sources.erase grantor)

def withdraw (sources : GrantSources) (key : ObjectId × Privilege) (grantor : ObjectId) :
    GrantSources :=
  editAt key (without grantor) sources

end GrantSources

namespace PrivilegeMatrix

variable (order : PrivilegeOrder) (m : PrivilegeMatrix)

def grant (role : ObjectId) (privileges : Finset Privilege) : PrivilegeMatrix :=
  { m with grants := PrivilegeSets.extend m.grants role privileges }

def grantWithOption (role : ObjectId) (privileges : Finset Privilege) : PrivilegeMatrix :=
  let m := m.grant role privileges
  { m with grantOptions := PrivilegeSets.extend m.grantOptions role privileges }

def recordGrantor (role grantor : ObjectId) (withGrantOption : Bool) (m : PrivilegeMatrix)
    (privilege : Privilege) : PrivilegeMatrix :=
  let m := { m with grantors := GrantSources.record m.grantors (role, privilege) grantor }
  if withGrantOption then
    { m with
      grantOptionGrantors := GrantSources.record m.grantOptionGrantors (role, privilege) grantor }
  else m

def grantFrom (role : ObjectId) (privileges : Finset Privilege) (grantor : Option ObjectId)
    (withGrantOption : Bool) : PrivilegeMatrix :=
  let m := if withGrantOption then m.grantWithOption role privileges else m.grant role privileges
  match grantor with
  | some grantor => (order.list privileges).foldl (recordGrantor role grantor withGrantOption) m
  | none => m

def hasGrantOption (role : ObjectId) (privilege : Privilege) : Bool :=
  (m.grantOptions.lookup role).any fun options =>
    decide (privilege ∈ options) || (decide (privilege ≠ .all) && decide (.all ∈ options))

/-- The provenance entries that a revoke from `role` reaches. -/
def isNamed (role : ObjectId) (privileges : Finset Privilege) (key : ObjectId × Privilege) : Bool :=
  decide (key.1 = role) && (decide (.all ∈ privileges) || decide (key.2 ∈ privileges))

def revokeGrantOption (role : ObjectId) (privileges : Finset Privilege) : PrivilegeMatrix :=
  { m with
    grantOptions := PrivilegeSets.withdraw m.grantOptions role privileges
    grantOptionGrantors := discard (isNamed role privileges) m.grantOptionGrantors }

def removeGrantProvenance (role : ObjectId) (privileges : Finset Privilege)
    (grantor : Option ObjectId) : PrivilegeMatrix :=
  let remaining : Finset ObjectId → Option (Finset ObjectId) := match grantor with
    | some grantor => GrantSources.without grantor
    | none => fun _ => none
  { m with
    grantors := edit (isNamed role privileges) remaining m.grantors
    grantOptionGrantors := edit (isNamed role privileges) remaining m.grantOptionGrantors }

def revoke (role : ObjectId) (privileges : Finset Privilege) : PrivilegeMatrix :=
  let m := { m with grants := PrivilegeSets.withdraw m.grants role privileges }
  let m := m.revokeGrantOption role privileges
  m.removeGrantProvenance role privileges none

def expandPrivileges (role : ObjectId) (privileges : Finset Privilege) : Finset Privilege :=
  if .all ∈ privileges then ((m.grants.lookup role).getD ∅).erase .all else privileges

/-- Whether the grantor was the last known source; a grant of unknown sources
has no other. -/
def isLastSource (sources : GrantSources) (key : ObjectId × Privilege) (grantor : ObjectId) : Bool :=
  ((sources.lookup key).bind (GrantSources.without grantor)).isNone

/-- One privilege, revoked as granted by one grantor. -/
def revokeSource (role grantor : ObjectId) (m : PrivilegeMatrix) (privilege : Privilege) :
    PrivilegeMatrix :=
  let key := (role, privilege)
  let removeEffective := isLastSource m.grantors key grantor
  let m := { m with grantors := GrantSources.withdraw m.grantors key grantor }
  let exhausted := (m.grantOptionGrantors.lookup key).isSome &&
    isLastSource m.grantOptionGrantors key grantor
  let m := { m with
    grantOptionGrantors := GrantSources.withdraw m.grantOptionGrantors key grantor
    grantOptions := if exhausted then PrivilegeSets.remove m.grantOptions role privilege
      else m.grantOptions }
  if removeEffective then
    { m with
      grants := PrivilegeSets.remove m.grants role privilege
      grantOptions := if (m.grantOptionGrantors.lookup key).isNone then
          PrivilegeSets.remove m.grantOptions role privilege
        else m.grantOptions }
  else m

def revokeFrom (role : ObjectId) (privileges : Finset Privilege) (grantor : Option ObjectId) :
    PrivilegeMatrix :=
  match grantor with
  | none => m.revoke role privileges
  | some grantor =>
    (order.list (m.expandPrivileges role privileges)).foldl (revokeSource role grantor) m

/-- The grantees of one grantor, in the iteration order of the provenance. -/
def granteesOf (grantor : ObjectId) (privilege : Privilege) : List ObjectId :=
  m.grantors.entries.filterMap fun entry =>
    if entry.1.2 = privilege ∧ grantor ∈ entry.2 then some entry.1.1 else none

/-- Who may have lost the last grant option, and the grants to take from it. -/
def cascadeStep (m : PrivilegeMatrix) (lost : ObjectId × Privilege) :
    List (ObjectId × Privilege) × PrivilegeMatrix :=
  if m.hasGrantOption lost.1 lost.2 then ([], m)
  else
    let downstream := m.granteesOf lost.1 lost.2
    (downstream.map fun grantee => (grantee, lost.2),
      downstream.foldl (fun m grantee => m.revokeFrom order grantee {lost.2} (some lost.1)) m)

def sourceCount : Nat := m.grantors.entries.foldr (fun entry n => entry.2.card + n) 0

def revokeFromCascade (role : ObjectId) (privileges : Finset Privilege) (grantor : Option ObjectId)
    (cascade : Bool) : PrivilegeMatrix :=
  let expanded := m.expandPrivileges role privileges
  let m := m.revokeFrom order role expanded grantor
  if cascade then
    let pending := (order.list expanded).map fun privilege => (role, privilege)
    -- every source is taken away at most once
    (Worklist.drain (cascadeStep order) (pending.length + m.sourceCount) [] pending.reverse m).2
  else m

/-- One grant option, revoked as granted by one grantor. -/
def revokeOptionSource (role grantor : ObjectId) (m : PrivilegeMatrix) (privilege : Privilege) :
    PrivilegeMatrix :=
  let key := (role, privilege)
  if isLastSource m.grantOptionGrantors key grantor then
    { m with
      grantOptionGrantors := GrantSources.withdraw m.grantOptionGrantors key grantor
      grantOptions := PrivilegeSets.remove m.grantOptions role privilege }
  else
    { m with
      grantOptionGrantors := GrantSources.withdraw m.grantOptionGrantors key grantor }

def revokeGrantOptionFrom (role : ObjectId) (privileges : Finset Privilege)
    (grantor : Option ObjectId) : PrivilegeMatrix :=
  match grantor with
  | none => m.revokeGrantOption role privileges
  | some grantor =>
    let m := (order.list (m.expandPrivileges role privileges)).foldl
      (revokeOptionSource role grantor) m
    { m with
      grantOptionGrantors := discard (isNamed role privileges) m.grantOptionGrantors }

end PrivilegeMatrix

end SafeMigrate
