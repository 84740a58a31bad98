import SafeMigrate.NestedSnapshots
import SafeMigrate.Roles

/-! The statements that change the settings of a session: its search path, its
two timeouts and its roles. A change that is not local also writes the value
that a commit leaves. -/

namespace SafeMigrate

inductive SearchPathTarget
  | default
  | schemas (schemas : List String)

structure SearchPathChange where
  target : SearchPathTarget
  isLocal : Bool

inductive TimeoutSetting
  | lock
  | statement
deriving DecidableEq

inductive TimeoutSettingValue
  | default
  | milliseconds (milliseconds : Nat)
  | current
  | invalid (reason : String)

structure TimeoutSettingChange where
  setting : TimeoutSetting
  value : TimeoutSettingValue
  isLocal : Bool

inductive ResetSettingTarget
  | all
  | searchPath
  | lockTimeout
  | statementTimeout
deriving DecidableEq

namespace ScopedSetting

variable {α : Type} (setting : ScopedSetting α)

def assign (isLocal : Bool) (next : α) : ScopedSetting α :=
  { setting with effective := next, session := if isLocal then setting.session else next }

def reset : ScopedSetting α :=
  { setting with session := setting.default, effective := setting.default }

end ScopedSetting

namespace AnalysisState

def setSearchPathTemplate (s : AnalysisState) (isLocal : Bool) (template : List String) :
    AnalysisState :=
  { s with
    searchPathTemplate := template,
    sessionSearchPathTemplate := if isLocal then s.sessionSearchPathTemplate else template }

def applySearchPath (s : AnalysisState) (change : SearchPathChange) :
    MutationResult × AnalysisState :=
  if change.isLocal && s.transactions.isEmpty then (.noOp, s)
  else
    let s := s.snapshotSearchPath.snapshotConfidence
    let template :=
      match change.target with
      | .default => s.defaultSearchPathTemplate
      | .schemas schemas => schemas
    (.applied, (s.setSearchPathTemplate change.isLocal template).refreshRoleSensitiveSearchPath)

def timeout (s : AnalysisState) : TimeoutSetting → ScopedSetting (Option Nat)
  | .lock => s.lockTimeout
  | .statement => s.statementTimeout

def setTimeout (s : AnalysisState) (value : ScopedSetting (Option Nat)) :
    TimeoutSetting → AnalysisState
  | .lock => { s with lockTimeout := value }
  | .statement => { s with statementTimeout := value }

/-- The value a statement asks for, or the reason it is refused. -/
def nextTimeout (setting : ScopedSetting (Option Nat)) :
    TimeoutSettingValue → Except String (Option Nat)
  | .default => .ok setting.default
  | .milliseconds milliseconds => .ok (some milliseconds)
  | .current => .ok setting.effective
  | .invalid reason => .error reason

def applyTimeoutSetting (s : AnalysisState) (change : TimeoutSettingChange) :
    MutationResult × AnalysisState :=
  if change.isLocal && s.transactions.isEmpty then (.noOp, s)
  else match nextTimeout (s.timeout change.setting) change.value with
    | .error reason => (.rejected reason, s)
    | .ok next =>
      let s := s.snapshotTimeoutSettings
      (.applied,
        s.setTimeout ((s.timeout change.setting).assign change.isLocal next) change.setting)

def resetSearchPath (s : AnalysisState) : AnalysisState :=
  let s := s.snapshotSearchPath.snapshotConfidence
  (s.setSearchPathTemplate false s.defaultSearchPathTemplate).refreshRoleSensitiveSearchPath

def resetTimeout (s : AnalysisState) (setting : TimeoutSetting) : AnalysisState :=
  s.setTimeout (s.timeout setting).reset setting

/-- One snapshot of both timeouts stands for the ones that are reset. -/
def resetTimeouts (s : AnalysisState) (target : ResetSettingTarget) : AnalysisState :=
  let s := s.snapshotTimeoutSettings
  let s := if target = .all ∨ target = .lockTimeout then s.resetTimeout .lock else s
  if target = .all ∨ target = .statementTimeout then s.resetTimeout .statement else s

def applyResetSettings (s : AnalysisState) (target : ResetSettingTarget) :
    MutationResult × AnalysisState :=
  let s := if target = .all ∨ target = .searchPath then s.resetSearchPath else s
  let s :=
    if target = .all ∨ target = .lockTimeout ∨ target = .statementTimeout then
      s.resetTimeouts target
    else s
  (.applied, s)

section Authorization

variable (s : AnalysisState)

/-- The roles that a role may switch to by one membership. -/
def settableRoles (name : String) : List ObjectId :=
  ((s.presentRole name).map (·.canSetRoleTo)).getD []

/-- The loop of `can_set_role_to`. -/
def canSetRoleLoop (target : String) : Nat → List ObjectId → List ObjectId → Bool
  | 0, _, _ => false
  | _ + 1, _, [] => false
  | fuel + 1, visited, id :: pending =>
    if id ∈ visited then canSetRoleLoop target fuel visited pending
    else if id.name = target then true
    else canSetRoleLoop target fuel (id :: visited) ((s.settableRoles id.name).reverse ++ pending)

/-- Every role that the search for a settable role can come across. -/
def settableDomain : List ObjectId :=
  s.roles.entries.flatMap fun entry =>
    match entry.2 with
    | .present role => role.canSetRoleTo
    | .dropped => []

def canSetRoleTo (target : String) : Option Bool :=
  if s.rolesKnown = false ∨ s.sessionRoleKnown = false then none
  else if (s.presentRole target).isNone then some false
  else if s.sessionRole = target then some true
  else do
    let session ← s.presentRole s.sessionRole
    if session.isSuperuser then some true
    else
      let pending := session.canSetRoleTo.reverse
      some (s.canSetRoleLoop target (Worklist.fuelFor s.settableDomain
        (fun id => (s.settableRoles id.name).length) [] pending) [] pending)

def canSetSessionAuthorizationTo (target : String) : Option Bool :=
  if s.rolesKnown = false ∨ s.authenticatedRoleKnown = false then none
  else if (s.presentRole target).isNone then some false
  else if s.authenticatedRole = target then some true
  else some ((s.presentRole s.authenticatedRole).any (·.isSuperuser))

end Authorization

/-- The role a statement names, and whether it is known. Without one it is the
role of the session, or the authenticated role of the session itself. -/
def switchTarget (s : AnalysisState) (role : Option RoleFact) (isSessionAuth : Bool) :
    Option (String × Bool) :=
  match role with
  | some role => s.roleFactIdentity role
  | none =>
    if isSessionAuth then some (s.authenticatedRole, s.authenticatedRoleKnown)
    else some (s.sessionRole, s.sessionRoleKnown)

def switchAuthorized (s : AnalysisState) (role : Option RoleFact) (isSessionAuth : Bool)
    (target : String) : Option Bool :=
  if role.isNone then some true
  else if isSessionAuth then s.canSetSessionAuthorizationTo target
  else s.canSetRoleTo target

/-- What `SET ROLE NONE` leaves for after the transaction. -/
def persistentRoleResetTarget (s : AnalysisState) (role : Option RoleFact) (isSessionAuth : Bool) :
    Option (String × Bool) :=
  if role.isNone && !isSessionAuth then
    some (s.persistentSessionRole, s.persistentSessionRoleKnown)
  else none

def setSessionRole (s : AnalysisState) (isLocal : Bool) (target : String × Bool) :
    AnalysisState :=
  let s := { s with
    sessionRole := target.1, sessionRoleKnown := target.2,
    currentRole := target.1, currentRoleKnown := target.2 }
  if isLocal then s
  else { s with
    persistentSessionRole := target.1, persistentSessionRoleKnown := target.2,
    persistentCurrentRole := target.1, persistentCurrentRoleKnown := target.2 }

def setCurrentRole (s : AnalysisState) (isLocal : Bool) (target persistent : String × Bool) :
    AnalysisState :=
  let s := { s with currentRole := target.1, currentRoleKnown := target.2 }
  if isLocal then s
  else { s with
    persistentCurrentRole := persistent.1, persistentCurrentRoleKnown := persistent.2 }

def switchRefusal (s : AnalysisState) (target : String) : String :=
  if (s.presentRole target).isNone then "role '" ++ target ++ "' does not exist"
  else "permission denied to set role '" ++ target ++ "'"

def applySwitchRole (s : AnalysisState) (role : Option RoleFact) (isLocal isSessionAuth : Bool) :
    MutationResult × AnalysisState :=
  if isLocal && s.transactions.isEmpty then (.noOp, s)
  else match s.switchTarget role isSessionAuth with
    | none => s.unresolved .unresolvedReference
    | some target =>
      let persistent := (s.persistentRoleResetTarget role isSessionAuth).getD target
      let authorized := s.switchAuthorized role isSessionAuth target.1
      if authorized = some false then (.rejected (s.switchRefusal target.1), s)
      else
        let s := if authorized = none then s.taint .catalogCoverageIncomplete .chain else s
        let s := s.snapshotRoleContext.snapshotSearchPath.snapshotConfidence
        let s :=
          if isSessionAuth then s.setSessionRole isLocal target
          else s.setCurrentRole isLocal target persistent
        (.applied, s.refreshRoleSensitiveSearchPath)

end AnalysisState

/-- The statements that write a setting. -/
inductive SettingChange
  | searchPath (change : SearchPathChange)
  | timeout (change : TimeoutSettingChange)
  | reset (target : ResetSettingTarget)
  | switchRole (role : Option RoleFact) (isLocal isSessionAuth : Bool)

inductive SettingStatement
  | change (change : SettingChange)
  | control (control : TransactionControl)

namespace AnalysisState

/-- `apply_inner` on a statement that writes a setting. -/
def applySettingChange (s : AnalysisState) : SettingChange → MutationResult × AnalysisState
  | .searchPath change => s.applySearchPath change
  | .timeout change => s.applyTimeoutSetting change
  | .reset target => s.applyResetSettings target
  | .switchRole role isLocal isSessionAuth => s.applySwitchRole role isLocal isSessionAuth

/-- `apply` on a statement that writes a setting or ends its scope. -/
def applySettingStatement (inferred : ObjectId → Bool) (s : AnalysisState) :
    SettingStatement → MutationResult × AnalysisState
  | .control control => s.applyTransactionControl inferred control
  | .change change =>
    if s.transactionAborted then (.notExecuted, s)
    else match s.applySettingChange change with
      | (.conflict kind, s) =>
        (.conflict kind, if s.transactions.isEmpty then s else s.setTransactionAborted true)
      | result => result

end AnalysisState

end SafeMigrate
