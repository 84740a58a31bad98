import SafeMigrate.DropFrames
import SafeMigrate.SessionSettings

/-! The settings of a session as a machine of two values each: the one in force
and the one that a commit leaves. Blocks and savepoints nest snapshots of both. -/

namespace SafeMigrate

open NestedUndo

/-- The values of the settings, each role with whether it is known. -/
structure SettingValues where
  lockTimeout : Option Nat
  statementTimeout : Option Nat
  searchPathTemplate : List String
  currentRole : String × Bool
  sessionRole : String × Bool
deriving DecidableEq

/-- `lockDefault` and `statementDefault` are what a reset gives back. No
statement writes them. -/
structure SettingLevels where
  lockDefault : Option Nat
  statementDefault : Option Nat
  current : SettingValues
  commit : SettingValues
deriving DecidableEq

namespace SettingLevels

/-- A local change writes the current values only. -/
def assign (levels : SettingLevels) (isLocal : Bool) (f : SettingValues → SettingValues) :
    SettingLevels :=
  { levels with
    current := f levels.current, commit := if isLocal then levels.commit else f levels.commit }

/-- The commit values become current. -/
def settle (levels : SettingLevels) : SettingLevels := { levels with current := levels.commit }

def timeoutDefault (levels : SettingLevels) : TimeoutSetting → Option Nat
  | .lock => levels.lockDefault
  | .statement => levels.statementDefault

end SettingLevels

namespace SettingValues

def timeout (v : SettingValues) : TimeoutSetting → Option Nat
  | .lock => v.lockTimeout
  | .statement => v.statementTimeout

def setTimeout (v : SettingValues) (value : Option Nat) : TimeoutSetting → SettingValues
  | .lock => { v with lockTimeout := value }
  | .statement => { v with statementTimeout := value }

def setCurrentRole (v : SettingValues) (role : String × Bool) : SettingValues :=
  { v with currentRole := role }

/-- A change of the session's authorization also writes the role. -/
def setSessionRole (v : SettingValues) (role : String × Bool) : SettingValues :=
  { v with sessionRole := role, currentRole := role }

/-- `SET ROLE NONE` at one level. -/
def clearRole (v : SettingValues) : SettingValues := { v with currentRole := v.sessionRole }

/-- The role that a statement names while these values are in force. -/
def roleNamed (v : SettingValues) : RoleFact → Option (String × Bool)
  | .named name _ => some (name, true)
  | .currentUser | .currentRole => some v.currentRole
  | .sessionUser => some v.sessionRole
  | .unknown => none

end SettingValues

/-- What the session started with. -/
structure SessionOrigin where
  searchPathTemplate : List String
  authenticatedRole : String × Bool

structure ReferenceSession where
  origin : SessionOrigin
  levels : Nested TransactionFrameKind SettingLevels
  aborted : Bool

namespace ReferenceSession

variable (r : ReferenceSession)

/-- What a change writes at one level. A value that the statement reads off the
session is the one in force. Without a value there is nothing to write. -/
def assignment : SettingChange → Option (SettingValues → SettingValues)
  | .searchPath { target := .default, .. } =>
    some fun v => { v with searchPathTemplate := r.origin.searchPathTemplate }
  | .searchPath { target := .schemas schemas, .. } =>
    some fun v => { v with searchPathTemplate := schemas }
  | .timeout { setting, value := .default, .. } =>
    some fun v => v.setTimeout (r.levels.current.timeoutDefault setting) setting
  | .timeout { setting, value := .milliseconds milliseconds, .. } =>
    some fun v => v.setTimeout (some milliseconds) setting
  | .timeout { setting, value := .current, .. } =>
    some fun v => v.setTimeout (r.levels.current.current.timeout setting) setting
  | .timeout { value := .invalid _, .. } => none
  | .reset .searchPath => some fun v => { v with searchPathTemplate := r.origin.searchPathTemplate }
  | .reset .lockTimeout => some fun v => { v with lockTimeout := r.levels.current.lockDefault }
  | .reset .statementTimeout =>
    some fun v => { v with statementTimeout := r.levels.current.statementDefault }
  | .reset .all =>
    some fun v => { v with
      searchPathTemplate := r.origin.searchPathTemplate,
      lockTimeout := r.levels.current.lockDefault,
      statementTimeout := r.levels.current.statementDefault }
  | .switchRole none _ false => some SettingValues.clearRole
  | .switchRole none _ true => some fun v => v.setSessionRole r.origin.authenticatedRole
  | .switchRole (some role) _ false =>
    (r.levels.current.current.roleNamed role).map fun role v => v.setCurrentRole role
  | .switchRole (some role) _ true =>
    (r.levels.current.current.roleNamed role).map fun role v => v.setSessionRole role

def isLocal : SettingChange → Bool
  | .searchPath change => change.isLocal
  | .timeout change => change.isLocal
  | .reset _ => false
  | .switchRole _ isLocal _ => isLocal

/-- An aborted transaction runs no change, and a local one needs a transaction. -/
def change (c : SettingChange) : ReferenceSession :=
  if r.aborted || (isLocal c && r.levels.saved.isEmpty) then r
  else match r.assignment c with
    | some f => { r with levels := r.levels.write (r.levels.current.assign (isLocal c) f) }
    | none => r

/-- A block that follows at once on the one that ended. -/
def chained (chain : Bool) : ReferenceSession :=
  if chain then { r with levels := r.levels.save .root } else r

def rollback : ReferenceSession := { r with levels := r.levels.rollback, aborted := false }

def commit : ReferenceSession :=
  if r.aborted then r.rollback
  else { r with levels := r.levels.discard.write r.levels.current.settle }

def control : TransactionControl → ReferenceSession
  | .begin =>
    if r.aborted || !r.levels.saved.isEmpty then r
    else { r with levels := r.levels.save .root }
  | .savepoint name =>
    if r.aborted then r else { r with levels := r.levels.save (.savepoint name) }
  | .releaseSavepoint name =>
    if r.aborted then r else { r with levels := r.levels.release (isNamedSavepoint name) }
  | .rollbackToSavepoint name =>
    { r with levels := r.levels.rollbackTo (isNamedSavepoint name), aborted := false }
  | .rollback chain => r.rollback.chained chain
  | .commit chain => r.commit.chained chain

def step : SettingStatement → ReferenceSession
  | .change c => r.change c
  | .control c => r.control c

def run (statements : List SettingStatement) : ReferenceSession := statements.foldl step r

/-- The values in force. -/
def values : SettingValues := r.levels.current.current

end ReferenceSession

/-- The two values of every setting, as the undo entries restore them. -/
def LoggedState.settingLevels (v : LoggedState) : SettingLevels where
  lockDefault := v.timeouts.1.default
  statementDefault := v.timeouts.2.default
  current :=
    { lockTimeout := v.timeouts.1.effective, statementTimeout := v.timeouts.2.effective,
      searchPathTemplate := v.searchPath.searchPathTemplate,
      currentRole := (v.roleContext.currentRole, v.roleContext.currentRoleKnown),
      sessionRole := (v.roleContext.sessionRole, v.roleContext.sessionRoleKnown) }
  commit :=
    { lockTimeout := v.timeouts.1.session, statementTimeout := v.timeouts.2.session,
      searchPathTemplate := v.searchPath.sessionSearchPathTemplate,
      currentRole :=
        (v.roleContext.persistentCurrentRole, v.roleContext.persistentCurrentRoleKnown),
      sessionRole :=
        (v.roleContext.persistentSessionRole, v.roleContext.persistentSessionRoleKnown) }

namespace AnalysisState

/-- The effective settings of the analyzer. -/
def settingValues (s : AnalysisState) : SettingValues :=
  { lockTimeout := s.lockTimeout.effective, statementTimeout := s.statementTimeout.effective,
    searchPathTemplate := s.searchPathTemplate,
    currentRole := (s.currentRole, s.currentRoleKnown),
    sessionRole := (s.sessionRole, s.sessionRoleKnown) }

def sessionOrigin (s : AnalysisState) : SessionOrigin :=
  { searchPathTemplate := s.defaultSearchPathTemplate,
    authenticatedRole := (s.authenticatedRole, s.authenticatedRoleKnown) }

/-- The reference session that a state stands for. An open frame stands for the
values that it would restore. -/
def referenceSession (s : AnalysisState) : ReferenceSession :=
  { origin := s.sessionOrigin, levels := s.nested.map LoggedState.settingLevels,
    aborted := s.transactionAborted }

end AnalysisState

end SafeMigrate
