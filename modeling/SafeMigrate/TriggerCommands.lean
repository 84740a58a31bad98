import SafeMigrate.DropTable
import SafeMigrate.Partition
import SafeMigrate.RelationRename

/-! `CREATE TRIGGER`, `DROP TRIGGER` and `ALTER TRIGGER … RENAME TO`: the checks
on the table and the function, and the writes to the one trigger named. -/

namespace SafeMigrate

structure CreateTrigger where
  name : String
  table : ObjectRef
  functionId : ObjectRef
  rowLevel : Bool

structure DropTrigger where
  name : String
  table : ObjectRef
  ifExists : Bool

structure RenameTrigger where
  name : String
  table : ObjectRef
  newName : String

namespace AnalysisState

def triggerLookup (s : AnalysisState) (id : ObjectId) : ObjectLookup :=
  match s.triggers.lookup id with
  | some (.present _) => .present
  | some .dropped => .tombstone
  | none =>
    if s.baselineCoversFamilyObject id .triggers then .authoritativelyAbsent else .unknown

/-- A present trigger under this identity. -/
def presentTrigger (s : AnalysisState) (id : ObjectId) : Option TriggerState :=
  match s.triggers.lookup id with
  | some (.present trigger) => some trigger
  | _ => none

end AnalysisState

/-- The relations that can have triggers. -/
def hasTriggers : RelationKind → Bool
  | .table | .view => true
  | _ => false

def ensureTriggerTable (table : ObjectRef) : Statement Unit :=
  ensureRelationTarget table hasTriggers
    ("trigger target relation '" ++ table.display ++ "' does not exist")
    ("trigger target '" ++ table.display ++ "' is not a table or view")

def ensureRoutineTarget (r : ObjectRef) (expected : RoutineKind)
    (missingReason wrongKindReason : String) : Statement Unit := do
  let s ← get
  if s.lookupShadowed r then leaveUnresolved .unknownObjectState
  else match s.functions.lookup r.id with
    | some (.present function) => refuseIf (function.routineKind ≠ expected) wrongKindReason
    | some .dropped => refuse missingReason
    | none =>
      if s.baselineCoversFamilyObject r.id .routines then refuse missingReason
      else leaveUnresolved .unknownObjectState

def noSuchTrigger (name : String) (table : ObjectRef) : String :=
  "trigger '" ++ name ++ "' does not exist on relation '" ++ table.display ++ "'"

def triggerExists (name : String) (table : ObjectRef) : String :=
  "trigger '" ++ name ++ "' already exists on relation '" ++ table.display ++ "'"

namespace CreateTrigger

variable (create : CreateTrigger)

def id : ObjectId := triggerKey create.table.id create.name

/-- The return type without the schema of the system catalog. -/
def bareReturnType (returnType : String) : String :=
  match (splitOnce '.' returnType).filter fun parts => eqIgnoreAsciiCase parts.1 "pg_catalog" with
  | some (_, typeName) => typeName
  | none => returnType

/-- An incomplete catalog may leave the return type out. -/
def checkFunction : Statement Unit := do
  ensureRoutineTarget create.functionId .function
    ("trigger function '" ++ create.functionId.display ++ "' does not exist")
    ("trigger target '" ++ create.functionId.display ++ "' is not a function")
  match (← get).functions.lookup create.functionId.id with
  | some (.present function) => do
    let returnType := trimText function.returnType
    leaveUnresolvedIf (returnType.isEmpty = true ∨ eqIgnoreAsciiCase returnType "unknown" = true)
      .catalogCoverageIncomplete
    refuseIf (eqIgnoreAsciiCase (bareReturnType returnType) "trigger" = false)
      ("trigger function '" ++ create.functionId.display ++ "' must return type trigger")
  | _ => leaveUnresolved .catalogCoverageIncomplete

def write (s : AnalysisState) : AnalysisState :=
  let s := s.bumpGeneration
  let generation := s.generationCounter
  let s := s.putTrigger
    { name := create.name, id := create.id, tableId := create.table.id,
      functionId := create.functionId.id, rowLevel := create.rowLevel, parentTriggerId := none,
      enabledMode := .origin, generation }
  let s := s.updateRelation create.table.id fun relation =>
    { relation with triggers := insert create.name relation.triggers }
  s.addGraphEdgeFull
    ⟨create.id, create.table.id, .triggerOnTable create.id create.functionId.id generation⟩

def command : Statement MutationResult := do
  refuseIf ((← get).triggerLookup create.id = .present) (triggerExists create.name create.table)
  ensureTriggerTable create.table
  create.checkFunction
  modify create.write
  pure .applied

end CreateTrigger

namespace DropTrigger

variable (drop : DropTrigger)

def id : ObjectId := triggerKey drop.table.id drop.name

def memberId : ObjectRef :=
  ⟨⟨drop.table.id.schema, drop.table.id.name ++ "." ++ drop.name⟩, false⟩

def write (s : AnalysisState) : AnalysisState :=
  let s := s.tombstoneTrigger drop.id
  let s := s.updateRelation drop.table.id fun relation =>
    { relation with triggers := relation.triggers.erase drop.name }
  s.retainGraphEdges fun e => !(e.kind.isTriggerOnTable && e.dependent == drop.id)

def command : Statement MutationResult := do
  ensureTriggerTable drop.table
  let s ← get
  match s.extensionMemberDropConflict .trigger drop.memberId "trigger" with
  | some result => throw result
  | none =>
    if s.triggerLookup drop.id ≠ .present then
      if drop.ifExists then throw .noOp else refuse (noSuchTrigger drop.name drop.table)
    modify drop.write
    pure .applied

end DropTrigger

namespace RenameTrigger

variable (rename : RenameTrigger)

def oldId : ObjectId := triggerKey rename.table.id rename.name

def newId : ObjectId := triggerKey rename.table.id rename.newName

/-- The trigger as the statement finds it. -/
def checkTarget : Statement TriggerState := do
  let s ← get
  match s.triggerLookup rename.oldId with
  | .present => match s.presentTrigger rename.oldId with
    | some trigger => pure trigger
    | none => leaveUnresolved .unknownObjectState
  | .tombstone | .authoritativelyAbsent => refuse (noSuchTrigger rename.name rename.table)
  | _ => leaveUnresolved .unknownObjectState

def listNewName (relation : RelationState) : RelationState :=
  { relation with triggers := insert rename.newName (relation.triggers.erase rename.name) }

def write (trigger : TriggerState) (s : AnalysisState) : AnalysisState :=
  let s := (s.snapshotTrigger rename.oldId).snapshotTrigger rename.newId
  let s := (s.snapshotRelation rename.table.id).snapshotGraphFull
  let s := s.setTriggers ((s.triggers.erase rename.oldId).insert rename.newId
    (.present { trigger with id := rename.newId, name := rename.newName }))
  let s := s.modifyRelation rename.table.id rename.listNewName
  let s := s.setGraph (s.graph.propagateTriggerRename rename.oldId rename.newId)
  s.setGraph (s.graph.addEdge ⟨rename.oldId, rename.newId, .renameTo⟩)

def command : Statement MutationResult := do
  ensureTriggerTable rename.table
  let trigger ← rename.checkTarget
  refuseIf (rename.oldId ≠ rename.newId ∧ (← get).triggerLookup rename.newId = .present)
    (triggerExists rename.newName rename.table)
  modify (rename.write trigger)
  pure .applied

end RenameTrigger

end SafeMigrate
