import SafeMigrate.CreateTablePlan
import SafeMigrate.DropTable

/-! `ALTER TABLE … ATTACH PARTITION` and `DETACH PARTITION`: the checks, and
what either does to the partition, its descendants and its siblings. -/

namespace SafeMigrate

inductive DetachPartitionMode
  | immediate
  | concurrently
  | finalize
deriving DecidableEq

inductive PartitionAction
  | attachPartition (child : ObjectRef) (strategy bound : Option String)
  | detachPartition (child : ObjectRef) (mode : DetachPartitionMode)

structure AlterPartition where
  id : ObjectRef
  action : PartitionAction

/-- Readings of partition text that no other statement needs. -/
structure PartitionText extends SqlText where
  sameTypeIdentity : String → String → Option Bool
  foldListPartitionPredicate : String → RelationState → Option String
  selectedColumns : String → Option (List String)

/-- Whether PostgreSQL keeps a check on a partition detached concurrently, and
whether its text is known. -/
inductive RetainedCheckSynthesis
  | noCheck
  | definition (text : String)
  | cantResolve

namespace DependencyGraph

def partitionCycleLoop (g : DependencyGraph) (child : ObjectId) :
    Nat → ObjectId → List ObjectId → Bool
  | 0, _, _ => true
  | fuel + 1, current, visited =>
    if current ∈ visited then true
    else match g.edges.find? fun e =>
        e.kind.isPartition && g.resolveRename e.dependent == current with
      | some e =>
        if g.resolveRename e.referenced = child then true
        else partitionCycleLoop g child fuel (g.resolveRename e.referenced) (current :: visited)
      | none => false

/-- Whether the child is the parent or one of its partition ancestors. -/
def checkPartitionCycle (g : DependencyGraph) (parent child : ObjectId) : Bool :=
  decide (g.resolveRename parent = g.resolveRename child) ||
    g.partitionCycleLoop (g.resolveRename child) (g.edges.length + 2) (g.resolveRename parent) []

def isDescent (kind : DependencyKind) : Bool := kind.isInheritanceOf || kind.isPartitionOf

/-- The children of `parent` not visited yet, in the order of their edges. -/
def unvisitedChildren (g : DependencyGraph) (parent : ObjectId) (visited : List ObjectId) :
    List ObjectId :=
  retainUnseen visited ((g.edges.filter fun e =>
    e.referenced == parent && isDescent e.kind).map (·.dependent))

def descendantsLoop (g : DependencyGraph) :
    Nat → List ObjectId → List ObjectId → List ObjectId → List ObjectId
  | fuel + 1, parent :: pending, visited, descendants =>
    let children := g.unvisitedChildren parent visited
    descendantsLoop g fuel (children.reverse ++ pending) (children ++ visited)
      (descendants ++ children)
  | _, _, _, descendants => descendants

def inheritedDescendants (g : DependencyGraph) (root : ObjectId) : List ObjectId :=
  g.descendantsLoop (g.edges.length + 1) [root] [root] []

end DependencyGraph

/-- The first verdict that is not a plain yes. -/
def firstDoubt : List (Except String Bool) → Except String Bool
  | [] => .ok true
  | .ok true :: verdicts => firstDoubt verdicts
  | verdict :: _ => verdict

namespace AnalysisState

variable (text : PartitionText)

section Compatible

/-- Whether two declared types are the same, if that is known. -/
def sameColumnType (parent child : Column) : Option Bool :=
  match parent.typeId, child.typeId with
  | some parentType, some childType => some (decide (parentType = childType))
  | _, _ => match parent.dataType, child.dataType with
    | some parentType, some childType => text.sameTypeIdentity parentType childType
    | _, _ => none

def partitionColumnVerdict (childId : ObjectRef) (parent child : RelationState)
    (parentColumn : Column) : Except String Bool :=
  match child.columns.find? (·.name == parentColumn.name) with
  | none => .error ("partition '" ++ childId.display ++ "' does not have parent column '" ++
      parentColumn.name ++ "'")
  | some childColumn =>
    let column := childId.display ++ "." ++ childColumn.name
    match sameColumnType text parentColumn childColumn with
    | none => .ok false
    | some sameType =>
      if sameType = false ∨ parentColumn.typeModifier ≠ childColumn.typeModifier then
        .error ("partition column '" ++ column ++ "' does not have the same type as parent")
      else if parentColumn.isNullable = false ∧ childColumn.isNullable = true then
        .error ("partition column '" ++ column ++ "' must be NOT NULL like its parent")
      else if (parent.generatedColumns.lookup parentColumn.name).map (·.kind) ≠
          (child.generatedColumns.lookup childColumn.name).map (·.kind) then
        .error ("partition column '" ++ column ++ "' has incompatible generated-column state")
      else .ok true

def tableConstraints (s : AnalysisState) (table : ObjectId) : List ConstraintState :=
  (s.constraints.entries.map (·.2)).filter (·.tableId == table)

def partitionCheckVerdict (s : AnalysisState) (parentId childId : ObjectRef)
    (parentCheck : ConstraintState) : Except String Bool :=
  match (s.tableConstraints childId.id).find? fun c =>
      decide (c.kind = .check) && c.name == parentCheck.name with
  | none => .error ("partition '" ++ childId.display ++ "' is missing parent CHECK constraint '" ++
      parentCheck.name ++ "'")
  | some childCheck => match parentCheck.definition, childCheck.definition with
    | some parentDefinition, some childDefinition =>
      if text.normalizedConstraintExpression parentDefinition =
          text.normalizedConstraintExpression childDefinition then .ok true
      else .error ("partition CHECK constraint '" ++ parentCheck.name ++
        "' does not match parent '" ++ parentId.display ++ "'")
    | _, _ => .ok false

def partitionKeyVerdict (s : AnalysisState) (parentId childId : ObjectRef)
    (parentKey : ConstraintState) : Except String Bool :=
  match s.constraints.lookup (childId.id, parentKey.name) with
  | none => .ok true
  | some childKey =>
    if childKey.kind ≠ parentKey.kind then
      .error ("partition constraint '" ++ parentKey.name ++
        "' conflicts with parent constraint kind")
    else match s.constraintKeyColumns parentId.id parentKey.name,
        s.constraintKeyColumns childId.id parentKey.name with
      | some parentColumns, some childColumns =>
        if parentColumns = childColumns then .ok true
        else .error ("partition constraint '" ++ parentKey.name ++
          "' has different key columns from parent")
      | _, _ => .ok false

def partitionTriggerVerdict (s : AnalysisState) (childId : ObjectRef)
    (parentTrigger : TriggerState) : Except String Bool :=
  if s.triggerIsPresent (triggerKey childId.id parentTrigger.name) then
    .error ("trigger '" ++ parentTrigger.name ++ "' on partition '" ++ childId.display ++
      "' conflicts with parent trigger")
  else .ok true

/-- Whether the child fits its new parent: no if the catalog leaves it open. -/
def partitionAttachmentIsCompatible (s : AnalysisState) (parentId childId : ObjectRef) :
    Except String Bool :=
  match s.presentRelation parentId.id, s.presentRelation childId.id with
  | some parent, some child =>
    if parent.columns.length ≠ child.columns.length then
      .error ("partition '" ++ childId.display ++ "' must have exactly the same columns as parent '" ++
        parentId.display ++ "'")
    else
      let constraints := s.tableConstraints parentId.id
      firstDoubt (parent.columns.map (partitionColumnVerdict text childId parent child) ++
        (constraints.filter fun c => decide (c.kind = .check)).map
          (s.partitionCheckVerdict text parentId childId) ++
        (constraints.filter fun c => isKeyConstraint c.kind).map
          (s.partitionKeyVerdict parentId childId) ++
        (s.partitionRowTriggerPlans parentId.id).map (s.partitionTriggerVerdict childId))
  | _, _ => .ok false

end Compatible

section Attach

def forgetPartitionPredicate (s : AnalysisState) (id : ObjectId) : AnalysisState :=
  s.updateRelation id fun relation => { relation with partitionConstraint := none }

/-- Predicates of descendants include those of their ancestors. -/
def invalidateDescendantPartitionPredicates (s : AnalysisState) (root : ObjectId) : AnalysisState :=
  (s.graph.inheritedDescendants root).foldl forgetPartitionPredicate s

/-- The predicate a table takes on with its bound. -/
def attachedPartitionConstraint (s : AnalysisState) (parent child : ObjectId)
    (bound : Option String) : Option String := do
  let relation ← s.presentRelation child
  let parentRelation ← s.presentRelation parent
  let strategy ← parentRelation.partitionType
  let keys ← s.partitionKeyColumns text.toSqlText parent
  if bound.any isDefaultBound then s.synthesizeDefaultPartitionConstraint text.toSqlText parent
  else synthesizePartitionCheck text.toSqlText strategy (← bound) keys relation

/-- A partition under a new bound, and what it says of its columns. -/
def setPartitionBound (bound constraint : Option String) (inheritance : ColumnInheritance)
    (relation : RelationState) : RelationState :=
  { relation with
    partitionBound := bound
    partitionConstraint := constraint
    columnInheritance := relation.columns.foldl
      (fun m column => m.insert column.name inheritance) relation.columnInheritance }

def defaultPartitions (s : AnalysisState) (parent : ObjectId) : List ObjectId :=
  s.graph.edges.filterMap fun e =>
    if (e.referenced == parent && e.kind.isPartitionOf) = true ∧
        (s.presentRelation e.dependent).any
          (fun relation => relation.partitionBound.any isDefaultBound) = true then
      some e.dependent
    else none

/-- `refresh_default_partition_constraints`, which takes no snapshot. -/
def refreshDefaultPartitionConstraints (s : AnalysisState) (parent : ObjectId) : AnalysisState :=
  (s.defaultPartitions parent).foldl (fun s child =>
    let constraint := s.synthesizeDefaultPartitionConstraint text.toSqlText parent
    s.modifyRelation child fun relation => { relation with partitionConstraint := constraint }) s

def attachPartition (s : AnalysisState) (parent child : ObjectId) (bound : Option String) :
    AnalysisState :=
  let s := s.addGraphEdge ⟨child, parent, .partitionOf⟩
  let s := s.invalidateDescendantPartitionPredicates child
  let bound := bound.map text.canonicalPartitionBound
  let constraint := s.attachedPartitionConstraint text parent child bound
  let s := s.updateRelation child (setPartitionBound bound constraint ⟨1, false⟩)
  let s := s.refreshDefaultPartitionConstraints text parent
  s.ensurePartitionIndexesAndConstraints parent child

end Attach

section Detach

/-- The indexes of a detached partition are detached with it. -/
def detachIndexPartitionsOfTable (s : AnalysisState) (table : ObjectId) : AnalysisState :=
  let doomed := (s.graph.edges.filter fun e =>
    e.kind.isIndexPartitionOf && s.indexTableOf e.dependent == some table).map (·.dependent)
  if doomed.isEmpty then s
  else s.retainGraphEdges fun e => !(e.kind.isIndexPartitionOf && decide (e.dependent ∈ doomed))

def retainedCheckForDetachedPartition (s : AnalysisState) (parent child : ObjectId) :
    RetainedCheckSynthesis :=
  match s.presentRelation child, (s.presentRelation parent).bind (·.partitionType) with
  | some relation, some strategy =>
    if eqIgnoreAsciiCase strategy "HASH" then .noCheck
    else match relation.partitionConstraint.filter fun predicate => trimText predicate != "" with
      | some predicate =>
        if eqIgnoreAsciiCase strategy "RANGE" then .definition predicate
        else (text.foldListPartitionPredicate predicate relation).elim .cantResolve .definition
      | none => match relation.partitionBound, s.partitionKeyColumns text.toSqlText parent with
        | some bound, some keys =>
          -- the bound alone does not give the predicates of the ancestors
          if s.graph.edges.any fun e => e.dependent == parent && e.kind.isPartition then .cantResolve
          else (synthesizePartitionCheck text.toSqlText strategy bound keys relation).elim
            .cantResolve .definition
        | _, _ => .cantResolve
  | _, _ => .cantResolve

def registerRetainedPartitionCheck (s : AnalysisState) (child : ObjectId) (definition : String) :
    AnalysisState :=
  match (text.selectedColumns definition).filter fun columns =>
      (s.presentRelation child).any fun relation => columns.all relation.hasColumn with
  | none => s.taint .unsupportedSemantics .chain
  | some columns =>
    let column := match columns with
      | [column] => some column
      | _ => none
    let name := s.nextGeneratedConstraintNameAvoiding child child.name column "check" []
    let s := s.putConstraint
      { tableId := child, name, kind := .check, validated := true, definition := some definition,
        backingIndex := none }
    s.addGraphEdge ⟨child, child, .constraintDependency name columns⟩

def retainCheck (s : AnalysisState) (parent child : ObjectId) : AnalysisState :=
  match s.retainedCheckForDetachedPartition text parent child with
  | .noCheck => s
  | .cantResolve => s.taint .unsupportedSemantics .chain
  | .definition definition => s.registerRetainedPartitionCheck text child definition

/-- The kind of edge that a detach expects and removes. -/
def detachedKind : DetachPartitionMode → DependencyKind
  | .finalize => .partitionDetachPending
  | .immediate => .partitionOf
  | .concurrently => .partitionOf

/-- Triggers of `child` cloned from those of `parent`. -/
def partitionTriggerClones (s : AnalysisState) (parent child : ObjectId) :
    List (ObjectId × String) :=
  let parentTriggerIds := s.triggers.entries.filterMap fun entry =>
    match entry.2 with
    | .present trigger => if trigger.tableId = parent then some trigger.id else none
    | .dropped => none
  s.triggers.entries.filterMap fun entry =>
    match entry.2 with
    | .present trigger =>
      if trigger.tableId = child ∧ trigger.parentTriggerId.any (parentTriggerIds.contains ·) = true
      then some (entry.1, trigger.name)
      else none
    | .dropped => none

def removeTriggerClone (child : ObjectId) (s : AnalysisState) (clone : ObjectId × String) :
    AnalysisState :=
  let s := s.tombstoneTrigger clone.1
  let s := s.modifyRelation child fun relation =>
    { relation with triggers := relation.triggers.erase clone.2 }
  s.setGraph (s.graph.retainEdges fun e => e.dependent != clone.1)

def removePartitionTriggerClones (s : AnalysisState) (parent child : ObjectId) : AnalysisState :=
  let clones := s.partitionTriggerClones parent child
  if clones.isEmpty then s
  else clones.foldl (removeTriggerClone child) (s.snapshotRelation child).snapshotGraphFull

def detachPartition (s : AnalysisState) (parent child : ObjectId) (mode : DetachPartitionMode) :
    AnalysisState :=
  let s := s.retainGraphEdges fun e =>
    !(decide (e.kind = detachedKind mode) && e.dependent == child && e.referenced == parent)
  let s := if mode = .concurrently then s.retainCheck text parent child else s
  let s := s.invalidateDescendantPartitionPredicates child
  let s := s.updateRelation child (setPartitionBound none none ⟨0, true⟩)
  s.removePartitionTriggerClones parent child

end Detach

end AnalysisState

open AnalysisState

namespace AlterPartition

variable (text : PartitionText) (alter : AlterPartition)

/-- The relation must exist and be a partitioned table. -/
def checkTarget : Statement Unit := do
  let s ← get
  match s.relationLookup alter.id fun _ => true with
  | .wrongKind => refuse ("object '" ++ alter.id.display ++ "' is not a table")
  | .authoritativelyAbsent | .tombstone =>
    refuse ("relation '" ++ alter.id.display ++ "' does not exist")
  | .unknown => leaveUnresolved .unknownObjectState
  | .present => match s.presentRelation alter.id.id with
    | none => leaveUnresolved .unknownObjectState
    | some relation =>
      refuseIf (¬(relation.kind = .table ∧ relation.partitionType.isSome = true))
        ("ALTER action cannot be performed on relation '" ++ alter.id.display ++ "'")

def checkChild (child : ObjectRef) : Statement Unit :=
  ensureRelationTarget child RelationKind.isTableLike
    ("partition child relation '" ++ child.display ++ "' does not exist")
    ("partition child '" ++ child.display ++ "' is not a table")

def cycleReason (child : ObjectRef) : String :=
  "attaching partition '" ++ child.display ++ "' to '" ++ alter.id.display ++
    "' would create a partition cycle"

def checkAttach (child : ObjectRef) (strategy : Option String) : Statement Unit := do
  checkChild child
  let s ← get
  match (s.presentRelation alter.id.id).bind (·.partitionType) with
  | none => refuse ("partition parent '" ++ alter.id.display ++ "' is not partitioned")
  | some partitionType =>
    refuseIf ((strategy.any fun strategy => !eqIgnoreAsciiCase strategy partitionType) = true)
      ("partition strategy for '" ++ child.display ++ "' does not match parent '" ++
        alter.id.display ++ "' (" ++ partitionType ++ ")")
    refuseIf (s.graph.checkPartitionCycle alter.id.id child.id = true) (alter.cycleReason child)
    refuseFound (s.graph.edges.find? fun e => e.kind.isPartition && e.dependent == child.id)
      fun e => "partition '" ++ child.display ++ "' is already attached to '" ++
        e.referenced.display ++ "'"
    match s.partitionAttachmentIsCompatible text alter.id child with
    | .ok true => pure ()
    | .ok false => modify fun s => s.taint .catalogCoverageIncomplete .chain
    | .error reason => refuse reason

/-- A concurrent detach waits for no other and knows no default partition. -/
def concurrentDetachVerdict (s : AnalysisState) (e : DependencyEdge) : Option String :=
  if e.kind = .partitionDetachPending then
    some ("parent '" ++ alter.id.display ++ "' already has a partition pending detach")
  else if e.kind = .partitionOf ∧ (s.presentRelation e.dependent).any (fun partition =>
      partition.partitionBound.any fun bound => isDefaultBound (trimText bound)) = true then
    some ("cannot detach concurrently from '" ++ alter.id.display ++
      "' while it has a default partition")
  else none

def detachReason (child : ObjectRef) (mode : DetachPartitionMode) : String :=
  let action := match mode with
    | .finalize => "has no pending concurrent detach from"
    | _ => "is not attached to"
  "partition '" ++ child.display ++ "' " ++ action ++ " parent '" ++ alter.id.display ++ "'"

def checkDetach (child : ObjectRef) (mode : DetachPartitionMode) : Statement Unit := do
  let s ← get
  refuseFound (if mode = .concurrently then
      (s.graph.edges.filter (·.referenced == alter.id.id)).findSome?
        (alter.concurrentDetachVerdict s)
    else none) fun reason => reason
  checkChild child
  let s ← get
  refuseIf (¬(s.graph.edges.any fun e => decide (e.kind = detachedKind mode) &&
      e.dependent == child.id && e.referenced == alter.id.id) = true)
    (alter.detachReason child mode)

def attach (child : ObjectRef) (bound : Option String) : Statement MutationResult := do
  modify fun s => s.snapshotRelation alter.id.id
  let s ← get
  -- checked before, when nothing was written yet
  refuseIf (s.graph.checkPartitionCycle alter.id.id child.id = true) (alter.cycleReason child)
  modify fun s => s.attachPartition text alter.id.id child.id bound
  cloneRowTriggersToPartition alter.id.id child
  pure .applied

def detach (child : ObjectRef) (mode : DetachPartitionMode) : Statement MutationResult := do
  modify fun s => s.detachIndexPartitionsOfTable child.id
  modify fun s => s.snapshotRelation alter.id.id
  modify fun s => s.detachPartition text alter.id.id child.id mode
  pure .applied

def isConcurrentDetach : PartitionAction → Bool
  | .detachPartition _ .concurrently => true
  | _ => false

def command : Statement MutationResult := do
  let s ← get
  refuseIf (isConcurrentDetach alter.action = true ∧ s.transactions ≠ [])
    "DETACH PARTITION CONCURRENTLY cannot run inside a transaction"
  alter.checkTarget
  match alter.action with
  | .attachPartition child strategy bound => do
    alter.checkAttach text child strategy
    alter.attach text child bound
  | .detachPartition child mode => do
    alter.checkDetach child mode
    alter.detach text child mode

end AlterPartition

/-- `apply_alter_table` for the two partition actions. -/
def AnalysisState.applyAlterPartition (s : AnalysisState) (text : PartitionText)
    (alter : AlterPartition) : MutationResult × AnalysisState :=
  (alter.command text).outcome s

end SafeMigrate
