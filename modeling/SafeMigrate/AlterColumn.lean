import SafeMigrate.AlterPartition
import SafeMigrate.CreateTable
import SafeMigrate.RelationFamily

/-! `ALTER TABLE … ADD COLUMN`, `DROP COLUMN`, `RENAME COLUMN` and `ALTER COLUMN
… TYPE`: the checks, the scan for dependents of a dropped column, the writes. -/

namespace SafeMigrate

structure AddedColumn where
  name : String
  ty : Option String := none
  ifNotExists : Bool := false
  notNull : Bool := false
  default : Option ExprIr := none
  dependsOn : Option (ObjectId × String) := none
  generation : ColumnGeneration := .ordinary
  identitySequence : Option IdentitySequenceOptions := none
  generatedExpr : Option ExprIr := none
  generatedExprSql : Option String := none

inductive ColumnChange
  | addColumn (column : AddedColumn)
  | dropColumn (name : String) (ifExists cascade : Bool)
  | renameColumn (oldName newName : String)
  | setType (column ty : String)

structure AlterColumn where
  id : ObjectRef
  only : Bool := false
  action : ColumnChange

/-- The modifier that a declared type carries, besides the other readings. -/
structure ColumnText extends PartitionText where
  typeModifier : String → Option Int

def renamedColumn (oldName newName column : String) : String :=
  if column = oldName then newName else column

namespace DependencyGraph

def renamedDependency (table : ObjectId) (oldName newName : String) (e : DependencyEdge) :
    DependencyKind :=
  let rename := renamedColumn oldName newName
  let ifAt (end_ : ObjectId) (columns : List String) : List String :=
    if end_ = table then columns.map rename else columns
  match e.kind with
  | .foreignKey name fromColumns toColumns operatorEvidence generation =>
    .foreignKey name (ifAt e.dependent fromColumns) (ifAt e.referenced toColumns) operatorEvidence
      generation
  | .constraintOnRelation name columns isPrimary =>
    .constraintOnRelation name (ifAt e.dependent columns) isPrimary
  | .constraintDependency name columns => .constraintDependency name (ifAt e.dependent columns)
  | .columnGeneratedFrom column dependsOnColumn =>
    .columnGeneratedFrom (if e.dependent = table then rename column else column)
      (if e.referenced = table then rename dependsOnColumn else dependsOnColumn)
  | .columnDefaultOnSequence column =>
    .columnDefaultOnSequence (if e.dependent = table then rename column else column)
  | kind => kind

def renameColumnDependencies (g : DependencyGraph) (table : ObjectId) (oldName newName : String) :
    DependencyGraph :=
  g.mapEdges fun e => { e with kind := renamedDependency table oldName newName e }

def renamedIndexKey (oldName newName : String) (key : IndexKey) : IndexKey :=
  match key.kind with
  | .column name => { key with kind := .column (renamedColumn oldName newName name) }
  | .expression _ => key

def renamedIndex (oldName newName : String) : DependencyKind → DependencyKind
  | .indexOnRelation definition columns known isConcurrent isImmediate eligible =>
    .indexOnRelation
      { definition with
        keys := definition.keys.map (renamedIndexKey oldName newName)
        included := definition.included.map (renamedIndexKey oldName newName) }
      (columns.map (renamedColumn oldName newName)) known isConcurrent isImmediate eligible
  | kind => kind

def renameIndexColumn (g : DependencyGraph) (table : ObjectId) (oldName newName : String) :
    DependencyGraph :=
  g.mapEdges fun e =>
    if e.referenced = table then { e with kind := renamedIndex oldName newName e.kind } else e

def renameOwnedSequenceColumn (g : DependencyGraph) (sequence : ObjectId)
    (oldName newName : String) : DependencyGraph :=
  g.mapEdges fun e =>
    match e.kind with
    | .sequenceOwnedBy column =>
      if e.dependent = sequence then
        { e with kind := .sequenceOwnedBy (renamedColumn oldName newName column) }
      else e
    | _ => e

end DependencyGraph

/-- What goes with a dropped column, and how much of it could be told. -/
structure ColumnScan where
  unknown : Bool := false
  known : Bool := false
  constraints : List (ObjectId × String) := []
  indexes : List ObjectId := []
  statistics : List ObjectId := []
  generated : List String := []
  views : List ObjectId := []

namespace ColumnScan

def withUnknown (scan : ColumnScan) : ColumnScan := { scan with unknown := true }

def withConstraint (scan : ColumnScan) (key : ObjectId × String) : ColumnScan :=
  { scan with known := true, constraints := scan.constraints ++ [key] }

variable (s : AnalysisState) (table : ObjectId) (name : String) (cascade : Bool)

def isNotNullConstraint (key : ObjectId × String) : Bool :=
  (s.constraints.lookup key).any fun constraint => decide (constraint.kind = .notNull)

/-- One edge, as `DROP COLUMN` looks at it for its own column. -/
def scanEdge (scan : ColumnScan) (e : DependencyEdge) : ColumnScan :=
  let dependent := s.graph.resolveRename e.dependent
  let referenced := s.graph.resolveRename e.referenced
  match e.kind with
  | .foreignKey constraintName fromColumns toColumns .. =>
    if dependent = table ∨ referenced = table then
      let columns := if dependent = table then fromColumns else toColumns
      if columns.isEmpty then scan.withUnknown
      else if name ∈ columns then
        match constraintName with
        | some constraintName => scan.withConstraint (dependent, constraintName)
        | none => { scan with known := true, unknown := true }
      else scan
    else scan
  | .constraintOnRelation constraintName columns _ =>
    -- a not-null constraint goes with its column, and is no dependent of it
    if dependent ≠ table ∨ isNotNullConstraint s (dependent, constraintName) = true then scan
    else if columns.isEmpty then scan.withUnknown
    else if name ∈ columns then scan.withConstraint (table, constraintName)
    else scan
  | .indexOnRelation _ dependencyColumns dependencyColumnsKnown .. =>
    if referenced ≠ table then scan
    else if !dependencyColumnsKnown then scan.withUnknown
    else if name ∈ dependencyColumns then { scan with indexes := scan.indexes ++ [dependent] }
    else scan
  | .viewDependency _ referencedColumn =>
    if referenced ≠ table then scan
    else match referencedColumn with
      | none => scan.withUnknown
      | some column =>
        if column = name then
          { scan with known := true, views := if cascade then scan.views ++ [dependent] else scan.views }
        else scan
  | .constraintDependency constraintName columns =>
    if dependent = table ∧ name ∈ columns then scan.withConstraint (table, constraintName) else scan
  | .columnGeneratedFrom column dependsOnColumn =>
    if (dependent = table ∨ referenced = table) ∧ column ≠ name ∧ dependsOnColumn = name then
      { scan with
        known := true, generated := if cascade then scan.generated ++ [column] else scan.generated }
    else scan
  | _ => scan

/-- The generated columns that read one of `generated`, and are new. -/
def furtherGenerated (generated : List String) : List String :=
  s.graph.edges.filterMap fun e =>
    match e.kind with
    | .columnGeneratedFrom column dependsOnColumn =>
      if s.graph.resolveRename e.dependent = table ∧ s.graph.resolveRename e.referenced = table ∧
          dependsOnColumn ∈ generated ∧ column ≠ name ∧ column ∉ generated then some column
      else none
    | _ => none

def generatedClosure : Nat → List String → List String
  | 0, generated => generated
  | fuel + 1, generated =>
    let additional := furtherGenerated s table name generated
    if additional.isEmpty then generated else generatedClosure fuel (generated ++ additional)

/-- One edge, looked at for the generated columns that a cascade drops. -/
def scanGeneratedEdge (scan : ColumnScan) (e : DependencyEdge) : ColumnScan :=
  let dependent := s.graph.resolveRename e.dependent
  let referenced := s.graph.resolveRename e.referenced
  let goes (columns : List String) : Bool := columns.any scan.generated.contains
  match e.kind with
  | .indexOnRelation _ dependencyColumns dependencyColumnsKnown .. =>
    if referenced ≠ table then scan
    else if !dependencyColumnsKnown then scan.withUnknown
    else if goes dependencyColumns then { scan with indexes := scan.indexes ++ [dependent] }
    else scan
  | .viewDependency _ referencedColumn =>
    if referenced ≠ table then scan
    else match referencedColumn with
      | none => scan.withUnknown
      | some column =>
        if column ∈ scan.generated then { scan with views := scan.views ++ [dependent] } else scan
  | .foreignKey constraintName fromColumns toColumns .. =>
    if (dependent = table ∧ goes fromColumns = true) ∨ (referenced = table ∧ goes toColumns = true) then
      match constraintName with
      | some constraintName => scan.withConstraint (dependent, constraintName)
      | none => scan.withUnknown
    else scan
  | .constraintOnRelation constraintName columns _ =>
    if dependent = table ∧ goes columns = true then scan.withConstraint (dependent, constraintName)
    else scan
  | .constraintDependency constraintName columns =>
    if dependent = table ∧ goes columns = true then scan.withConstraint (dependent, constraintName)
    else scan
  | _ => scan

/-- Whether some edge tells the columns of the constraint. -/
def isRepresented (constraintName : String) : Bool :=
  s.graph.edges.any fun e =>
    match e.kind with
    | .constraintOnRelation name .. => e.dependent == table && name == constraintName
    | .constraintDependency name _ => e.dependent == table && name == constraintName
    | .foreignKey (some name) .. =>
      (e.dependent == table || e.referenced == table) && name == constraintName
    | _ => false

def scanStatistics (relation : RelationState) : ColumnScan :=
  let reading := (relation.extendedStatistics.entries.map (·.2)).filter (·.columns.contains name)
  { known := !reading.isEmpty, statistics := if cascade then reading.map (·.id) else [] }

def scanDropColumn (relation : RelationState) : ColumnScan :=
  let current := s.graph.edges.filter s.dependencyEdgeIsCurrent
  let scan := current.foldl (scanEdge s table name cascade) (scanStatistics name cascade relation)
  let scan := { scan with
    generated := generatedClosure s table name (s.graph.edges.length + 1) scan.generated }
  let scan := if scan.generated.isEmpty then scan
    else current.foldl (scanGeneratedEdge s table) scan
  if s.constraints.keys.any fun key => decide (s.graph.resolveRename key.1 = table) &&
      !isRepresented s table key.2 then scan.withUnknown
  else scan

end ColumnScan

namespace AnalysisState

section Rename

variable (text : SqlText) (table : ObjectId) (oldName newName : String)

/-- The definition of a check follows a renamed column where the parser can. -/
def renameInCheck (s : AnalysisState) (check : String × String) : AnalysisState :=
  let s := s.snapshotConstraint table check.1
  match s.constraints.lookup (table, check.1) with
  | some constraint => s.setConstraints (s.constraints.insert (table, check.1)
      { constraint with definition := text.renameColumnSource check.2 table.name oldName newName })
  | none => s

def checkSources (s : AnalysisState) : List (String × String) :=
  s.constraints.entries.filterMap fun entry =>
    if entry.1.1 = table ∧ entry.2.kind = .check then
      entry.2.definition.map fun source => (entry.1.2, source)
    else none

def renameSequenceOwner (s : AnalysisState) (sequence : ObjectId) : AnalysisState :=
  let s := s.snapshotSequence sequence
  match s.sequences.lookup sequence with
  | some (.present state) => s.setSequences (s.sequences.insert sequence
      (.present { state with ownedBy := state.ownedBy.map fun owner => (owner.1, newName) }))
  | _ => s

def renameOwnedSequence (s : AnalysisState) (sequence : ObjectId) : AnalysisState :=
  let s := s.renameSequenceOwner newName sequence
  s.setGraph (s.graph.renameOwnedSequenceColumn sequence oldName newName)

def ownedSequenceEdges (s : AnalysisState) : List ObjectId :=
  (s.graph.edges.filter fun e =>
    decide (e.kind = .sequenceOwnedBy oldName) && e.referenced == table).map (·.dependent)

/-- `rename_relation_column_metadata`. -/
def renameRelationColumnMetadata (s : AnalysisState) : AnalysisState :=
  let s := s.updateRelation table fun relation =>
    relation.applyColumnAction text (.rename oldName newName)
  let s := (s.checkSources table).foldl (renameInCheck text table oldName newName) s
  let s := s.snapshotGraphFull
  let s := s.setGraph ((s.graph.renameColumnDependencies table oldName newName).renameIndexColumn
    table oldName newName)
  (s.ownedSequenceEdges table oldName).foldl (renameOwnedSequence oldName newName) s

def listsColumn (s : AnalysisState) : PublicationObjectFact → Bool
  | .table name _ _ (some columns) _ =>
    (s.resolveRelationId name).id == table && columns.contains oldName
  | _ => false

/-- The explicit publications that list the column, with the positions. -/
def columnPublicationUpdates (s : AnalysisState) : List (String × List Nat) :=
  s.publications.entries.filterMap fun entry =>
    match entry.2 with
    | .present publication =>
      match publication.scope with
      | .explicit objects =>
        let indexes := (objects.zipIdx.filter fun object =>
          s.listsColumn table oldName object.1).map (·.2)
        if indexes.isEmpty then none else some (entry.1, indexes)
      | .allTables _ => none
    | .dropped => none

def renameListedColumn : PublicationObjectFact → PublicationObjectFact
  | .table name only includePartitions columns rowFilter =>
    .table name only includePartitions (columns.map (·.map (renamedColumn oldName newName))) rowFilter
  | object => object

def updatePublicationColumns (s : AnalysisState) (update : String × List Nat) : AnalysisState :=
  let s := s.snapshotPublication update.1
  match s.publications.lookup update.1 with
  | some (.present publication) =>
    match publication.scope with
    | .explicit objects => s.setPublications (s.publications.insert update.1
        (.present { publication with
          scope := .explicit (objects.zipIdx.map fun object =>
            if object.2 ∈ update.2 then renameListedColumn oldName newName object.1 else object.1) }))
    | .allTables _ => s
  | _ => s

end Rename

section Drop

/-- The not-null constraint of the column goes, with the edge that shows it. -/
def dropNotNullConstraint (s : AnalysisState) (table : ObjectId) (column : String) : AnalysisState :=
  match s.notNullConstraintForColumn table column with
  | none => s
  | some key =>
    let s := s.removeConstraint key
    s.retainGraphEdges fun e =>
      !(decide (e.kind = .constraintOnRelation key.2 [column] false) &&
        decide (s.graph.resolveRename e.dependent = key.1))

def dropOwnedSequence (s : AnalysisState) (sequence : ObjectId) : AnalysisState :=
  (s.tombstoneSequence sequence).retainGraphEdges fun e =>
    match e.kind with
    | .sequenceOwnedBy _ => e.dependent != sequence
    | _ => true

/-- An edge that shows one of the constraints. -/
def showsConstraint (s : AnalysisState) (constraints : List (ObjectId × String))
    (e : DependencyEdge) : Bool :=
  let dependent := s.graph.resolveRename e.dependent
  match e.kind with
  | .foreignKey (some name) .. => constraints.contains (dependent, name)
  | .constraintOnRelation name .. => constraints.contains (dependent, name)
  | .constraintDependency name _ => constraints.contains (dependent, name)
  | _ => false

def removeColumnConstraints (s : AnalysisState) (constraints : List (ObjectId × String)) :
    AnalysisState :=
  if constraints.isEmpty then s
  else
    let s := s.removeDroppedConstraints [] constraints
    s.retainGraphEdges fun e => !s.showsConstraint constraints e

def dropDependentViews (s : AnalysisState) (views : List ObjectId) : AnalysisState :=
  if views.isEmpty then s
  else (s.applyDropRelationFamily (views.dedup.map fun view => ⟨view, false⟩) true "view").2

/-- The generation or the default of one of the columns. -/
def definesColumn (s : AnalysisState) (table : ObjectId) (columns : List String)
    (e : DependencyEdge) : Bool :=
  decide (s.graph.resolveRename e.dependent = table) &&
    match e.kind with
    | .columnGeneratedFrom column _ => columns.contains column
    | .columnDefaultOnSequence column => columns.contains column
    | _ => false

def removeColumnDefinitions (s : AnalysisState) (table : ObjectId) (columns : List String) :
    AnalysisState :=
  if s.graph.edges.any (s.definesColumn table columns) then
    s.retainGraphEdges fun e => !s.definesColumn table columns e
  else s

def removeColumnIndexes (s : AnalysisState) (indexes : List ObjectId) : AnalysisState :=
  if indexes.isEmpty then s
  else s.retainGraphEdges fun e => !(e.kind.isIndexOnRelation && indexes.contains e.dependent)

end Drop

/-- The sequences that belong to a column, as their own state has it. -/
def columnSequences (s : AnalysisState) (table : ObjectId) (column : String) : List ObjectId :=
  s.sequences.entries.filterMap fun entry =>
    match entry.2 with
    | .present sequence => if sequence.ownedBy = some (table, column) then some entry.1 else none
    | .dropped => none

end AnalysisState

open AnalysisState

namespace AlterColumn

variable (text : ColumnText) (alter : AlterColumn)

section Checks

/-- The relations that a rename reaches below its target. -/
def descendants (s : AnalysisState) : List ObjectId :=
  match alter.only, alter.action with
  | false, .renameColumn .. => s.graph.inheritedDescendants alter.id.id
  | _, _ => []

/-- Whether every generated column can follow the rename. -/
def generatedFollow (table oldName newName : String) (relation : RelationState) : Bool :=
  relation.generatedColumns.entries.all fun entry =>
    (entry.2.expression.bind fun source =>
      text.renameColumnSource source table oldName newName).isSome

/-- The parents of `id` among the relations that a rename reaches. -/
def expectedParents (s : AnalysisState) (id : ObjectId) : Nat :=
  (s.graph.edges.filter fun e => e.dependent == id && DependencyGraph.isDescent e.kind &&
    (e.referenced == alter.id.id || (alter.descendants s).contains e.referenced)).length

def checkDescendant (oldName newName : String) (id : ObjectId) : Statement Unit := do
  let s ← get
  match s.presentRelation id with
  | none => leaveUnresolved .catalogCoverageIncomplete
  | some relation =>
    refuseIf (relation.hasColumn newName = true)
      ("column '" ++ newName ++ "' already exists on relation '" ++ (ObjectRef.mk id false).display ++ "'")
    leaveUnresolvedIf (generatedFollow text id.name oldName newName relation = false)
      .catalogCoverageIncomplete
    match relation.columnInheritance.lookup oldName with
    | none => leaveUnresolved .catalogCoverageIncomplete
    | some provenance =>
      refuseIf (provenance.parentCount > alter.expectedParents s id)
        ("cannot rename inherited column '" ++ oldName ++ "'")

def hasChildren (s : AnalysisState) : Bool :=
  s.graph.edges.any fun e => isInheritanceOrPartition e.kind &&
    decide (s.graph.resolveRename e.referenced = s.graph.resolveRename alter.id.id)

def checkRecursion : Statement Unit := do
  match alter.action with
  | .renameColumn oldName newName => do
    let s ← get
    (alter.descendants s).forM (alter.checkDescendant text oldName newName)
    refuseIf (alter.only = true ∧ alter.hasChildren s = true)
      "inherited columns must be renamed in child tables too"
  | _ => pure ()

/-- `alter_table_action_permits` for the column actions. -/
def permits : RelationKind → Bool
  | .table | .foreignTable => true
  | .view | .materializedView => match alter.action with
    | .renameColumn .. => true
    | _ => false

def checkTarget : Statement RelationState := do
  let s ← get
  match s.relationLookup alter.id fun _ => true with
  | .wrongKind => refuse ("object '" ++ alter.id.display ++ "' is not a table")
  | .authoritativelyAbsent | .tombstone =>
    refuse ("relation '" ++ alter.id.display ++ "' does not exist")
  | .unknown => leaveUnresolved .unknownObjectState
  | .present => match s.presentRelation alter.id.id with
    | none => leaveUnresolved .unknownObjectState
    | some relation => do
      refuseIf (alter.permits relation.kind = false)
        ("ALTER action cannot be performed on relation '" ++ alter.id.display ++ "'")
      pure relation

def missingColumn (column : String) : String :=
  "column '" ++ column ++ "' does not exist on relation '" ++ alter.id.display ++ "'"

def checkColumn (relation : RelationState) : Statement Unit := do
  let known := !relation.columns.isEmpty || relation.estimatedRows.isSome
  match alter.action with
  | .addColumn column =>
    if relation.hasColumn column.name then
      if column.ifNotExists then throw .noOp
      else refuse ("column '" ++ column.name ++ "' already exists with type " ++
        (((relation.getColumn column.name).bind (·.dataType)).getD "unknown") ++
        "; this statement adds it again with type " ++ column.ty.getD "unknown")
    else pure ()
  | .dropColumn name ifExists _ => do
    leaveUnresolvedIf (known = false) .catalogCoverageIncomplete
    if relation.hasColumn name then pure ()
    else if ifExists then throw .noOp
    else refuse (alter.missingColumn name)
  | .renameColumn oldName newName => do
    leaveUnresolvedIf (known = false) .catalogCoverageIncomplete
    refuseIf (relation.hasColumn oldName = false) (alter.missingColumn oldName)
    refuseIf (relation.hasColumn newName = true)
      ("column '" ++ newName ++ "' already exists on relation '" ++ alter.id.display ++ "'")
    leaveUnresolvedIf (generatedFollow text alter.id.id.name oldName newName relation = false)
      .catalogCoverageIncomplete
  | .setType column _ => do
    leaveUnresolvedIf (known = false) .catalogCoverageIncomplete
    refuseIf (relation.hasColumn column = false) (alter.missingColumn column)

/-- The sequence behind an added serial or identity column. -/
def implicitSequence (s : AnalysisState) (column : AddedColumn) : Option ObjectRef :=
  let generated : ObjectRef := ⟨s.nextImplicitSequenceId alter.id.id column.name [], false⟩
  (CreateTable.generatedSequenceKind column.generation).map fun kind =>
    if kind = .serialLike then generated
    else (column.identitySequence.bind (·.sequenceName)).getD generated

end Checks

section Writes

/-- The relation with its new column. -/
def withAddedColumn (s : AnalysisState) (column : AddedColumn) (sequence : Option ObjectId)
    (relation : RelationState) : RelationState :=
  let kind := CreateTable.generatedColumnKind column.generation
  let relation := relation.applyColumnAction text.toSqlText
    (.add column.name column.ty column.notNull column.default)
  let relation := relation.updateColumn column.name fun c => { c with
    typeId := column.ty.bind (s.resolveTypeReference text.toSqlText)
    generated := if kind.isSome then some true else c.generated }
  let relation := match kind with
    | some kind => { relation with
        generatedColumns := relation.generatedColumns.insert column.name
          ⟨kind, column.generatedExprSql⟩ }
    | none => relation
  let relation := match CreateTable.identityGeneration column.generation with
    | some generation => { relation with
        identityColumns := relation.identityColumns.insert column.name generation }
    | none => relation
  match sequence with
  | some sequence => relation.updateColumn column.name (·.withSequenceDefault sequence)
  | none => relation

def addColumnEdges (s : AnalysisState) (column : AddedColumn) : AnalysisState :=
  let s := match column.dependsOn with
    | some (source, dependsOnColumn) =>
      s.addGraphEdge ⟨alter.id.id, source, .columnGeneratedFrom column.name dependsOnColumn⟩
    | none => s
  match column.generatedExpr.bind ExprIr.referencedColumns with
  | some references => s.addGraphEdges ((references.insertionSort (· ≤ ·)).map fun reference =>
      ⟨alter.id.id, alter.id.id, .columnGeneratedFrom column.name reference⟩)
  | none => s

def addImplicitSequence (column : AddedColumn) (sequence : ObjectId) : Statement Unit := do
  let s ← get
  let table := s.presentRelation alter.id.id
  let columnType := (table.bind (·.getColumn column.name)).bind (·.dataType)
  let persistence := (table.map (·.persistence)).getD .permanent
  let owner := (table.map (·.owner)).getD ⟨"", s.currentRole⟩
  let kind := (CreateTable.generatedSequenceKind column.generation).getD .serialLike
  let parameters := if kind = .serialLike then
      .ok (defaultColumnSequenceParameters columnType persistence)
    else identitySequenceParameters columnType persistence column.identitySequence
  match parameters with
  | .error reason => refuse reason
  | .ok parameters => do
    modify fun s => s.putSequence sequence fun s =>
      { id := sequence, owner, ownedBy := some (alter.id.id, column.name), kind, parameters
        runtime := .fresh parameters.startValue, runtimeExact := true
        generation := s.generationCounter }
    modify fun s => s.addGraphEdge ⟨sequence, alter.id.id, .sequenceOwnedBy column.name⟩

def addColumn (column : AddedColumn) : Statement Unit := do
  let s ← get
  let sequence := alter.implicitSequence s column
  refuseFound (sequence.filter fun sequence => s.relationNamespaceIsTaken sequence.id)
    CreateTable.alreadyExists
  modify fun s => s.snapshotRelation alter.id.id
  modify fun s => s.modifyRelation alter.id.id
    (withAddedColumn text s column (sequence.map (·.id)))
  modify fun s => alter.addColumnEdges s column
  if column.notNull then
    modify fun s => registerNotNullConstraint alter.id.id s column.name
  match sequence with
  | some sequence => alter.addImplicitSequence column sequence.id
  | none => pure ()

/-- The relation without the column, its statistics and its generated dependents. -/
def withoutColumn (name : String) (scan : ColumnScan) (relation : RelationState) : RelationState :=
  let relation := relation.applyColumnAction text.toSqlText (.drop name)
  let relation := { relation with
    extendedStatistics := scan.statistics.foldl (fun m id => m.erase id) relation.extendedStatistics }
  scan.generated.foldl (fun relation generated =>
    if relation.hasColumn generated then
      relation.applyColumnAction text.toSqlText (.drop generated)
    else relation) relation

/-- Everything that goes with the column, in the order of the source. -/
def dropDependents (name : String) (scan : ColumnScan) (sequences : List ObjectId)
    (s : AnalysisState) : AnalysisState :=
  let s := s.removeColumnConstraints scan.constraints
  let s := s.dropDependentViews scan.views
  let s := s.removeColumnDefinitions (s.graph.resolveRename alter.id.id) (name :: scan.generated)
  let s := s.removeColumnIndexes scan.indexes
  let s := s.dropNotNullConstraint alter.id.id name
  sequences.foldl dropOwnedSequence s

def unprovenDependents (s : AnalysisState) (table : ObjectId) : Bool :=
  s.baselineRelationIsKnown table &&
    (!s.baselineHasCoverage .dependencies || s.baselineScopedFamilyObject table .relations)

def dropColumn (relation : RelationState) (name : String) (cascade : Bool) : Statement Unit := do
  let s ← get
  let table := s.graph.resolveRename alter.id.id
  let sequences := s.columnSequences alter.id.id name
  taintIf (unprovenDependents s table = true) .catalogCoverageIncomplete .chain
  let scan := ColumnScan.scanDropColumn s table name cascade relation
  refuseIf (scan.known = true ∧ cascade = false)
    ("column '" ++ alter.id.display ++ "." ++ name ++ "' has dependent objects; use CASCADE")
  taintIf (scan.unknown = true) .catalogCoverageIncomplete .chain
  modify fun s => s.snapshotRelation alter.id.id
  modify fun s => s.modifyRelation alter.id.id (withoutColumn text name scan)
  modify (alter.dropDependents name scan sequences)

def renameEverywhere (oldName newName : String) (descendants sequences : List ObjectId)
    (s : AnalysisState) : AnalysisState :=
  let table := alter.id.id
  let s := s.updateRelation table fun relation =>
    relation.applyColumnAction text.toSqlText (.rename oldName newName)
  let s := s.renameRelationColumnMetadata text.toSqlText table oldName newName
  let s := descendants.foldl (fun s descendant =>
    s.renameRelationColumnMetadata text.toSqlText descendant oldName newName) s
  let s := (s.columnPublicationUpdates table oldName).foldl
    (updatePublicationColumns oldName newName) s
  let s := s.snapshotGraphFull
  let s := s.setGraph (s.graph.renameIndexColumn (s.graph.resolveRename table) oldName newName)
  sequences.foldl (fun s sequence =>
    let s := s.renameSequenceOwner newName sequence
    let s := s.snapshotGraphFull
    s.setGraph (s.graph.renameOwnedSequenceColumn sequence oldName newName)) s

def renameColumn (oldName newName : String) (descendants : List ObjectId) : Statement Unit := do
  let s ← get
  let sequences := s.columnSequences alter.id.id oldName
  modify (alter.renameEverywhere text oldName newName descendants sequences)

/-- The relation under the new type of its column. -/
def withColumnType (s : AnalysisState) (column ty : String) (relation : RelationState) :
    RelationState :=
  (relation.applyColumnAction text.toSqlText (.setType column ty)).updateColumn column fun c =>
    { c with
      typeId := s.resolveTypeReference text.toSqlText ty
      typeModifier := text.typeModifier ty }

def setType (column ty : String) : Statement Unit := do
  modify fun s => s.snapshotRelation alter.id.id
  checkDeclaredType text.toSqlText ty
  modify fun s => s.modifyRelation alter.id.id (withColumnType text s column ty)

end Writes

def execute (descendants : List ObjectId) (relation : RelationState) : Statement Unit :=
  match alter.action with
  | .addColumn column => alter.addColumn text column
  | .dropColumn name _ cascade => alter.dropColumn text relation name cascade
  | .renameColumn oldName newName => alter.renameColumn text oldName newName descendants
  | .setType column ty => alter.setType text column ty

def command : Statement MutationResult := do
  let s ← get
  alter.checkRecursion text
  let relation ← alter.checkTarget
  alter.checkColumn text relation
  alter.execute text (alter.descendants s) relation
  pure .applied

end AlterColumn

/-- `apply_alter_table` for the four actions on columns. -/
def AnalysisState.applyAlterColumn (s : AnalysisState) (text : ColumnText) (alter : AlterColumn) :
    MutationResult × AnalysisState :=
  (alter.command text).outcome s

end SafeMigrate
