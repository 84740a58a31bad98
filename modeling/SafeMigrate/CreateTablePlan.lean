import SafeMigrate.Partition
import SafeMigrate.Sequences

/-! The plan of `CREATE TABLE`: the columns and objects it takes from its
sources, the checks on them, and the names it reserves. -/

namespace SafeMigrate

structure LikeProperties where
  defaults : Bool := false
  generated : Bool := false
  storage : Bool := false
  compression : Bool := false
  statistics : Bool := false
  constraints : Bool := false
  indexes : Bool := false
  identity : Bool := false

structure LikeSource where
  relation : ObjectRef
  properties : LikeProperties

inductive ColumnGeneration
  | ordinary
  | serial
  | identityAlways
  | identityByDefault
  | generatedStored
  | generatedVirtual
deriving DecidableEq

structure ColumnMutation where
  name : String
  ty : Option String := none
  typeModifier : Option Int := none
  notNull : Bool := false
  isPrimaryKey : Bool := false
  primaryKeyConstraintName : Option String := none
  isUnique : Bool := false
  uniqueConstraintName : Option String := none
  default : Option ExprIr := none
  generation : ColumnGeneration := .ordinary
  identitySequence : Option IdentitySequenceOptions := none
  generatedExpr : Option ExprIr := none
  generatedExprSql : Option String := none

structure FkMutation where
  constraintName : Option String
  toTable : ObjectRef
  fromColumns : List String
  toColumns : List String

inductive TableConstraintFact
  | primaryKey (constraintName : Option String) (columns : List String)
  | unique (constraintName : Option String) (columns : List String)
  | check (constraintName nameHint : Option String) (definition : String) (columns : List String)
      (columnsComplete : Bool)
  | exclude (constraintName : Option String) (columns : List String) (columnsComplete : Bool)

def TableConstraintFact.primaryKeyColumns : TableConstraintFact → Option (List String)
  | .primaryKey _ columns => some columns
  | _ => none

structure CreateTable where
  id : ObjectRef
  ifNotExists : Bool := false
  asSelect : Bool := false
  asSelectColumnsKnown : Bool := false
  persistence : Persistence := .permanent
  onCommit : Option OnCommitAction := none
  columns : List ColumnMutation := []
  foreignKeys : List FkMutation := []
  tableConstraints : List TableConstraintFact := []
  partitionBy : Option String := none
  partitionKeys : List (String × String) := []
  partitionStrategy : Option String := none
  partitionOf : Option ObjectRef := none
  partitionBound : Option String := none
  inherits : List ObjectRef := []
  likeSources : List LikeSource := []
  ofType : Option ObjectRef := none

abbrev IndexKind := { kind : DependencyKind // kind.isIndexOnRelation = true }

abbrev ColumnDependency := { edge : DependencyEdge // edge.kind.isColumnDependency = true }

abbrev ForeignKeyEdge := { edge : DependencyEdge // edge.kind.isForeignKey = true }

/-- What the parents, the `LIKE` sources and the partition parent of a new
table contribute to it. -/
structure TableSources where
  columns : List Column := []
  names : List String := []
  complete : Bool := true
  generatedColumns : KeyedMap String GeneratedColumnState := ∅
  inheritedChecks : KeyedMap String (List String × String) := ∅
  dependencyEdges : List ColumnDependency := []
  identityColumns : List (String × IdentityGeneration × SequenceParameters) := []
  likeGeneratedColumns : List (String × GeneratedColumnState) := []
  checkConstraints : List (String × List String × String) := []
  indexes : List (IndexKind × Option (ConstraintKind × List String)) := []
  extendedStatistics : List ExtendedStatisticsState := []
  reservedStatisticsIds : List ObjectId := []
  partitionForeignKeys : List (String × ForeignKeyEdge) := []

namespace AnalysisState

def constraintsOf (s : AnalysisState) (table : ObjectId) : List ConstraintState :=
  (s.constraints.entries.map (·.2)).filter (·.tableId == table)

def checksOf (s : AnalysisState) (table : ObjectId) : List ConstraintState :=
  (s.constraintsOf table).filter (·.kind == .check)

def checkConstraintColumns (s : AnalysisState) (table : ObjectId) (name : String) :
    Option (List String) :=
  s.graph.edges.findSome? fun e =>
    match e.kind with
    | .constraintDependency constraintName columns =>
      if e.dependent = table ∧ e.referenced = table ∧ constraintName = name then some columns
      else none
    | _ => none

/-- The columns of a constraint, and whether it is a key. -/
def indexConstraintColumns (s : AnalysisState) (table : ObjectId) (name : String) :
    Option (List String × Bool) :=
  s.graph.edges.findSome? fun e =>
    if e.dependent = table ∧ e.referenced = table then
      match e.kind with
      | .constraintOnRelation constraintName columns _ =>
        if constraintName = name then some (columns, true) else none
      | .constraintDependency constraintName columns =>
        if constraintName = name then some (columns, false) else none
      | _ => none
    else none

/-- The index edges of a table, each with the constraint it backs. -/
def indexesWithConstraints (s : AnalysisState) (table : ObjectId) :
    List (IndexKind × Option (String × ConstraintKind × List String)) :=
  s.graph.edges.filterMap fun e =>
    if h : e.referenced = table ∧ e.kind.isIndexOnRelation = true then
      some (⟨e.kind, h.2⟩, do
        let constraint ← (s.constraintsOf table).find? fun c => c.backingIndex == some e.dependent
        let (columns, _) ← s.indexConstraintColumns table constraint.name
        some (constraint.name, constraint.kind, columns))
    else none

/-- The parameters of the identity sequence of a column. -/
def identityParameters (s : AnalysisState) (table : ObjectId) (column : String) :
    Option SequenceParameters :=
  s.sequences.entries.findSome? fun entry =>
    match entry.2 with
    | .present sequence =>
      if sequence.kind = .identity ∧ sequence.ownedBy = some (table, column) then
        some sequence.parameters
      else none
    | .dropped => none

/-- The keys that can be proved for a relation. Without an answer a key exists
whose columns are not represented. -/
def uniqueKeysForRelation (s : AnalysisState) (id : ObjectId) :
    Option (List (List String × Bool)) :=
  let resolved := s.graph.resolveRename id
  if s.baselineRelationIsKnown resolved &&
      (s.presentRelation resolved).any (·.columns.isEmpty) then none
  else
    let own := s.graph.edges.filter fun e => e.dependent == resolved
    let keys := own.filterMap fun e =>
      match e.kind with
      | .constraintOnRelation _ columns isPrimary =>
        if columns.isEmpty then none else some (columns, isPrimary)
      | _ => none
    let unknown := own.any fun e =>
      match e.kind with
      | .constraintOnRelation _ columns _ => columns.isEmpty
      | .indexOnRelation definition .. => definition.unique
      | _ => false
    if !keys.isEmpty then some keys
    else if unknown || s.constraints.entries.any fun entry =>
        entry.1.1 == resolved && isKeyConstraint entry.2.kind then none
    else some []

end AnalysisState

namespace DependencyGraph

/-- The search of `check_inheritance_cycle` up the ancestors of `parent`. -/
def inheritanceAncestors (g : DependencyGraph) :
    Nat → List ObjectId → List ObjectId → List ObjectId
  | 0, visited, _ => visited
  | _ + 1, visited, [] => visited
  | fuel + 1, visited, current :: pending =>
    if current ∈ visited then inheritanceAncestors g fuel visited pending
    else
      let parents := (g.edges.filter fun e => e.kind.isInheritanceOf &&
        g.resolveRename e.dependent == current).map fun e => g.resolveRename e.referenced
      inheritanceAncestors g fuel (current :: visited) (parents.reverse ++ pending)

def checkInheritanceCycle (g : DependencyGraph) (parent child : ObjectId) : Bool :=
  g.resolveRename parent == g.resolveRename child ||
    (g.inheritanceAncestors (g.edges.length + 2) []
      [g.resolveRename parent]).contains (g.resolveRename child)

end DependencyGraph

/-- Parents that share a column agree on its type, as far as it is known. -/
def compatibleColumnTypes (left right : Column) : Bool :=
  match left.typeId, right.typeId, left.dataType, right.dataType with
  | some left, some right, _, _ => decide (left = right)
  | _, _, some left, some right => eqIgnoreAsciiCase (trimText left) (trimText right)
  | _, _, _, _ => false

def compatibleDefaults (left right : Column) : Bool :=
  left.default.isNone || right.default.isNone || decide (left.default = right.default)

def mergeColumn (existing column : Column) : Column :=
  let merged := { existing with isNullable := existing.isNullable && column.isNullable }
  if merged.default.isNone then
    { merged with default := column.default, defaultExprText := column.defaultExprText }
  else merged

namespace CreateTable

variable (text : SqlText) (create : CreateTable)

def mergeInheritedColumn (sources : TableSources) (column : Column) : Statement TableSources := do
  match sources.columns.find? fun c => c.name == column.name with
  | none => pure { sources with
      columns := sources.columns ++ [column], names := sources.names ++ [column.name] }
  | some existing =>
    if !compatibleColumnTypes existing column || !compatibleDefaults existing column then
      refuse ("inherited column '" ++ column.name ++ "' has incompatible parent definitions")
    else pure { sources with
      columns := updateFirst (fun c => c.name == column.name) (mergeColumn · column)
        sources.columns }

def mergeGeneratedColumn (sources : TableSources) (generated : String × GeneratedColumnState) :
    Statement TableSources :=
  if (sources.generatedColumns.lookup generated.1).any fun existing =>
      decide (existing ≠ generated.2) then
    refuse ("inherited generated column '" ++ generated.1 ++
      "' has incompatible parent definitions")
  else pure { sources with
    generatedColumns := sources.generatedColumns.insert generated.1 generated.2 }

def mergeInheritedCheck (parent : ObjectId) (sources : TableSources)
    (constraint : ConstraintState) : Statement TableSources := do
  match constraint.definition, (← get).checkConstraintColumns parent constraint.name with
  | some definition, some columns =>
    if (sources.inheritedChecks.lookup constraint.name).any fun existing =>
        decide (text.normalizedConstraintExpression existing.2 ≠
          text.normalizedConstraintExpression definition) then
      refuse ("inherited CHECK constraint '" ++ constraint.name ++
        "' has incompatible parent definitions")
    else pure { sources with
      inheritedChecks := sources.inheritedChecks.insert constraint.name (columns, definition) }
  | _, _ => leaveUnresolved .catalogCoverageIncomplete

/-- The columns, generated columns and checks of one inheritance parent. -/
def inheritFrom (sources : TableSources) (parentId : ObjectRef) : Statement TableSources := do
  ensureRelationTarget parentId RelationKind.isTableLike
    ("inheritance parent relation '" ++ parentId.display ++ "' does not exist")
    ("inheritance parent '" ++ parentId.display ++ "' is not a table")
  let s ← get
  refuseIf (s.graph.checkInheritanceCycle parentId.id create.id.id = true)
    ("inheriting '" ++ parentId.display ++ "' into '" ++ create.id.display ++
      "' would create an inheritance cycle")
  match s.presentRelation parentId.id with
  | none => leaveUnresolved .unknownObjectState
  | some parent =>
    let sources := { sources with complete := sources.complete && parent.columnsComplete }
    let sources ← parent.columns.foldlM mergeInheritedColumn sources
    let sources ← (parent.generatedColumns.entries.map fun entry => (entry.1, entry.2)).foldlM
      mergeGeneratedColumn sources
    (s.checksOf parentId.id).foldlM (mergeInheritedCheck text parentId.id) sources

def copyCompositeField (sources : TableSources) (field : CompositeFieldState) :
    Statement TableSources :=
  if field.name ∈ sources.names then
    refuse ("column '" ++ field.name ++ "' is copied from more than one source")
  else pure { sources with
    names := sources.names ++ [field.name]
    columns := sources.columns ++ [.migrationCreated field.name (some field.dataType) true none] }

/-- The name of a copied statistics object; its target starts anew. -/
def copyStatistics (s : AnalysisState) (sources : TableSources)
    (statistics : ExtendedStatisticsState) : TableSources :=
  let id := s.nextGeneratedStatisticsNameAvoiding create.id.id.schema create.id.id.name
    statistics.columns sources.reservedStatisticsIds
  { sources with
    reservedStatisticsIds := id :: sources.reservedStatisticsIds
    extendedStatistics := sources.extendedStatistics ++ [{ statistics with id, target := none }] }

def copiedDependencyEdge (source : ObjectId) (properties : LikeProperties) (e : DependencyEdge) :
    Option ColumnDependency :=
  if e.dependent ≠ source then none
  else match e.kind with
    | .columnGeneratedFrom column dependsOnColumn =>
      if properties.generated then
        some ⟨⟨create.id.id, create.id.id, .columnGeneratedFrom column dependsOnColumn⟩, rfl⟩
      else none
    | .columnDefaultOnSequence column =>
      if properties.defaults then
        some ⟨⟨create.id.id, e.referenced, .columnDefaultOnSequence column⟩, rfl⟩
      else none
    | _ => none

def copyIdentityColumn (source : ObjectId) (sources : TableSources)
    (identity : String × IdentityGeneration) : Statement TableSources := do
  match (← get).identityParameters source identity.1 with
  | none => leaveUnresolved .catalogCoverageIncomplete
  | some parameters => pure { sources with
      identityColumns := sources.identityColumns ++ [(identity.1, identity.2, parameters)] }

def copyIdentityColumns (source : ObjectId) (properties : LikeProperties)
    (relation : RelationState) (sources : TableSources) : Statement TableSources :=
  if properties.identity then
    (relation.identityColumns.entries.map fun entry => (entry.1, entry.2)).foldlM
      (copyIdentityColumn source) sources
  else pure sources

def copyCheck (source : ObjectId) (sources : TableSources) (constraint : ConstraintState) :
    Statement TableSources := do
  match (← get).checkConstraintColumns source constraint.name, constraint.definition with
  | some columns, some definition => pure { sources with
      checkConstraints := sources.checkConstraints ++ [(constraint.name, columns, definition)] }
  | _, _ => leaveUnresolved .catalogCoverageIncomplete

def copyChecks (source : ObjectId) (properties : LikeProperties) (sources : TableSources) :
    Statement TableSources := do
  if properties.constraints then ((← get).checksOf source).foldlM (copyCheck source) sources
  else pure sources

/-- The index a constraint implies where the catalog shows none. -/
def impliedIndex (columns : List String) (isKey isUnique : Bool) : IndexKind :=
  ⟨.indexOnRelation
    { method := if isKey then some "btree" else none, keys := indexKeys columns, included := [],
      expressionKeys := 0, unique := isUnique, nullsNotDistinct := some false, predicate := .none,
      unestablished := !isKey, valid := true, ready := true, live := true }
    columns true false true true, rfl⟩

def copyImpliedIndex (source : ObjectId) (sources : TableSources) (constraint : ConstraintState) :
    Statement TableSources := do
  match (← get).indexConstraintColumns source constraint.name with
  | none => leaveUnresolved .catalogCoverageIncomplete
  | some (columns, isKey) => pure { sources with
      indexes := sources.indexes ++ [(impliedIndex columns isKey
        (AnalysisState.isKeyConstraint constraint.kind), some (constraint.kind, columns))] }

def copyIndexes (source : ObjectId) (properties : LikeProperties) (sources : TableSources) :
    Statement TableSources := do
  if properties.indexes then
    let s ← get
    let recorded := s.indexesWithConstraints source
    let copied : List String := recorded.filterMap fun index => index.2.map (·.1)
    let sources := { sources with
      indexes := sources.indexes ++ recorded.map fun index => (index.1, index.2.map (·.2)) }
    let implied := (s.constraintsOf source).filter fun c =>
      AnalysisState.isIndexBacked c.kind && decide (c.name ∉ copied)
    implied.foldlM (copyImpliedIndex source) sources
  else pure sources

/-- A column as `LIKE` copies it: each property only where it is selected. -/
def likeColumn (properties : LikeProperties) (column : Column) : Column :=
  { column with
    default := if properties.defaults then column.default else none
    defaultExprText := if properties.defaults then column.defaultExprText else none
    storage := if properties.storage then column.storage else none
    compression := if properties.compression then column.compression else none
    statisticsTarget := none
    options := ∅
    generated := if properties.generated then column.generated else some false }

def copyLikeColumn (properties : LikeProperties) (sources : TableSources) (column : Column) :
    Statement TableSources :=
  if column.name ∈ sources.names then
    refuse ("column '" ++ column.name ++ "' is copied from more than one source relation")
  else pure { sources with
    names := sources.names ++ [column.name]
    columns := sources.columns ++ [likeColumn properties column] }

def isRowTypeKind : RelationKind → Bool
  | .table => true
  | .view => true
  | .materializedView => true
  | .foreignTable => false

def copyLikeRelation (like : LikeSource) (sources : TableSources) : Statement TableSources := do
  let sourceId := like.relation.id
  let properties := like.properties
  ensureRelationTarget like.relation isRowTypeKind
    ("LIKE source relation '" ++ like.relation.display ++ "' does not exist")
    ("LIKE source '" ++ like.relation.display ++ "' cannot provide a table row type")
  let s ← get
  match s.presentRelation sourceId with
  | none => leaveUnresolved .unknownObjectState
  | some source =>
    let sources := { sources with complete := sources.complete && source.columnsComplete }
    let sources := if properties.statistics then
        (source.extendedStatistics.entries.map (·.2)).foldl (create.copyStatistics s) sources
      else sources
    let sources := { sources with
      dependencyEdges := sources.dependencyEdges ++
        s.graph.edges.filterMap (create.copiedDependencyEdge sourceId properties) }
    let sources ← copyIdentityColumns sourceId properties source sources
    let sources := if properties.generated then
        { sources with
          likeGeneratedColumns := sources.likeGeneratedColumns ++
            source.generatedColumns.entries.map fun entry => (entry.1, entry.2) }
      else sources
    let sources ← copyChecks sourceId properties sources
    let sources ← copyIndexes sourceId properties sources
    source.columns.foldlM (copyLikeColumn properties) sources

/-- A source that is no relation may still be a composite type. -/
def copyLike (sources : TableSources) (like : LikeSource) : Statement TableSources := do
  let s ← get
  let fields : Option (List CompositeFieldState) :=
    if s.relationIsPresent like.relation.id then none
    else match s.types.lookup like.relation.id with
      | some (.present { kind := .composite fields, .. }) => some fields
      | _ => none
  match fields with
  | some fields => fields.foldlM copyCompositeField sources
  | none => create.copyLikeRelation like sources

def copyPartitionColumn (sources : TableSources) (column : Column) : Statement TableSources :=
  if column.name ∈ sources.names then
    refuse ("partition column '" ++ column.name ++ "' conflicts with another table source")
  else pure { sources with
    names := sources.names ++ [column.name], columns := sources.columns ++ [column] }

/-- The foreign keys of the parent that carry a name. -/
def namedForeignKey (parent : ObjectId) (e : DependencyEdge) : Option (String × ForeignKeyEdge) :=
  if h : e.dependent = parent ∧ e.kind.isForeignKey = true then
    e.kind.foreignKeyName.map fun name => (name, ⟨e, h.2⟩)
  else none

def copyPartitionParent (sources : TableSources) (parentId : ObjectRef) :
    Statement TableSources := do
  ensureRelationTarget parentId (· == .table)
    ("partition parent relation '" ++ parentId.display ++ "' does not exist")
    ("partition parent '" ++ parentId.display ++ "' is not a table")
  let s ← get
  match s.presentRelation parentId.id with
  | none => leaveUnresolved .unknownObjectState
  | some parent =>
    let sources := { sources with complete := sources.complete && parent.columnsComplete }
    refuseIf (parent.partitionType = none)
      ("partition parent '" ++ parentId.display ++ "' is not partitioned")
    let sources ← parent.columns.foldlM copyPartitionColumn sources
    let sources := { sources with
      generatedColumns := parent.generatedColumns.entries.foldl
        (fun m entry => m.insert entry.1 entry.2) sources.generatedColumns }
    let sources ← (s.checksOf parentId.id).foldlM (copyCheck parentId.id) sources
    pure { sources with
      indexes := sources.indexes ++
        (s.indexesWithConstraints parentId.id).map fun index => (index.1, index.2.map (·.2))
      partitionForeignKeys := sources.partitionForeignKeys ++
        s.graph.edges.filterMap (namedForeignKey parentId.id) }

/-- All the sources, in the order of the statement. -/
def sources : Statement TableSources := do
  let sources ← create.inherits.foldlM (create.inheritFrom text) {}
  let sources := { sources with
    checkConstraints := sources.checkConstraints ++
      sources.inheritedChecks.entries.map fun entry => (entry.1, entry.2.1, entry.2.2) }
  let sources ← create.likeSources.foldlM create.copyLike sources
  match create.partitionOf with
  | none => pure sources
  | some parent => copyPartitionParent sources parent

/-- A declared column repeats an inherited one only under the same type. One that the
statement itself repeats makes the source panic; here it is refused. -/
def checkColumn (inherited : List Column) (names : List String) (column : ColumnMutation) :
    Statement (List String) :=
  if column.name ∈ names then
    let known := (inherited.find? fun c => c.name == column.name).bind (·.dataType)
    match known, column.ty with
    | some left, some right =>
      if eqIgnoreAsciiCase (trimText left) (trimText right) then pure names
      else refuse ("column '" ++ column.name ++ "' conflicts with an inherited column type")
    | _, _ => refuse ("column '" ++ column.name ++ "' conflicts with an inherited column type")
  else pure (names ++ [column.name])

/-- What the source expects of the declared columns, where no panic stops it. -/
def WritesColumnsOnce : Prop := (create.columns.map (·.name)).Nodup

def checkGeneratedColumn (names : List String) (column : ColumnMutation) : Statement Unit :=
  match column.generatedExpr with
  | none => pure ()
  | some expr => match expr.referencedColumns with
    | none => leaveUnresolvedStatement .unsupportedSemantics
    | some references =>
      match (references.insertionSort (· ≤ ·)).find? fun reference =>
          reference == column.name || decide (reference ∉ names) with
      | some reference => refuse ("generated expression for '" ++ create.id.display ++ "." ++
          column.name ++ "' references invalid column '" ++ reference ++ "'")
      | none => pure ()

def primaryDeclarations : Nat :=
  (create.columns.filter (·.isPrimaryKey)).length +
    (create.tableConstraints.filterMap TableConstraintFact.primaryKeyColumns).length

/-- The columns of the primary key, from its table constraint if it has one. -/
def primaryKeyColumns : List String :=
  (create.tableConstraints.findSome? TableConstraintFact.primaryKeyColumns).getD
    ((create.columns.filter (·.isPrimaryKey)).map (·.name))

/-- Unique keys with the names they were given, inline ones first. -/
def uniqueConstraints : List (Option String × List String) :=
  (create.columns.filter (·.isUnique)).map (fun c => (c.uniqueConstraintName, [c.name])) ++
    create.tableConstraints.filterMap fun constraint =>
      match constraint with
      | .unique constraintName columns => some (constraintName, columns)
      | _ => none

def checkKeyColumns (names : List String) : List String → List String → Statement Unit
  | _, [] => pure ()
  | seen, column :: columns =>
    if column ∈ seen then
      refuse ("column '" ++ column ++ "' appears more than once in a key constraint")
    else if column ∉ names then
      refuse ("constraint references column '" ++ column ++ "' which does not exist on relation '" ++
        create.id.display ++ "'")
    else checkKeyColumns names (column :: seen) columns

def checkKeyConstraint (names : List String) (constraint : TableConstraintFact) : Statement Unit :=
  match constraint with
  | .primaryKey _ columns | .unique _ columns =>
    if columns.isEmpty then refuse "key constraint must name at least one column"
    else create.checkKeyColumns names [] columns
  | .check .. | .exclude .. => pure ()

/-- The first element that repeats an earlier one. -/
def firstRepeated (seen : List String) : List String → Option String
  | [] => none
  | x :: xs => if x ∈ seen then some x else firstRepeated (x :: seen) xs

def checkForeignKeyColumns (names : List String) (fk : FkMutation) : Statement Unit := do
  refuseIf (fk.fromColumns = [])
    ("foreign key on relation '" ++ create.id.display ++ "' has no source columns")
  refuseIf (fk.toColumns ≠ [] ∧ fk.fromColumns.length ≠ fk.toColumns.length)
    ("foreign key on '" ++ create.id.display ++ "' has " ++ toString fk.fromColumns.length ++
      " source columns but " ++ toString fk.toColumns.length ++ " referenced columns")
  refuseFound (firstRepeated [] fk.fromColumns) fun column =>
    "foreign key on '" ++ create.id.display ++ "' repeats source column '" ++ column ++ "'"
  refuseFound (firstRepeated [] fk.toColumns) fun column =>
    "foreign key on '" ++ create.id.display ++ "' repeats referenced column '" ++ column ++ "'"
  refuseFound (fk.fromColumns.find? fun column => decide (column ∉ names)) fun column =>
    "foreign key column '" ++ column ++ "' does not exist on relation '" ++
      create.id.display ++ "'"

/-- The column names of the referenced table. -/
def foreignKeyTargetColumns (names : List String) (fk : FkMutation) : Statement (List String) := do
  if fk.toTable.id = create.id.id then pure names
  else do
    ensureRelationTarget fk.toTable (· == .table)
      ("foreign key references relation '" ++ fk.toTable.display ++ "' which does not exist")
      ("foreign key references '" ++ fk.toTable.display ++ "' which is not a table")
    match (← get).presentRelation fk.toTable.id with
    | some parent => pure (parent.columns.map (·.name))
    | none => leaveUnresolved .unknownObjectState

def declaredKeys : List (List String × Bool) :=
  (if create.primaryDeclarations = 1 then [(create.primaryKeyColumns, true)] else []) ++
    (create.tableConstraints.filterMap fun constraint =>
      match constraint with
      | .unique _ columns => some (columns, false)
      | _ => none) ++
    (create.columns.filter (·.isUnique)).map fun c => ([c.name], false)

/-- The referenced columns, which default to the only primary key. -/
def referencedKeyColumns (fk : FkMutation) (keys : Option (List (List String × Bool))) :
    Statement (List String) :=
  if fk.toColumns.isEmpty then
    let primaryKeys := (keys.getD []).filterMap fun key => if key.2 then some key.1 else none
    if keys.isSome && primaryKeys.length != 1 then
      refuse ("foreign key on '" ++ create.id.display ++ "' omits referenced columns but target '" ++
        fk.toTable.display ++ "' has no single primary key")
    else pure (primaryKeys.headD [])
  else pure fk.toColumns

abbrev TypeEvidence := Option (Option ObjectId × Option String)

/-- What the statement says of a column's type, before its inherited column. -/
def declaredTypeEvidence (s : AnalysisState) (inherited : List Column) (column : String) :
    TypeEvidence :=
  ((create.columns.find? fun c => c.name == column).map fun c =>
    (c.ty.bind (s.resolveTypeReference text), c.ty)) <|>
  ((inherited.find? fun c => c.name == column).map fun c => (c.typeId, c.dataType))

/-- Whether two columns differ in type, if that is known. -/
def typesDiffer : TypeEvidence → TypeEvidence → Option Bool
  | some (some left, _), some (some right, _) => some (decide (left ≠ right))
  | some (_, some left), some (_, some right) =>
    some (!eqIgnoreAsciiCase (trimText left) (trimText right))
  | _, _ => none

def planForeignKey (inherited : List Column) (names : List String) (fk : FkMutation) :
    Statement (List String) := do
  create.checkForeignKeyColumns names fk
  let targetColumns ← create.foreignKeyTargetColumns names fk
  let s ← get
  let targetColumnsKnown := !s.baselineRelationIsKnown fk.toTable.id || !targetColumns.isEmpty
  let unknownColumn := fk.toColumns.find? fun column => decide (column ∉ targetColumns)
  refuseFound (if targetColumnsKnown then unknownColumn else none) fun column =>
    "foreign key references column '" ++ fk.toTable.display ++ "." ++ column ++
      "' which does not exist"
  let targetKeys := if fk.toTable.id = create.id.id then some create.declaredKeys
    else s.uniqueKeysForRelation fk.toTable.id
  let referenced ← create.referencedKeyColumns fk targetKeys
  refuseIf (targetKeys.any (fun keys => !keys.any fun key => key.1 == referenced) = true)
    ("foreign key on '" ++ create.id.display ++ "' references columns on '" ++
      fk.toTable.display ++ "' that are not backed by a primary key or unique key")
  taintIf (targetKeys = none) .catalogCoverageIncomplete .chain
  let targetTypes : List TypeEvidence :=
    if fk.toTable.id = create.id.id then
      referenced.map (create.declaredTypeEvidence text s inherited)
    else match s.presentRelation fk.toTable.id with
      | some parent => referenced.map fun column =>
        (parent.getColumn column).map fun c => (c.typeId, c.dataType)
      | none => []
  let sourceTypes := fk.fromColumns.map (create.declaredTypeEvidence text s inherited)
  let differences := (sourceTypes.zip targetTypes).map fun types => typesDiffer types.1 types.2
  leaveUnresolvedIf (some true ∈ differences) .catalogCoverageIncomplete
  taintIf (none ∈ differences) .catalogCoverageIncomplete .chain
  pure referenced

structure ImplicitSequence where
  id : ObjectId
  column : String
  kind : SequenceKind
  parameters : SequenceParameters

/-- The kind of sequence a column generates, if it generates one. -/
def generatedSequenceKind : ColumnGeneration → Option SequenceKind
  | .serial => some .serialLike
  | .identityAlways => some .identity
  | .identityByDefault => some .identity
  | _ => none

def alreadyExists (r : ObjectRef) : String := "relation '" ++ r.display ++ "' already exists"

def planSequence (planned : List ImplicitSequence) (column : ColumnMutation) :
    Statement (List ImplicitSequence) := do
  match generatedSequenceKind column.generation with
  | none => pure planned
  | some kind =>
    let s ← get
    let reserved := planned.map (·.id)
    let sequence := (column.identitySequence.bind (·.sequenceName)).getD
      ⟨s.nextImplicitSequenceId create.id.id column.name reserved, false⟩
    refuseIf (s.relationNamespaceIsTaken sequence.id = true ∨ sequence.id ∈ reserved)
      (alreadyExists sequence)
    let parameters : Except String SequenceParameters :=
      if kind = .serialLike then .ok (defaultColumnSequenceParameters column.ty create.persistence)
      else identitySequenceParameters column.ty create.persistence column.identitySequence
    match parameters with
    | .error reason => refuse reason
    | .ok parameters => pure (planned ++ [⟨sequence.id, column.name, kind, parameters⟩])

def planCopiedSequence (s : AnalysisState) (planned : List ImplicitSequence)
    (identity : String × IdentityGeneration × SequenceParameters) : List ImplicitSequence :=
  planned ++ [⟨s.nextImplicitSequenceId create.id.id identity.1 (planned.map (·.id)), identity.1,
    .identity, identity.2.2⟩]

structure InlineConstraint where
  kind : ConstraintKind
  name : String
  definition : Option String
  columns : List String
  columnsComplete : Bool
  backingIndex : Option ObjectId

/-- The names of a statement's constraints and indexes, all chosen before the
table becomes visible. -/
structure TableNames where
  constraintNames : List String := []
  indexIds : List ObjectId := []
  primaryKey : Option String := none
  uniqueKeys : List (String × List String) := []
  foreignKeys : List String := []
  inlineConstraints : List InlineConstraint := []
  indexes : List (ObjectId × IndexKind × Option (ConstraintKind × List String)) := []

/-- Reserves a constraint name that the statement has not used yet. -/
def reserveConstraintName (verb : String) (names : TableNames) (name : String) :
    Statement TableNames :=
  if name ∈ names.constraintNames then
    refuse ("constraint '" ++ name ++ "' is " ++ verb ++ " more than once")
  else pure { names with constraintNames := names.constraintNames ++ [name] }

/-- Reserves the index that backs a constraint, in the schema of the table. -/
def reserveIndexId (names : TableNames) (name : String) : Statement TableNames := do
  let id : ObjectId := ⟨create.id.id.schema, name⟩
  if (← get).relationNamespaceIsTaken id then refuse (alreadyExists ⟨id, false⟩)
  else pure { names with indexIds := names.indexIds ++ [id] }

def generatedIndexName (s : AnalysisState) (names : TableNames) (name2 : Option String)
    (label : String) : String :=
  (s.nextGeneratedRelationNameAvoiding create.id.id.schema create.id.id.name name2 label
    names.indexIds).name

/-- The name given to the primary key, inline or as a table constraint. -/
def primaryKeyName : Option (Option String) :=
  ((create.columns.find? (·.isPrimaryKey)).map (·.primaryKeyConstraintName)) <|>
    create.tableConstraints.findSome? fun constraint =>
      match constraint with
      | .primaryKey constraintName _ => some constraintName
      | _ => none

def planPrimaryKey (names : TableNames) : Statement TableNames := do
  match create.primaryKeyName with
  | none => pure names
  | some explicitName =>
    let name := explicitName.getD (create.generatedIndexName (← get) names none "pkey")
    let names ← reserveConstraintName "specified" names name
    let names ← create.reserveIndexId names name
    pure { names with primaryKey := some name }

def planUniqueKey (names : TableNames) (key : Option String × List String) :
    Statement TableNames := do
  let name := key.1.getD
    (create.generatedIndexName (← get) names (some ("_".intercalate key.2)) "key")
  let names ← reserveConstraintName "specified" names name
  let names ← create.reserveIndexId names name
  pure { names with uniqueKeys := names.uniqueKeys ++ [(name, key.2)] }

def generatedConstraintName (s : AnalysisState) (names : TableNames) (name2 : Option String)
    (label : String) : String :=
  s.nextGeneratedConstraintNameAvoiding create.id.id create.id.id.name name2 label
    names.constraintNames

def planForeignKeyName (names : TableNames) (fk : FkMutation) : Statement TableNames := do
  let name := fk.constraintName.getD
    (create.generatedConstraintName (← get) names (some ("_".intercalate fk.fromColumns)) "fkey")
  let names ← reserveConstraintName "specified" names name
  pure { names with foreignKeys := names.foreignKeys ++ [name] }

/-- A written check may repeat an inherited one of the same expression. -/
def repeatsInheritedCheck (sources : TableSources) (name definition : String) : Bool :=
  (sources.inheritedChecks.lookup name).any fun inherited =>
    decide (text.normalizedConstraintExpression definition =
      text.normalizedConstraintExpression inherited.2)

def planInlineConstraint (sources : TableSources) (names : TableNames)
    (constraint : TableConstraintFact) : Statement TableNames := do
  let s ← get
  match constraint with
  | .primaryKey .. | .unique .. => pure names
  | .check explicitName nameHint definition columns columnsComplete =>
    let name := explicitName.getD (create.generatedConstraintName s names nameHint "check")
    if name ∈ names.constraintNames ∧ repeatsInheritedCheck text sources name definition = true then
      pure names
    else
      let names ← reserveConstraintName "specified" names name
      pure { names with
        inlineConstraints := names.inlineConstraints ++
          [⟨.check, name, some definition, columns, columnsComplete, none⟩] }
  | .exclude explicitName columns columnsComplete =>
    let nameHint := if columnsComplete then some ("_".intercalate columns) else none
    let name := explicitName.getD (create.generatedIndexName s names nameHint "excl")
    let names ← reserveConstraintName "specified" names name
    let names ← create.reserveIndexId names name
    pure { names with
      inlineConstraints := names.inlineConstraints ++
        [⟨.exclusion, name, none, columns, columnsComplete, some ⟨create.id.id.schema, name⟩⟩] }

/-- The name parts of the clone of an index. -/
def clonedIndexName (kind : IndexKind) (constraint : Option (ConstraintKind × List String)) :
    Option String × String :=
  match constraint with
  | some (.primaryKey, _) => (none, "pkey")
  | some (.unique, columns) => (some ("_".intercalate columns), "key")
  | some (_, columns) => (some ("_".intercalate columns), "excl")
  | none =>
    let columns := "_".intercalate ((kind.val.indexDefinition.map (·.keyColumnNames)).getD [])
    (if columns.isEmpty then none else some columns, "idx")

/-- A candidate whose name a constraint uses is set aside, and stays so. -/
def chooseIndexId (s : AnalysisState) (name : Option String × String) (backsConstraint : Bool)
    (constraintNames : List String) : Nat → List ObjectId → ObjectId × List ObjectId
  | 0, reserved => (s.nextGeneratedRelationNameAvoiding create.id.id.schema create.id.id.name
      name.1 name.2 reserved, reserved)
  | fuel + 1, reserved =>
    let candidate := s.nextGeneratedRelationNameAvoiding create.id.id.schema create.id.id.name
      name.1 name.2 reserved
    if backsConstraint && decide (candidate.name ∈ constraintNames) then
      chooseIndexId s name backsConstraint constraintNames fuel (reserved ++ [candidate])
    else (candidate, reserved)

def planIndex (s : AnalysisState) (names : TableNames)
    (index : IndexKind × Option (ConstraintKind × List String)) : TableNames :=
  let (id, reserved) := create.chooseIndexId s (clonedIndexName index.1 index.2) index.2.isSome
    names.constraintNames names.constraintNames.length names.indexIds
  { names with
    indexIds := reserved ++ [id]
    constraintNames :=
      if index.2.isSome then names.constraintNames ++ [id.name] else names.constraintNames
    indexes := names.indexes ++ [(id, index.1, index.2)] }

def planNames (sources : TableSources) : Statement TableNames := do
  let names ← (sources.checkConstraints.map (·.1)).foldlM (reserveConstraintName "copied") {}
  let names ← (sources.partitionForeignKeys.map (·.1)).foldlM
    (reserveConstraintName "inherited") names
  let names ← create.planPrimaryKey names
  let names ← create.uniqueConstraints.foldlM create.planUniqueKey names
  let names ← create.foreignKeys.foldlM create.planForeignKeyName names
  let names ← create.tableConstraints.foldlM (create.planInlineConstraint text sources) names
  let s ← get
  pure (sources.indexes.foldl (create.planIndex s) names)

/-- What the statement will write, once nothing speaks against it. -/
structure TablePlan where
  sources : TableSources
  referencedColumns : List (List String)
  sequences : List ImplicitSequence
  names : TableNames

def plan : Statement TablePlan := do
  let sources ← create.sources text
  let columnNames ← create.columns.foldlM (checkColumn sources.columns) sources.names
  create.columns.forM (create.checkGeneratedColumn columnNames)
  refuseIf (1 < create.primaryDeclarations) "multiple primary keys for table are not allowed"
  create.tableConstraints.forM (create.checkKeyConstraint columnNames)
  let referencedColumns ←
    create.foreignKeys.mapM (create.planForeignKey text sources.columns columnNames)
  let sequences ← create.columns.foldlM create.planSequence []
  let s ← get
  let sequences := sources.identityColumns.foldl (create.planCopiedSequence s) sequences
  let names ← create.planNames text sources
  pure { sources, referencedColumns, sequences, names }

end CreateTable

end SafeMigrate
