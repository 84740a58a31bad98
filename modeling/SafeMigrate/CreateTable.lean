import SafeMigrate.CreateTablePlan

/-! `CREATE TABLE`: the checks before its plan, and the writes that make the
planned table visible. -/

namespace SafeMigrate

namespace CreateTable

variable (text : SqlText) (create : CreateTable) (plan : TablePlan)

/-- The relation before its declared columns. -/
def initialRelation (s : AnalysisState) (generation : Nat) : RelationState :=
  { RelationState.new create.id.id ⟨"", s.currentRole⟩ generation
      (if create.asSelect then none else some 0) .table create.persistence
      s.transactions.length with
    onCommit := create.onCommit
    ofType := create.ofType.map (·.id)
    columns := plan.sources.columns
    columnsComplete :=
      plan.sources.complete && (!create.asSelect || create.asSelectColumnsKnown)
    identityColumns := plan.sources.identityColumns.foldl
      (fun m identity => m.insert identity.1 identity.2.1) ∅
    generatedColumns := plan.sources.likeGeneratedColumns.foldl
      (fun m generated => m.insert generated.1 generated.2) plan.sources.generatedColumns
    extendedStatistics := plan.sources.extendedStatistics.foldl
      (fun m statistics => m.insert statistics.id statistics) ∅
    partitionType := create.partitionStrategy.map fun strategy =>
      String.ofList (strategy.toList.map Char.toUpper)
    partitionBy := create.partitionBy
    partitionKeys := create.partitionKeys
    partitionBound := create.partitionBound.map text.canonicalPartitionBound }

def isPrimaryKeyColumn (column : ColumnMutation) : Bool :=
  column.isPrimaryKey || (create.tableConstraints.filterMap
    TableConstraintFact.primaryKeyColumns).flatten.contains column.name

def generatedColumnKind : ColumnGeneration → Option GeneratedColumnKind
  | .generatedStored => some .stored
  | .generatedVirtual => some .virtual
  | _ => none

def identityGeneration : ColumnGeneration → Option IdentityGeneration
  | .identityAlways => some .always
  | .identityByDefault => some .byDefault
  | _ => none

/-- What a declaration says of the column it names, new or inherited. -/
def declareOver (s : AnalysisState) (column : ColumnMutation) (notNull : Bool) (c : Column) :
    Column :=
  { c with
    isNullable := c.isNullable && !notNull
    default := if column.default.isSome then normalizeColumnDefault column.default else c.default
    defaultExprText := if column.default.isSome then none else c.defaultExprText
    typeId := c.dataType.bind (s.resolveTypeReference text)
    typeModifier := column.typeModifier
    generated := if (generatedColumnKind column.generation).isSome then some true else c.generated }

def declareColumn (declared : RelationState × List String) (column : ColumnMutation) :
    Statement (RelationState × List String) := do
  column.ty.toList.forM (checkDeclaredType text)
  let s ← get
  let notNull := column.notNull || create.isPrimaryKeyColumn column
  let relation := declared.1.addColumn column.name column.ty notNull column.default
  let relation := relation.updateColumn column.name (declareOver text s column notNull)
  let relation := match generatedColumnKind column.generation with
    | some kind => { relation with
        generatedColumns := relation.generatedColumns.insert column.name
          ⟨kind, column.generatedExprSql⟩ }
    | none => relation
  let relation := match identityGeneration column.generation with
    | some generation => { relation with
        identityColumns := relation.identityColumns.insert column.name generation }
    | none => relation
  pure (relation, if notNull then declared.2 ++ [column.name] else declared.2)

/-- Where a column comes from: how many parents have it, and whether the table
declares it itself. -/
def columnProvenance (s : AnalysisState) (column : Column) : ColumnInheritance :=
  let parents := create.inherits ++ create.partitionOf.toList
  let parentCount := (parents.filter fun parent =>
    (s.presentRelation parent.id).any (·.hasColumn column.name)).length
  { parentCount
    isLocal := create.partitionOf.isNone &&
      (parentCount == 0 || create.columns.any (·.name == column.name)) }

def finishRelation (s : AnalysisState) (relation : RelationState) : RelationState :=
  let relation := { relation with
    columnInheritance := relation.columns.foldl
      (fun m column => m.insert column.name (create.columnProvenance s column))
      relation.columnInheritance }
  plan.sequences.foldl (fun relation sequence =>
    relation.updateColumn sequence.column (·.withSequenceDefault sequence.id)) relation

/-- The edges from a generated column to the columns it reads. -/
def addGeneratedEdges (s : AnalysisState) (column : ColumnMutation) : AnalysisState :=
  match column.generatedExpr with
  | none => s
  | some expr => match expr.referencedColumns with
    | none => s.taint .unsupportedSemantics .statement
    | some references => s.addGraphEdges ((references.insertionSort (· ≤ ·)).map fun reference =>
        ⟨create.id.id, create.id.id, .columnGeneratedFrom column.name reference⟩)

/-- A validated constraint of the new table. -/
def newConstraint (name : String) (kind : ConstraintKind) (definition : Option String)
    (backingIndex : Option ObjectId) : ConstraintState :=
  { tableId := create.id.id, name, kind, validated := true, definition, backingIndex }

def addCopiedCheck (s : AnalysisState) (check : String × List String × String) : AnalysisState :=
  let s := s.putConstraint (create.newConstraint check.1 .check (some check.2.2) none)
  s.addGraphEdge ⟨create.id.id, create.id.id, .constraintDependency check.1 check.2.1⟩

/-- The edge that records the columns of an index-backed constraint. -/
def constraintColumnsKind (name : String) (kind : ConstraintKind) (columns : List String) :
    DependencyKind :=
  if AnalysisState.isKeyConstraint kind then
    .constraintOnRelation name columns (decide (kind = .primaryKey))
  else .constraintDependency name columns

def addCopiedIndex (s : AnalysisState)
    (index : ObjectId × IndexKind × Option (ConstraintKind × List String)) : AnalysisState :=
  let s := s.addGraphEdge ⟨index.1, create.id.id, index.2.1.val⟩
  match index.2.2 with
  | none => s
  | some (kind, columns) =>
    let s := s.putConstraint (create.newConstraint index.1.name kind none (some index.1))
    s.addGraphEdge ⟨create.id.id, create.id.id, constraintColumnsKind index.1.name kind columns⟩

def addImplicitSequence (s : AnalysisState) (sequence : ImplicitSequence) : AnalysisState :=
  let s := s.putSequence sequence.id fun s =>
    { id := sequence.id, owner := ⟨"", s.currentRole⟩,
      ownedBy := some (create.id.id, sequence.column), kind := sequence.kind,
      parameters := sequence.parameters, runtime := .fresh sequence.parameters.startValue,
      runtimeExact := true, generation := s.generationCounter }
  s.addGraphEdge ⟨sequence.id, create.id.id, .sequenceOwnedBy sequence.column⟩

def indexIdOf (name : String) : ObjectId := ⟨create.id.id.schema, name⟩

def addPrimaryKey (s : AnalysisState) : AnalysisState :=
  match plan.names.primaryKey with
  | none => s
  | some name =>
    let s := s.putConstraint
      (create.newConstraint name .primaryKey none (some (create.indexIdOf name)))
    s.addGraphEdge ⟨create.indexIdOf name, create.id.id,
      constraintIndexDependency create.primaryKeyColumns true⟩

def addUniqueKey (s : AnalysisState) (key : String × List String) : AnalysisState :=
  let s := s.putConstraint
    (create.newConstraint key.1 .unique none (some (create.indexIdOf key.1)))
  s.addGraphEdges
    [⟨create.indexIdOf key.1, create.id.id, constraintIndexDependency key.2 true⟩,
      ⟨create.id.id, create.id.id, .constraintOnRelation key.1 key.2 false⟩]

def addParentEdges (s : AnalysisState) : AnalysisState :=
  let s := match create.partitionOf with
    | some parent => s.addGraphEdge ⟨create.id.id, parent.id, .partitionOf⟩
    | none => s
  create.inherits.foldl (fun s parent =>
    s.addGraphEdge ⟨create.id.id, parent.id, .inheritanceOf⟩) s

def foreignKeyWrite (generation : Nat) (fk : FkMutation × String × List String) :
    ConstraintState × DependencyEdge :=
  (create.newConstraint fk.2.1 .foreignKey none none,
    ⟨create.id.id, fk.1.toTable.id,
      .foreignKey (some fk.2.1) fk.1.fromColumns fk.2.2 none generation⟩)

def addForeignKeys (s : AnalysisState) (generation : Nat) : AnalysisState :=
  if create.foreignKeys.isEmpty then s
  else s.putConstraintEdges
    ((create.foreignKeys.zip (plan.names.foreignKeys.zip plan.referencedColumns)).map
      (create.foreignKeyWrite generation))

/-- The edge of an inherited foreign key, under the new table's generation. -/
def inheritedForeignKeyKind (name : String) (generation : Nat) : DependencyKind → DependencyKind
  | .foreignKey _ fromColumns toColumns operatorEvidence _ =>
    .foreignKey (some name) fromColumns toColumns operatorEvidence generation
  | kind => kind

def addInheritedForeignKey (generation : Nat) (s : AnalysisState)
    (fk : String × ForeignKeyEdge) : AnalysisState :=
  let s := s.putConstraint (create.newConstraint fk.1 .foreignKey none none)
  s.addGraphEdge
    ⟨create.id.id, fk.2.val.referenced, inheritedForeignKeyKind fk.1 generation fk.2.val.kind⟩

/-- The index of an exclusion constraint, whose shape its columns leave open. -/
def exclusionIndex (columns : List String) (columnsComplete : Bool) : DependencyKind :=
  .indexOnRelation
    { method := none, keys := indexKeys columns, included := [], expressionKeys := 0,
      unique := false, nullsNotDistinct := some false, predicate := .none,
      unestablished := true, valid := true, ready := true, live := true }
    columns columnsComplete false true false

def addExclusionIndex (s : AnalysisState) (constraint : InlineConstraint) : AnalysisState :=
  match constraint.backingIndex with
  | some index => s.addGraphEdge
      ⟨index, create.id.id, exclusionIndex constraint.columns constraint.columnsComplete⟩
  | none => s

def addInlineConstraint (s : AnalysisState) (constraint : InlineConstraint) : AnalysisState :=
  let s := s.putConstraint (create.newConstraint constraint.name constraint.kind
    constraint.definition constraint.backingIndex)
  let s := create.addExclusionIndex s constraint
  if constraint.columnsComplete then
    s.addGraphEdge ⟨create.id.id, create.id.id,
      .constraintDependency constraint.name constraint.columns⟩
  else s.taint .catalogCoverageIncomplete .chain

def addPrimaryKeyColumns (s : AnalysisState) : AnalysisState :=
  match plan.names.primaryKey with
  | none => s
  | some name => s.addGraphEdge ⟨create.id.id, create.id.id,
      .constraintOnRelation name create.primaryKeyColumns true⟩

def setPartitionConstraint (s : AnalysisState) (parent : ObjectId) : AnalysisState :=
  match s.generatedPartitionConstraint text parent create.id.id with
  | some constraint => s.modifyRelation create.id.id fun relation =>
      { relation with partitionConstraint := some constraint }
  | none => s

end CreateTable

namespace AnalysisState

/-- The not-null constraint of a column, if the catalog has one. -/
def notNullConstraintForColumn (s : AnalysisState) (table : ObjectId) (column : String) :
    Option (ObjectId × String) :=
  s.graph.edges.findSome? fun e =>
    if s.graph.resolveRename e.dependent = table then
      match e.kind with
      | .constraintOnRelation constraintName columns false =>
        if columns = [column] then some (table, constraintName) else none
      | _ => none
    else none

/-- PostgreSQL lists not-null constraints from version 18 on. -/
def registerNotNullConstraint (table : ObjectId) (s : AnalysisState) (column : String) :
    AnalysisState :=
  if s.conservativePgVersion < 180000 ∨ (s.notNullConstraintForColumn table column).isSome then s
  else
    let name := s.nextGeneratedConstraintNameAvoiding table table.name (some column) "not_null" []
    let s := s.putConstraint
      { tableId := table, name, kind := .notNull, validated := true, definition := none,
        backingIndex := none }
    s.addGraphEdge ⟨table, table, .constraintOnRelation name [column] false⟩

end AnalysisState

namespace CreateTable

variable (text : SqlText) (create : CreateTable) (plan : TablePlan)

/-- The constraints, indexes and sequences of the table, in the order of their
undo entries. -/
def addObjects (generation : Nat) (notNullColumns : List String) (s : AnalysisState) :
    AnalysisState :=
  let s := if plan.sources.dependencyEdges.isEmpty then s
    else s.addGraphEdges (plan.sources.dependencyEdges.map (·.val))
  let s := create.columns.foldl create.addGeneratedEdges s
  let s := notNullColumns.foldl (AnalysisState.registerNotNullConstraint create.id.id) s
  let s := plan.sources.checkConstraints.foldl create.addCopiedCheck s
  let s := plan.names.indexes.foldl create.addCopiedIndex s
  let s := plan.sequences.foldl create.addImplicitSequence s
  let s := create.addPrimaryKey plan s
  let s := plan.names.uniqueKeys.foldl create.addUniqueKey s
  let s := create.addParentEdges s
  let s := create.addForeignKeys plan s generation
  let s := plan.sources.partitionForeignKeys.foldl (create.addInheritedForeignKey generation) s
  let s := plan.names.inlineConstraints.foldl create.addInlineConstraint s
  create.addPrimaryKeyColumns plan s

/-- PostgreSQL builds and attaches a partition's indexes as part of creating it. -/
def attachToParent : Statement Unit := do
  match create.partitionOf with
  | none => pure ()
  | some parent =>
    modify fun s => create.setPartitionConstraint text s parent.id
    cloneRowTriggersToPartition parent.id create.id
    modify fun s => s.ensurePartitionIndexesAndConstraints parent.id create.id.id

def noteIfTemporary (s : AnalysisState) : AnalysisState :=
  if create.persistence = .temporary then s.noteTempObjectCreated else s

def execute : Statement MutationResult := do
  modify fun s => (s.snapshotRelation create.id.id).bumpGeneration
  let s ← get
  let generation := s.generationCounter
  let relation := create.initialRelation text plan s generation
  modify create.noteIfTemporary
  taintIf (create.asSelect = true ∧ create.asSelectColumnsKnown = false) .unsupportedSemantics
    .chain
  let (relation, notNullColumns) ←
    create.columns.foldlM (create.declareColumn text) (relation, [])
  modify fun s => s.setRelations
    (s.relations.insert create.id.id (.present (create.finishRelation plan s relation)))
  modify (create.addObjects plan generation notNullColumns)
  create.attachToParent text
  pure .applied

def isPartitioningStrategy (strategy : String) : Bool :=
  ["range", "list", "hash"].any fun valid => eqIgnoreAsciiCase strategy valid

def checkNamespace : Statement Unit := do
  if (← get).relationNamespaceIsTaken create.id.id then
    if create.ifNotExists then throw .noOp else refuse (alreadyExists create.id)
  else pure ()

/-- A typed table needs a composite type that is known to exist. -/
def checkOfType : Statement Unit := do
  match create.ofType with
  | none => pure ()
  | some type => match (← get).types.lookup type.id with
    | some (.present { kind := .composite _, .. }) => pure ()
    | some (.present _) => refuse ("type '" ++ type.display ++ "' is not composite")
    | some .dropped => refuse ("composite type '" ++ type.display ++ "' does not exist")
    | none => leaveUnresolved .unknownObjectState

def command : Statement MutationResult := do
  refuseFound (create.partitionStrategy.filter fun strategy => !isPartitioningStrategy strategy)
    fun strategy => "unrecognized partitioning strategy '" ++ strategy ++ "'"
  refuseIf (create.persistence = .temporary ∧ isSessionTempSchema create.id.id.schema = false)
    "cannot create temporary relation in non-temporary schema"
  ensureCreationTarget create.id
  create.checkNamespace
  create.checkOfType
  let plan ← create.plan text
  create.execute text plan

end CreateTable

def AnalysisState.applyCreateTable (s : AnalysisState) (text : SqlText) (create : CreateTable) :
    MutationResult × AnalysisState :=
  (create.command text).outcome s

end SafeMigrate
