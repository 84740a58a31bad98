import SafeMigrate.IndexTopology

/-! `ALTER TABLE ... RENAME TO` and `SET SCHEMA`: a relation or an index moves
to a new identity, with the sequences, indexes, triggers and constraints that
follow it, and every old identity stays behind as a rename alias. -/

namespace SafeMigrate

def renameId (oldId newId id : ObjectId) : ObjectId := if id = oldId then newId else id

namespace DependencyEdge

variable (oldId newId : ObjectId) (e : DependencyEdge)

/-- The ends of an edge that name relations. A referenced routine, type or
publication may share the relation's name. -/
def renameRelation : DependencyEdge :=
  match e.kind with
  | .renameTo | .indexPartitionOf => e
  | .foreignKey .. | .viewDependency .. | .inheritanceOf | .partitionOf | .partitionDetachPending
  | .constraintDependency .. | .columnGeneratedFrom .. | .constraintOnRelation .. =>
    { e with dependent := renameId oldId newId e.dependent,
             referenced := renameId oldId newId e.referenced }
  | .viewUsesRoutine _ | .viewUsesType | .columnDefaultOnSequence _ | .publicationIncludes _ =>
    { e with dependent := renameId oldId newId e.dependent }
  | .indexOnRelation .. | .sequenceOwnedBy _ | .triggerOnTable .. =>
    { e with referenced := renameId oldId newId e.referenced }

def renameIndex : DependencyEdge :=
  if e.kind.isIndexOnRelation then { e with dependent := renameId oldId newId e.dependent } else e

def renameSequence : DependencyEdge :=
  match e.kind with
  | .sequenceOwnedBy _ => { e with dependent := renameId oldId newId e.dependent }
  | .columnDefaultOnSequence _ => { e with referenced := renameId oldId newId e.referenced }
  | _ => e

def renameTrigger : DependencyEdge :=
  match e.kind with
  | .triggerOnTable triggerId functionId generation =>
    if triggerId = oldId then
      { e with
        kind := .triggerOnTable newId functionId generation
        dependent := renameId oldId newId e.dependent }
    else e
  | _ => e

/-- The name of a constraint in the edges of its table. -/
def renameConstraint (tableId : ObjectId) (oldName newName : String) : DependencyEdge :=
  let rename (name : String) : String := if name = oldName then newName else name
  if e.dependent ≠ tableId then e
  else match e.kind with
    | .foreignKey (some name) fromColumns toColumns operatorEvidence generation =>
      { e with
        kind := .foreignKey (some (rename name)) fromColumns toColumns operatorEvidence generation }
    | .constraintOnRelation name columns isPrimary =>
      { e with kind := .constraintOnRelation (rename name) columns isPrimary }
    | .constraintDependency name columns =>
      { e with kind := .constraintDependency (rename name) columns }
    | _ => e

end DependencyEdge

namespace DependencyGraph

def propagateRelationRename (g : DependencyGraph) (oldId newId : ObjectId) : DependencyGraph :=
  g.mapEdges (DependencyEdge.renameRelation oldId newId)

def propagateIndexRename (g : DependencyGraph) (oldId newId : ObjectId) : DependencyGraph :=
  g.mapEdges (DependencyEdge.renameIndex oldId newId)

def propagateSequenceRename (g : DependencyGraph) (oldId newId : ObjectId) : DependencyGraph :=
  g.mapEdges (DependencyEdge.renameSequence oldId newId)

def propagateTriggerRename (g : DependencyGraph) (oldId newId : ObjectId) : DependencyGraph :=
  g.mapEdges (DependencyEdge.renameTrigger oldId newId)

def renameConstraint (g : DependencyGraph) (tableId : ObjectId) (oldName newName : String) :
    DependencyGraph :=
  g.mapEdges fun e => e.renameConstraint tableId oldName newName

end DependencyGraph

/-- References to an index by its bare name. -/
def RelationState.renameIndexName (r : RelationState) (oldName newName : String) : RelationState :=
  { r with
    clusterIndex := if r.clusterIndex = some oldName then some newName else r.clusterIndex
    replicaIdentity :=
      if r.replicaIdentity = some ("USING INDEX " ++ oldName) then
        some ("USING INDEX " ++ newName)
      else r.replicaIdentity }

structure Rename where
  oldId : ObjectRef
  newId : ObjectRef

namespace AnalysisState

/-- An alias from an identity to the one that replaces it. -/
def addAlias (s : AnalysisState) (oldId newId : ObjectId) : AnalysisState :=
  s.setGraph (s.graph.addEdge ⟨oldId, newId, .renameTo⟩)

/-- A key constraint shares the name of the index that backs it. -/
def renameBackedConstraint (oldId newId : ObjectId) (s : AnalysisState)
    (constraint : ConstraintState) : AnalysisState :=
  let name := if isIndexBacked constraint.kind = true ∧ oldId.name ≠ newId.name then newId.name
    else constraint.name
  let s := s.setConstraints (s.constraints.erase (constraint.tableId, constraint.name))
  let s := if constraint.name ≠ name then
      s.setGraph (s.graph.renameConstraint constraint.tableId constraint.name name)
    else s
  s.setConstraints (s.constraints.insert (constraint.tableId, name)
    { constraint with name, backingIndex := some newId })

def renameIndexNameIn (oldId newId : ObjectId) (s : AnalysisState)
    (entry : ObjectId × RelationOverlay) : AnalysisState :=
  match entry.2 with
  | .present relation =>
    if entry.1.schema = oldId.schema then
      s.setRelations (s.relations.insert entry.1
        (.present (relation.renameIndexName oldId.name newId.name)))
    else s
  | .dropped => s

/-- The caller has taken a namespace snapshot. -/
def renameIndexCatalogReferences (s : AnalysisState) (oldId newId : ObjectId) : AnalysisState :=
  let backed := (s.constraints.entries.map (·.2)).filter (·.backingIndex == some oldId)
  let s := backed.foldl (renameBackedConstraint oldId newId) s
  if oldId.name = newId.name then s
  else (s.relations.entries.map fun entry => (entry.1, entry.2)).foldl
    (renameIndexNameIn oldId newId) s

/-- An index moves in the graph and in the catalog, under an alias. -/
def moveIndex (s : AnalysisState) (move : ObjectId × ObjectId) : AnalysisState :=
  let s := s.setGraph (s.graph.propagateIndexRename move.1 move.2)
  let s := s.renameIndexCatalogReferences move.1 move.2
  s.addAlias move.1 move.2

end AnalysisState

namespace Rename

variable (rename : Rename)

def oldName : ObjectId := rename.oldId.id

def newName : ObjectId := rename.newId.id

def isSchemaMove : Bool := rename.oldName.schema != rename.newName.schema

/-- The place of an object that follows its table into another schema. -/
def moved (id : ObjectId) : ObjectId × ObjectId := (id, ⟨rename.newName.schema, id.name⟩)

def ownedSequences (s : AnalysisState) : List ObjectId :=
  s.sequences.entries.filterMap fun entry =>
    match entry.2 with
    | .present sequence =>
      if sequence.ownedBy.any (·.1 == rename.oldName) then some entry.1 else none
    | .dropped => none

def sequenceMoves (s : AnalysisState) : List (ObjectId × ObjectId) :=
  if rename.isSchemaMove then (rename.ownedSequences s).map rename.moved else []

def indexMoves (s : AnalysisState) : List (ObjectId × ObjectId) :=
  if rename.isSchemaMove then
    (s.graph.edges.filter fun e => e.kind.isIndexOnRelation && e.referenced == rename.oldName).map
      fun e => rename.moved e.dependent
  else []

/-- The table of a key constraint that the index would rename onto another. -/
def constraintConflict (s : AnalysisState) : Option ObjectId :=
  if s.indexIsPresent rename.oldName && rename.oldName.name != rename.newName.name then
    (s.constraints.entries.map (·.2)).findSome? fun constraint =>
      if constraint.backingIndex = some rename.oldName ∧ AnalysisState.isIndexBacked constraint.kind = true ∧
          constraint.name ≠ rename.newName.name ∧
          (constraint.tableId, rename.newName.name) ∈ s.constraints then
        some constraint.tableId
      else none
  else none

def isListedTable (s : AnalysisState) : PublicationObjectFact → Bool
  | .table name .. => (s.resolveRelationId name).id == rename.oldName
  | _ => false

/-- The explicit publications that list the relation, with its positions. -/
def publicationScopeUpdates (s : AnalysisState) : List (String × List Nat) :=
  s.publications.entries.filterMap fun entry =>
    match entry.2 with
    | .present publication =>
      match publication.scope with
      | .explicit objects =>
        let indexes := (objects.zipIdx.filter fun object => rename.isListedTable s object.1).map (·.2)
        if indexes.isEmpty then none else some (entry.1, indexes)
      | .allTables _ => none
    | .dropped => none

def renameListedTable : PublicationObjectFact → PublicationObjectFact
  | .table name only includePartitions columns rowFilter =>
    let schema := if name.schema.isSome || rename.isSchemaMove then
        some ⟨rename.newName.schema, name.schema.any (·.quoted)⟩
      else name.schema
    .table ⟨schema, ⟨rename.newName.name, name.name.quoted⟩⟩ only includePartitions columns rowFilter
  | object => object

def updatePublication (s : AnalysisState) (update : String × List Nat) : AnalysisState :=
  let s := s.snapshotPublication update.1
  match s.publications.lookup update.1 with
  | some (.present publication) =>
    match publication.scope with
    | .explicit objects =>
      s.setPublications (s.publications.insert update.1
        (.present { publication with
          scope := .explicit (objects.zipIdx.map fun object =>
            if object.2 ∈ update.2 then rename.renameListedTable object.1 else object.1) }))
    | .allTables _ => s
  | _ => s

def moveRelation (s : AnalysisState) : AnalysisState :=
  let rest := s.relations.erase rename.oldName
  match s.relations.lookup rename.oldName with
  | some (.present relation) =>
    s.setRelations (rest.insert rename.newName (.present { relation with id := rename.newName }))
  | _ => s.setRelations rest

def withOwner (sequence : SequenceState) : SequenceState :=
  { sequence with ownedBy := sequence.ownedBy.map fun owner => (rename.newName, owner.2) }

def updateOwnedSequence (s : AnalysisState) (id : ObjectId) : AnalysisState :=
  let s := s.snapshotSequence id
  match s.sequences.lookup id with
  | some (.present sequence) =>
    s.setSequences (s.sequences.insert id (.present (rename.withOwner sequence)))
  | _ => s

def moveSequence (s : AnalysisState) (move : ObjectId × ObjectId) : AnalysisState :=
  let s := (s.snapshotSequence move.1).snapshotSequence move.2
  let rest := s.sequences.erase move.1
  match s.sequences.lookup move.1 with
  | some (.present sequence) =>
    let s := s.setSequences (rest.insert move.2
      (.present { rename.withOwner sequence with id := move.2 }))
    let s := s.setGraph (s.graph.propagateSequenceRename move.1 move.2)
    s.addAlias move.1 move.2
  | _ => s.setSequences rest

def triggersToMove (s : AnalysisState) : List (ObjectId × TriggerState) :=
  s.triggers.entries.filterMap fun entry =>
    match entry.2 with
    | .present trigger => if trigger.tableId = rename.oldName then some (entry.1, trigger) else none
    | .dropped => none

def moveTrigger (s : AnalysisState) (move : ObjectId × TriggerState) : AnalysisState :=
  let newId := triggerKey rename.newName move.2.name
  let s := s.setTriggers ((s.triggers.erase move.1).insert newId
    (.present { move.2 with id := newId, tableId := rename.newName }))
  let s := s.setGraph (s.graph.propagateTriggerRename move.1 newId)
  s.addAlias move.1 newId

def moveConstraint (s : AnalysisState) (constraint : String × ConstraintState) : AnalysisState :=
  let s := (s.snapshotConstraint rename.oldName constraint.1).snapshotConstraint rename.newName
    constraint.1
  s.setConstraints ((s.constraints.erase (rename.oldName, constraint.1)).insert
    (rename.newName, constraint.1) { constraint.2 with tableId := rename.newName })

def constraintsToMove (s : AnalysisState) : List (String × ConstraintState) :=
  s.constraints.entries.filterMap fun entry =>
    if entry.1.1 = rename.oldName then some (entry.1.2, entry.2) else none

def moveKey (key : ObjectId × String) : ObjectId × String :=
  (renameId rename.oldName rename.newName key.1, key.2)

def moveMember (move : ObjectId × ObjectId) (members : Finset ObjectId) : Finset ObjectId :=
  if move.1 ∈ members then insert move.2 (members.erase move.1) else members

/-- The identities of the baseline follow the objects they stand for. -/
def moveBaseline (sequenceMoves indexMoves : List (ObjectId × ObjectId))
    (renamesRelation renamesIndex : Bool) (s : AnalysisState) : AnalysisState :=
  let move := (rename.oldName, rename.newName)
  let s := if renamesRelation then
      { s with
        baselineRelations := moveMember move s.baselineRelations
        baselineFkDependencies := moveMember move s.baselineFkDependencies
        baselineForeignKeys := s.baselineForeignKeys.image rename.moveKey }
    else s
  let indexMoves := if renamesIndex then move :: indexMoves else indexMoves
  { s with
    baselineSequences := sequenceMoves.foldl (fun members move => moveMember move members)
      s.baselineSequences
    baselineIndexes := indexMoves.foldl (fun members move => moveMember move members)
      s.baselineIndexes }

/-- Everything that follows the relation, in the order of the undo entries. -/
def moveObjects (sequenceMoves indexMoves : List (ObjectId × ObjectId)) (s : AnalysisState) :
    AnalysisState :=
  let publications := rename.publicationScopeUpdates s
  let s := rename.moveRelation s.snapshotNamespace
  let s := (rename.ownedSequences s).foldl rename.updateOwnedSequence s
  let s := sequenceMoves.foldl rename.moveSequence s
  let s := indexMoves.foldl AnalysisState.moveIndex s
  let s := (rename.triggersToMove s).foldl rename.moveTrigger s
  let s := (rename.constraintsToMove s).foldl rename.moveConstraint s
  let s := publications.foldl rename.updatePublication s
  s.setPendingValidation (s.pendingValidation.image rename.moveKey)

/-- The alias of the renamed object, and the edges that follow it. -/
def moveEdges (renamesRelation renamesIndex : Bool) (s : AnalysisState) : AnalysisState :=
  let s := s.addAlias rename.oldName rename.newName
  let s := if renamesRelation then
      s.setGraph (s.graph.propagateRelationRename rename.oldName rename.newName)
    else s
  if renamesIndex then
    (s.setGraph (s.graph.propagateIndexRename rename.oldName rename.newName)
      ).renameIndexCatalogReferences rename.oldName rename.newName
  else s

def execute (s : AnalysisState) : AnalysisState :=
  let renamesRelation := s.relationIsPresent rename.oldName
  let renamesIndex := s.indexIsPresent rename.oldName
  let sequenceMoves := rename.sequenceMoves s
  let indexMoves := rename.indexMoves s
  let s := rename.moveObjects sequenceMoves indexMoves s
  let s := rename.moveEdges renamesRelation renamesIndex s
  rename.moveBaseline sequenceMoves indexMoves renamesRelation renamesIndex s

def checkTarget : Statement Unit := do
  let s ← get
  match s.relationOrIndexLookup rename.oldName with
  | .present => pure ()
  | _ =>
    if s.baselineCoversFamilyObject rename.oldName .relations ||
        s.baselineCoversFamilyObject rename.oldName .indexes then
      refuse ("relation '" ++ rename.oldId.display ++ "' does not exist")
    else leaveUnresolved .unknownObjectState

def checkSchema : Statement Unit := do
  let s ← get
  if rename.isSchemaMove && !s.schemaIsPresent rename.newName.schema then
    if s.schemaAbsenceIsAuthoritative rename.newName.schema then
      refuse ("schema '" ++ rename.newName.schema ++ "' does not exist")
    else leaveUnresolved .catalogCoverageIncomplete
  else pure ()

/-- The new place of a sequence or index that another object holds already. -/
def moveConflict (s : AnalysisState) : Option ObjectId :=
  (rename.sequenceMoves s ++ rename.indexMoves s).findSome? fun move =>
    if move.1 ≠ move.2 ∧ s.relationNamespaceIsTaken move.2 = true then some move.2 else none

def check : Statement Unit := do
  let s ← get
  refuseFound (rename.constraintConflict s) fun table => "constraint '" ++ rename.newName.name ++
    "' already exists on relation '" ++ table.display ++ "'"
  rename.checkTarget
  refuseIf (rename.oldName ≠ rename.newName ∧ s.relationNamespaceIsTaken rename.newName = true)
    ("relation '" ++ rename.newId.display ++ "' already exists")
  rename.checkSchema
  refuseFound (rename.moveConflict s) fun id =>
    "associated object '" ++ id.display ++ "' already exists"

def command : Statement MutationResult := do
  rename.check
  modify rename.execute
  pure .applied

end Rename

def AnalysisState.applyRenameRelation (s : AnalysisState) (rename : Rename) :
    MutationResult × AnalysisState :=
  rename.command.outcome s

end SafeMigrate
