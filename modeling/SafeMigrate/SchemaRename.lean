import SafeMigrate.Lookup
import SafeMigrate.MapRebuild

/-! `ALTER SCHEMA ... RENAME TO`: every map of the catalog is rebuilt under
the new schema, and the old identities stay behind as rename aliases. -/

namespace SafeMigrate

open MapRebuild

def remapSchemaId (oldName newName : String) (id : ObjectId) : ObjectId :=
  if id.schema = oldName then { id with schema := newName } else id

def remapName (oldName newName name : String) : String := if name = oldName then newName else name

section Records

variable (oldName newName : String)

def FunctionState.remapSchema (f : FunctionState) : FunctionState :=
  { f with
    id := remapSchemaId oldName newName f.id
    argTypeIds := f.argTypeIds.map (Option.map (remapSchemaId oldName newName))
    returnTypeId := f.returnTypeId.map (remapSchemaId oldName newName)
    internalTypeOwner := f.internalTypeOwner.map (remapSchemaId oldName newName) }

def SequenceState.remapSchema (q : SequenceState) : SequenceState :=
  { q with
    id := remapSchemaId oldName newName q.id
    ownedBy := q.ownedBy.map fun owner => (remapSchemaId oldName newName owner.1, owner.2) }

/-- The fields of a relation that a schema rename rewrites. -/
def RelationState.remapSchema (r : RelationState) : RelationState :=
  { r with id := remapSchemaId oldName newName r.id }

/-- The fields of a trigger that a schema rename rewrites. -/
def TriggerState.remapSchema (t : TriggerState) : TriggerState :=
  { t with
    id := remapSchemaId oldName newName t.id
    tableId := remapSchemaId oldName newName t.tableId }

/-- The fields of a constraint that a schema rename rewrites. -/
def ConstraintState.remapSchema (c : ConstraintState) : ConstraintState :=
  { c with tableId := remapSchemaId oldName newName c.tableId }

def TypeState.remapId (t : TypeState) : TypeState :=
  { t with id := remapSchemaId oldName newName t.id }

def CompositeFieldState.remapSchema (field : CompositeFieldState) : CompositeFieldState :=
  { field with
    dataTypeId := field.dataTypeId.map (remapSchemaId oldName newName)
    collationId := field.collationId.map (remapSchemaId oldName newName) }

def TypeKind.remapSchema : TypeKind → TypeKind
  | .domain state => .domain { state with
      baseTypeId := state.baseTypeId.map (remapSchemaId oldName newName)
      collationId := state.collationId.map (remapSchemaId oldName newName) }
  | .range state => .range { state with
      subtypeId := state.subtypeId.map (remapSchemaId oldName newName)
      multirange := state.multirange.map (remapSchemaId oldName newName)
      collationId := state.collationId.map (remapSchemaId oldName newName)
      opclassId := state.opclassId.map (remapSchemaId oldName newName)
      canonicalId := state.canonicalId.map (remapSchemaId oldName newName)
      subtypeDiffId := state.subtypeDiffId.map (remapSchemaId oldName newName) }
  | .multirange rangeId => .multirange (rangeId.map (remapSchemaId oldName newName))
  | .composite fields => .composite (fields.map (CompositeFieldState.remapSchema oldName newName))
  | .enum variants => .enum variants
  | .base shell options => .base shell options

def TypeState.remapKind (t : TypeState) : TypeState :=
  { t with kind := t.kind.remapSchema oldName newName }

def PublicationObjectFact.remapSchema : PublicationObjectFact → PublicationObjectFact
  | .table name only includePartitions columns rowFilter =>
    let written := if name.schema.any (·.resolve == oldName) then some ⟨newName, true⟩ else name.schema
    .table { name with schema := written } only includePartitions columns rowFilter
  | .schemaTables schema rowFilter => .schemaTables (remapName oldName newName schema) rowFilter
  | .currentSchemaShorthand => .currentSchemaShorthand
  | .unknown => .unknown

def PublicationState.remapSchema (p : PublicationState) : PublicationState :=
  match p.scope with
  | .explicit objects =>
    { p with scope := .explicit (objects.map (PublicationObjectFact.remapSchema oldName newName)) }
  | .allTables _ => p

def ExtensionMember.remapSchema (member : ExtensionMember) : ExtensionMember :=
  if member.kind = .schema then
    { member with id := { member.id with name := remapName oldName newName member.id.name } }
  else { member with id := remapSchemaId oldName newName member.id }

def ExtensionState.remapSchema (e : ExtensionState) : ExtensionState :=
  { e with
    schema := e.schema.map (remapName oldName newName)
    members := e.members.image (ExtensionMember.remapSchema oldName newName)
    configTables := e.configTables.map fun config =>
      { config with table := remapSchemaId oldName newName config.table } }

/-- A publication node lies in no schema, so that end of its edge stays. -/
def DependencyEdge.remapSchema (e : DependencyEdge) : DependencyEdge :=
  let remap := remapSchemaId oldName newName
  match e.kind with
  | .publicationIncludes _ => { e with dependent := remap e.dependent }
  | .triggerOnTable triggerId functionId generation =>
    { dependent := remap e.dependent, referenced := remap e.referenced,
      kind := .triggerOnTable (remap triggerId) (remap functionId) generation }
  | .viewUsesRoutine (some name) =>
    { dependent := remap e.dependent, referenced := remap e.referenced,
      kind := .viewUsesRoutine (some (remap name)) }
  | _ => { e with dependent := remap e.dependent, referenced := remap e.referenced }

def IndexKey.remapCollation (key : IndexKey) : IndexKey :=
  match key.collation with
  | .resolved name =>
    { key with collation := .resolved { name with schema := remapName oldName newName name.schema } }
  | _ => key

def DependencyEdge.remapIndexCollation (e : DependencyEdge) : DependencyEdge :=
  match e.kind with
  | .indexOnRelation definition columns columnsKnown isConcurrent isImmediate eligibilityKnown =>
    let definition := { definition with
      keys := definition.keys.map (IndexKey.remapCollation oldName newName)
      included := definition.included.map (IndexKey.remapCollation oldName newName) }
    { e with
      kind := .indexOnRelation definition columns columnsKnown isConcurrent isImmediate
        eligibilityKnown }
  | _ => e

def ScopedDependencyEdge.remapSchema (edge : ScopedDependencyEdge) : ScopedDependencyEdge :=
  { edge with
    scopedId := remapSchemaId oldName newName edge.scopedId
    externalId := edge.externalId.map (remapSchemaId oldName newName) }

def DependencyGraph.remapSchemaNamespace (g : DependencyGraph) : DependencyGraph :=
  g.mapEdges (DependencyEdge.remapSchema oldName newName)

def DependencyGraph.remapIndexCollationSchema (g : DependencyGraph) : DependencyGraph :=
  g.mapEdges (DependencyEdge.remapIndexCollation oldName newName)

def remapTableKey (key : ObjectId × String) : ObjectId × String :=
  (remapSchemaId oldName newName key.1, key.2)

/-- Identities of a map that the rename moves, with their new ones. -/
def renameAliases {β : Type} (m : KeyedMap ObjectId β) : List (ObjectId × ObjectId) :=
  m.keys.filterMap fun id =>
    let newId := remapSchemaId oldName newName id
    if newId ≠ id then some (id, newId) else none

end Records

namespace AnalysisState

def schemaRenameAliases (s : AnalysisState) (oldName newName : String) :
    List (ObjectId × ObjectId) :=
  renameAliases oldName newName s.relations ++ renameAliases oldName newName s.types ++
    renameAliases oldName newName s.functions ++ renameAliases oldName newName s.sequences ++
      renameAliases oldName newName s.triggers

/-- The old name keeps a tombstone: the rename proves that namespace absent. -/
def renamedSchemas (s : AnalysisState) (oldName newName : String) :
    KeyedMap String SchemaOverlay :=
  match s.schemas.lookup oldName with
  | some (.present schema) =>
    ((s.schemas.erase oldName).insert newName (.present { schema with name := newName })).insert
      oldName .dropped
  | _ => s.schemas.erase oldName

def renameSchemaNamespace (s : AnalysisState) (oldName newName : String) : AnalysisState :=
  let aliases := s.schemaRenameAliases oldName newName
  let graph := (s.graph.remapSchemaNamespace oldName newName).remapIndexCollationSchema
    oldName newName
  refreshRoleSensitiveSearchPath
    { s.snapshotNamespace with
      relations := rebuild (remapSchemaId oldName newName)
        (Overlay.map (RelationState.remapSchema oldName newName)) s.relations
      types := mapValues (Overlay.map (TypeState.remapKind oldName newName))
        (rebuild (remapSchemaId oldName newName)
          (Overlay.map (TypeState.remapId oldName newName)) s.types)
      functions := rebuild (remapSchemaId oldName newName)
        (Overlay.map (FunctionState.remapSchema oldName newName)) s.functions
      sequences := rebuild (remapSchemaId oldName newName)
        (Overlay.map (SequenceState.remapSchema oldName newName)) s.sequences
      triggers := rebuild (remapSchemaId oldName newName)
        (Overlay.map (TriggerState.remapSchema oldName newName)) s.triggers
      publications := mapValues (Overlay.map (PublicationState.remapSchema oldName newName))
        s.publications
      constraints := rebuild (remapTableKey oldName newName)
        (ConstraintState.remapSchema oldName newName) s.constraints
      pendingValidation := s.pendingValidation.image (remapTableKey oldName newName)
      collations := s.collations.remapSchema oldName newName
      extensions := mapValues (Overlay.map (ExtensionState.remapSchema oldName newName))
        s.extensions
      graph := aliases.foldl (fun g ids =>
        g.addEdge { dependent := ids.1, referenced := ids.2, kind := .renameTo }) graph
      baselineRelations := s.baselineRelations.image (remapSchemaId oldName newName)
      baselineIndexes := s.baselineIndexes.image (remapSchemaId oldName newName)
      baselineFkDependencies := s.baselineFkDependencies.image (remapSchemaId oldName newName)
      baselineSequences := s.baselineSequences.image (remapSchemaId oldName newName)
      scopedExternalDependencies := s.scopedExternalDependencies.image
        (ScopedDependencyEdge.remapSchema oldName newName)
      baselineForeignKeys := s.baselineForeignKeys.image (remapTableKey oldName newName)
      baselineSchemas := s.baselineSchemas.map fun schemas =>
        if oldName ∈ schemas then insert newName (schemas.erase oldName) else schemas
      schemas := s.renamedSchemas oldName newName }

/-- `apply_alter_schema` on a rename. -/
def applyAlterSchemaRename (s : AnalysisState) (oldName newName : String) :
    MutationResult × AnalysisState :=
  match s.schemaLookup oldName with
  | .unknown => (.unresolved .unknownObjectState, s.taint .unknownObjectState .chain)
  | .tombstone | .authoritativelyAbsent =>
    (.rejected ("schema '" ++ oldName ++ "' does not exist"), s)
  | .present | .wrongKind =>
    match s.schemaLookup newName with
    | .present | .wrongKind => (.rejected ("schema '" ++ newName ++ "' already exists"), s)
    | .unknown => (.unresolved .unknownObjectState, s.taint .unknownObjectState .chain)
    | .tombstone | .authoritativelyAbsent =>
      (.applied, s.snapshotSearchPath.renameSchemaNamespace oldName newName)

end AnalysisState

end SafeMigrate
