import SafeMigrate.Columns
import SafeMigrate.DropTable
import SafeMigrate.Roles
import SafeMigrate.Writes

/-! `CREATE`, `ALTER` and `DROP PUBLICATION`: how the written objects are
resolved, the checks on them, and the membership edges that follow the scope. -/

namespace SafeMigrate

structure CreatePublication where
  name : String
  scope : PublicationScope
  params : List AttributeFact := []

inductive AlterPublicationAction
  | addObjects (objects : List PublicationObjectFact)
  | setObjects (scope : PublicationScope)
  | dropObjects (objects : List PublicationObjectFact)
  | setOptions (options : List AttributeFact)
  | ownerChange (role : RoleFact)
  | rename (newName : String)

structure AlterPublication where
  name : String
  action : AlterPublicationAction

structure DropPublication where
  names : List String
  ifExists : Bool
  cascade : Bool

def PublicationObjectFact.isSchemaTables : PublicationObjectFact → Bool
  | .schemaTables .. => true
  | _ => false

/-- The membership edges of the publication by this name. -/
def DependencyKind.isMembershipOf (publication : String) (kind : DependencyKind) : Bool :=
  kind == .publicationIncludes publication

/-- A node for the publication, which lies in no schema. -/
def publicationNode (publication : String) : ObjectId := ⟨"public", publication⟩

def DependencyEdge.renamePublication (oldName newName : String) (e : DependencyEdge) :
    DependencyEdge :=
  if e.kind.isMembershipOf oldName then
    { e with referenced := publicationNode newName, kind := .publicationIncludes newName }
  else e

/-- Renames a publication node and its membership payloads. -/
def DependencyGraph.renamePublication (g : DependencyGraph) (oldName newName : String) :
    DependencyGraph :=
  g.mapEdges (DependencyEdge.renamePublication oldName newName)

namespace AnalysisState

section Resolver

def resolveRelationLookupName (s : AnalysisState) (name : QualifiedName) : ObjectRef :=
  match name.schema with
  | some schema => ⟨⟨schema.resolve, name.name.resolve⟩, false⟩
  | none =>
    let objectName := name.name.resolve
    let found := s.relationSearchPath.findSome? fun entry => do
      let schema ← entry.searchedSchema
      if s.relationNamespaceObjectIsPresent ⟨schema, objectName⟩ then
        some (⟨schema, objectName⟩ : ObjectId)
      else none
    let first := (s.relationSearchPath.head?.bind SearchPathEntry.name).getD ""
    ⟨found.getD ⟨first, objectName⟩, true⟩

def resolvePublicationObject (s : AnalysisState) : PublicationObjectFact → PublicationObjectFact
  | .table name only includePartitions columns rowFilter =>
    let id := (s.resolveRelationLookupName name).id
    .table ⟨some ⟨id.schema, true⟩, ⟨id.name, true⟩⟩ only includePartitions columns rowFilter
  | .currentSchemaShorthand =>
    .schemaTables ((s.searchPath.head?.bind SearchPathEntry.name).getD "public") none
  | object => object

def resolvePublicationScope (s : AnalysisState) : PublicationScope → PublicationScope
  | .allTables except => .allTables except
  | .explicit objects => .explicit (objects.map s.resolvePublicationObject)

def resolveAlterPublicationAction (s : AnalysisState) :
    AlterPublicationAction → AlterPublicationAction
  | .addObjects objects => .addObjects (objects.map s.resolvePublicationObject)
  | .dropObjects objects => .dropObjects (objects.map s.resolvePublicationObject)
  | .setObjects scope => .setObjects (s.resolvePublicationScope scope)
  | action => action

end Resolver

def publicationLookup (s : AnalysisState) (name : String) : ObjectLookup :=
  match s.publications.lookup name with
  | some (.present _) => .present
  | some .dropped => .tombstone
  | none => if s.baselineAvailable then .authoritativelyAbsent else .unknown

def presentPublication (s : AnalysisState) (name : String) : Option PublicationState :=
  match s.publications.lookup name with
  | some (.present publication) => some publication
  | _ => none

section Scope

def publicationObjectKey (s : AnalysisState) : PublicationObjectFact → String
  | .table name .. => "table\x00" ++ (s.resolveRelationId name).display
  | .schemaTables schema _ => "schema\x00" ++ schema
  | .currentSchemaShorthand =>
    "schema\x00" ++ (s.searchPath.head?.bind SearchPathEntry.name).getD "public"
  | .unknown => "unknown"

/-- The parser reads every schema after the first of `TABLES IN SCHEMA` as a
bare table; a table that names a schema is read back as one. -/
def normalizePublicationObject (s : AnalysisState) (normalized : List PublicationObjectFact)
    (object : PublicationObjectFact) : List PublicationObjectFact :=
  match object with
  | .table name .. =>
    if normalized.any PublicationObjectFact.isSchemaTables && s.schemaIsPresent name.name.text then
      normalized ++ [.schemaTables name.name.text none]
    else normalized ++ [object]
  | _ => normalized ++ [object]

def normalizePublicationScope (s : AnalysisState) : PublicationScope → PublicationScope
  | .explicit objects => .explicit (objects.foldl s.normalizePublicationObject [])
  | .allTables except => .allTables except

/-- The edge of a listed table. -/
def membershipEdge (s : AnalysisState) (publication : String) :
    PublicationObjectFact → Option DependencyEdge
  | .table name .. => some ⟨(s.resolveRelationId name).id, publicationNode publication,
      .publicationIncludes publication⟩
  | _ => none

def membershipEdges (s : AnalysisState) (publication : String) : PublicationScope →
    List DependencyEdge
  | .explicit objects => objects.filterMap (s.membershipEdge publication)
  | .allTables _ => []

def replacePublicationEdges (s : AnalysisState) (publication : String) (scope : PublicationScope) :
    AnalysisState :=
  let s := s.snapshotGraphFull
  let s := s.setGraph (s.graph.retainEdges fun e => !e.kind.isMembershipOf publication)
  s.setGraph ((s.membershipEdges publication scope).foldl DependencyGraph.addEdge s.graph)

def schemaHasCompleteInheritance (s : AnalysisState) (schema : String) : Bool :=
  s.baselineCoversFamilyObject ⟨schema, ""⟩ .relations &&
    s.baselineCoversFamilyObject ⟨schema, ""⟩ .inheritance

def coversAllNonSystem (s : AnalysisState) : Bool :=
  match s.baselineCoverage.schemaScope with
  | .allNonSystem => true
  | .explicit _ => false

def publicationObjectNeedsInheritanceKnowledge (s : AnalysisState) :
    PublicationObjectFact → Bool
  | .table name only includePartitions _ _ =>
    if !only || includePartitions then
      let id := (s.resolveRelationId name).id
      let isLocal := (s.presentRelation id).any fun relation => decide (0 < relation.generation)
      !isLocal && !s.schemaHasCompleteInheritance id.schema
    else false
  | .schemaTables schema _ => !s.schemaHasCompleteInheritance schema
  | .currentSchemaShorthand =>
    (s.searchPath.head?.bind SearchPathEntry.name).all fun schema =>
      !s.schemaHasCompleteInheritance schema
  | .unknown => false

def publicationScopeNeedsInheritanceKnowledge (s : AnalysisState) : PublicationScope → Bool
  | .allTables _ =>
    !s.baselineAvailable || !s.coversAllNonSystem || !s.baselineHasCoverage .relations ||
      !s.baselineHasCoverage .inheritance
  | .explicit objects => objects.any s.publicationObjectNeedsInheritanceKnowledge

def taintInheritanceSensitivePublicationScope (s : AnalysisState) (scope : PublicationScope) :
    AnalysisState :=
  if s.publicationScopeNeedsInheritanceKnowledge scope then
    s.taint .catalogCoverageIncomplete .chain
  else s

end Scope

section Params

def canonicalOperations : List String := ["insert", "update", "delete", "truncate"]

def publishedOperations (value : String) : List String :=
  let parts := (value.toList.splitOn ',').map String.ofList
  canonicalOperations.filter fun operation =>
    parts.any fun part => eqIgnoreAsciiCase (trimText part) operation

/-- The parameter's explicit value, else its default. -/
def explicitParam (explicit : List AttributeFact) (name default : String) : AttributeFact :=
  { name, «namespace» := none,
    value := some (((explicit.find? (·.name == name)).bind (·.value)).getD default) }

/-- The parameters PostgreSQL reports, with the defaults of those not written. -/
def effectivePublicationParams (s : AnalysisState) (explicit : List AttributeFact) :
    List AttributeFact :=
  let publish := match explicit.find? (·.name == "publish") with
    | some fact => publishedOperations (fact.value.getD "")
    | none => canonicalOperations
  let params : List AttributeFact :=
    [{ name := "publish", «namespace» := none, value := some (", ".intercalate publish) },
      explicitParam explicit "publish_via_partition_root" "false"]
  if 180000 ≤ s.conservativePgVersion then
    params ++ [explicitParam explicit "publish_generated_columns" "none"]
  else params

end Params

section Writes

def modifyPublication (s : AnalysisState) (name : String)
    (f : PublicationState → PublicationState) : AnalysisState :=
  match s.presentPublication name with
  | some publication => s.setPublications (s.publications.insert name (.present (f publication)))
  | none => s

def createPublication (s : AnalysisState) (create : CreatePublication) (scope : PublicationScope) :
    AnalysisState :=
  let s := (s.snapshotPublication create.name).bumpGeneration
  let owner := if s.currentRoleKnown then some s.currentRole else none
  let s := s.setPublications (s.publications.insert create.name (.present
    { name := create.name, owner, scope, params := s.effectivePublicationParams create.params,
      generation := s.generationCounter }))
  match scope with
  | .explicit _ =>
    let s := s.snapshotGraphFull
    s.setGraph ((s.membershipEdges create.name scope).foldl DependencyGraph.addEdge s.graph)
  | .allTables _ => s

def setPublicationOptions (s : AnalysisState) (name : String) (options : List AttributeFact) :
    AnalysisState :=
  let stored := ((s.presentPublication name).map (·.params)).getD []
  let explicit := options.foldl (fun explicit option =>
    explicit.filter (·.name != option.name) ++ [option]) stored
  let effective := s.effectivePublicationParams explicit
  s.modifyPublication name fun publication => { publication with params := effective }

def setPublicationOwner (s : AnalysisState) (name : String) (role : RoleFact) : AnalysisState :=
  match s.roleFactIdentity role with
  | some (owner, true) =>
    let s := if s.rolesKnown then s else s.taint .catalogCoverageIncomplete .chain
    s.modifyPublication name fun publication => { publication with owner := some owner }
  | _ =>
    let s := s.taint .unresolvedReference .chain
    s.modifyPublication name fun publication => { publication with owner := none }

def renamePublication (s : AnalysisState) (name newName : String) : AnalysisState :=
  let s := s.snapshotPublication newName
  match s.presentPublication name with
  | some publication =>
    let s := s.setPublications ((s.publications.erase name).insert newName
      (.present { publication with name := newName }))
    let s := s.snapshotGraphFull
    s.setGraph (s.graph.renamePublication name newName)
  | none => s

def storePublicationScope (s : AnalysisState) (name : String) (scope : PublicationScope) :
    AnalysisState :=
  let scope := s.normalizePublicationScope scope
  let s := s.modifyPublication name fun publication => { publication with scope }
  s.replacePublicationEdges name scope

def tombstonePublication (s : AnalysisState) (name : String) : AnalysisState :=
  let s := s.snapshotPublication name
  s.setPublications (s.publications.insert name .dropped)

def dropPublications (s : AnalysisState) (names : List String) : AnalysisState :=
  let s := names.foldl tombstonePublication s
  s.retainGraphEdges fun e =>
    !(e.kind.isPublicationIncludes && decide (e.referenced.name ∈ names))

end Writes

end AnalysisState

open AnalysisState

section Checks

def publicationExists (name : String) : String := "publication '" ++ name ++ "' already exists"

def publicationMissing (name : String) : String := "publication '" ++ name ++ "' does not exist"

/-- Each column of the list once, and of the relation. -/
def checkPublicationColumns (id : ObjectRef) (relation : RelationState) :
    List String → List String → Statement Unit
  | _, [] => pure ()
  | seen, column :: columns => do
    refuseIf (column ∈ seen) ("publication lists column '" ++ column ++ "' more than once for '" ++
      id.display ++ "'")
    refuseIf (relation.hasColumn column = false) ("publication column '" ++ id.display ++ "." ++
      column ++ "' does not exist")
    checkPublicationColumns id relation (column :: seen) columns

def checkPublicationTable (id : ObjectRef) (columns : Option (List String)) : Statement Unit := do
  let s ← get
  match s.relations.lookup id.id with
  | some (.present relation) =>
    if relation.kind = .table ∧ relation.persistence = .permanent then
      checkPublicationColumns id relation [] (columns.getD [])
    else refuse ("publication target '" ++ id.display ++ "' is not a permanent table")
  | some .dropped => refuse ("publication table '" ++ id.display ++ "' does not exist")
  | none =>
    if s.baselineCoversFamilyObject id.id .relations then
      refuse ("publication table '" ++ id.display ++ "' does not exist")
    else modify fun s => s.taint .catalogCoverageIncomplete .chain

def checkPublicationObject : PublicationObjectFact → Statement Unit
  | .table name _ _ columns _ => do
    let s ← get
    checkPublicationTable (s.resolveRelationId name) columns
  | .schemaTables schema _ => do
    let s ← get
    if s.schemaIsPresent schema then pure ()
    else do
      refuseIf (s.schemaAbsenceIsAuthoritative schema = true)
        ("publication schema '" ++ schema ++ "' does not exist")
      modify fun s => s.taint .catalogCoverageIncomplete .chain
  | .currentSchemaShorthand => modify fun s => s.taint .catalogCoverageIncomplete .chain
  | .unknown => modify fun s => s.taint .unsupportedSemantics .chain

def validatePublicationObjects : List String → List PublicationObjectFact → Statement Unit
  | _, [] => pure ()
  | seen, object :: objects => do
    let s ← get
    refuseIf (s.publicationObjectKey object ∈ seen)
      "publication contains the same object more than once"
    checkPublicationObject object
    validatePublicationObjects (s.publicationObjectKey object :: seen) objects

def validatePublicationScope : PublicationScope → Statement Unit
  | .explicit objects => validatePublicationObjects [] objects
  | .allTables _ => pure ()

end Checks

def CreatePublication.command (create : CreatePublication) : Statement MutationResult := do
  let s ← get
  refuseIf (s.publicationLookup create.name = .present) (publicationExists create.name)
  taintIf (s.publicationLookup create.name = .unknown) .unknownObjectState .chain
  let scope := (← get).normalizePublicationScope create.scope
  validatePublicationScope scope
  modify fun s => s.taintInheritanceSensitivePublicationScope scope
  modify fun s => s.createPublication create scope
  pure .applied

namespace AlterPublication

variable (alter : AlterPublication)

def checkTarget : Statement Unit := do
  match (← get).publicationLookup alter.name with
  | .present => pure ()
  | .unknown => leaveUnresolved .unknownObjectState
  | _ => refuse (publicationMissing alter.name)

/-- A rename destination and a new owner are checked before anything is written. -/
def checkAction : Statement Unit := do
  let s ← get
  match alter.action with
  | .rename newName => match s.publicationLookup newName with
    | .present => refuse (publicationExists newName)
    | .unknown => leaveUnresolved .unknownObjectState
    | _ => pure ()
  | .ownerChange role => match s.roleFactIdentity role with
    | some (owner, true) =>
      refuseIf (s.rolesKnown = true ∧ (s.presentRole owner).isNone = true)
        ("role '" ++ owner ++ "' does not exist")
    | _ => pure ()
  | _ => pure ()

def addObject (s : AnalysisState) (objects : List PublicationObjectFact)
    (addition : PublicationObjectFact) : Statement (List PublicationObjectFact) := do
  refuseIf (s.publicationObjectKey addition ∈ objects.map s.publicationObjectKey)
    ("publication '" ++ alter.name ++ "' already contains the requested object")
  pure (objects ++ [addition])

def removeObject (s : AnalysisState) (objects : List PublicationObjectFact)
    (removal : PublicationObjectFact) : Statement (List PublicationObjectFact) := do
  refuseIf (s.publicationObjectKey removal ∉ objects.map s.publicationObjectKey)
    ("publication '" ++ alter.name ++ "' does not contain the requested object")
  pure (objects.eraseP fun object => s.publicationObjectKey object == s.publicationObjectKey removal)

/-- The scope after the action, where the action replaces it. -/
def replacementScope (current : PublicationScope) : Statement (Option PublicationScope) := do
  match alter.action with
  | .addObjects additions => do
    validatePublicationScope (.explicit additions)
    modify fun s => s.taintInheritanceSensitivePublicationScope (.explicit additions)
    match current with
    | .allTables _ => refuse ("publication '" ++ alter.name ++ "' already includes all tables")
    | .explicit objects => do
      let s ← get
      let objects ← additions.foldlM (alter.addObject s) objects
      pure (some (.explicit objects))
  | .setObjects scope => do
    validatePublicationScope scope
    modify fun s => s.taintInheritanceSensitivePublicationScope scope
    pure (some scope)
  | .dropObjects removals => do
    modify fun s => s.taintInheritanceSensitivePublicationScope (.explicit removals)
    match current with
    | .allTables _ => refuse ("publication '" ++ alter.name ++ "' includes all tables")
    | .explicit objects => do
      let s ← get
      let objects ← removals.foldlM (alter.removeObject s) objects
      pure (some (.explicit objects))
  | .setOptions options => do
    modify fun s => s.setPublicationOptions alter.name options
    pure none
  | .ownerChange role => do
    modify fun s => s.setPublicationOwner alter.name role
    pure none
  | .rename _ => pure none

/-- What follows the action: the new scope with its edges, the generation that
was drawn before it, and the new name. -/
def finish (generation : Nat) (replacement : Option PublicationScope) (s : AnalysisState) :
    AnalysisState :=
  let s := match replacement with
    | some scope => s.storePublicationScope alter.name scope
    | none => s
  let s := s.modifyPublication alter.name fun publication => { publication with generation }
  match alter.action with
  | .rename newName => s.renamePublication alter.name newName
  | _ => s

def command : Statement MutationResult := do
  alter.checkTarget
  alter.checkAction
  modify fun s => (s.snapshotPublication alter.name).bumpGeneration
  let s ← get
  let current := ((s.presentPublication alter.name).map (·.scope)).getD (.explicit [])
  let replacement ← alter.replacementScope current
  modify fun t => alter.finish s.generationCounter replacement t
  pure .applied

end AlterPublication

namespace DropPublication

variable (drop : DropPublication)

/-- The targets that are present, and whether one of them is unknown. -/
def scanTarget (found : List String × Bool) (name : String) : Statement (List String × Bool) := do
  match (← get).publicationLookup name with
  | .present => pure (found.1 ++ [name], found.2)
  | .unknown =>
    if drop.ifExists then do
      modify fun s => s.taint .unknownObjectState .chain
      pure (found.1, true)
    else leaveUnresolved .unknownObjectState
  | _ =>
    if drop.ifExists then pure found else refuse (publicationMissing name)

def command : Statement MutationResult := do
  let (present, unknownTarget) ← drop.names.foldlM drop.scanTarget ([], false)
  leaveUnresolvedIf (unknownTarget = true) .unknownObjectState
  modify fun s => s.dropPublications present
  pure (if present.isEmpty then .noOp else .applied)

end DropPublication

/-- A publication statement as it is written. -/
inductive PublicationStatement
  | create (fact : CreatePublication)
  | alter (fact : AlterPublication)
  | drop (fact : DropPublication)

namespace AnalysisState

def resolveCreatePublication (s : AnalysisState) (fact : CreatePublication) : CreatePublication :=
  { fact with scope := s.resolvePublicationScope fact.scope }

def resolveAlterPublication (s : AnalysisState) (fact : AlterPublication) : AlterPublication :=
  { fact with action := s.resolveAlterPublicationAction fact.action }

def applyCreatePublication (s : AnalysisState) (create : CreatePublication) :
    MutationResult × AnalysisState :=
  create.command.outcome s

def applyAlterPublication (s : AnalysisState) (alter : AlterPublication) :
    MutationResult × AnalysisState :=
  alter.command.outcome s

def applyDropPublication (s : AnalysisState) (drop : DropPublication) :
    MutationResult × AnalysisState :=
  drop.command.outcome s

/-- A statement is resolved in the state that it is applied to. -/
def applyPublicationStatement (s : AnalysisState) :
    PublicationStatement → MutationResult × AnalysisState
  | .create fact => s.applyCreatePublication (s.resolveCreatePublication fact)
  | .alter fact => s.applyAlterPublication (s.resolveAlterPublication fact)
  | .drop fact => s.applyDropPublication fact

end AnalysisState

end SafeMigrate
