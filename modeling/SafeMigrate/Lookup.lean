import SafeMigrate.Rollback

/-! Read-only views of the state: name lookup through the search path,
catalog coverage, and extension membership. -/

namespace SafeMigrate

def sessionTempSchema : String := "pg_temp"

def systemCatalogSchema : String := "pg_catalog"

def isSessionTempSchema (schema : String) : Bool := schema == sessionTempSchema

/-- Splits at the first occurrence of a separator. -/
def splitOnce (separator : Char) (text : String) : Option (String × String) :=
  match text.toList.dropWhile (· != separator) with
  | [] => none
  | _ :: after =>
    some (String.ofList (text.toList.takeWhile (· != separator)), String.ofList after)

/-- Splits at the last occurrence of a separator. -/
def rsplitOnce (separator : Char) (text : String) : Option (String × String) :=
  let reversed := text.toList.reverse
  match reversed.dropWhile (· != separator) with
  | [] => none
  | _ :: before =>
    some (String.ofList before.reverse,
      String.ofList (reversed.takeWhile (· != separator)).reverse)

namespace AnalysisState

def pgVersion (s : AnalysisState) : Option Nat := s.pgVersionNum <|> s.assertedPgVersionNum

def oldestSupportedPgVersionNum : Nat := 140000

/-- `pg_version().conservative_num()`. -/
def conservativePgVersion (s : AnalysisState) : Nat :=
  s.pgVersion.getD oldestSupportedPgVersionNum

def relationIsPresent (s : AnalysisState) (id : ObjectId) : Bool :=
  (s.relations.lookup id).any Overlay.isPresent

def sequenceIsPresent (s : AnalysisState) (id : ObjectId) : Bool :=
  (s.sequences.lookup id).any Overlay.isPresent

def typeIsPresent (s : AnalysisState) (id : ObjectId) : Bool :=
  (s.types.lookup id).any Overlay.isPresent

def routineIsPresent (s : AnalysisState) (id : ObjectId) : Bool :=
  (s.functions.lookup id).any Overlay.isPresent

def schemaIsPresent (s : AnalysisState) (name : String) : Bool :=
  (s.schemas.lookup name).any Overlay.isPresent

def indexIsPresent (s : AnalysisState) (id : ObjectId) : Bool :=
  s.graph.edges.any fun edge => edge.kind.isIndexOnRelation && edge.dependent == id

def relationNamespaceObjectIsPresent (s : AnalysisState) (id : ObjectId) : Bool :=
  s.relationIsPresent id || s.sequenceIsPresent id || s.indexIsPresent id

def baselineHasCoverage (s : AnalysisState) (family : CatalogFamily) : Bool :=
  decide (family ∈ s.baselineCoverage.families)

/-- `baseline_schemas.is_none_or(|schemas| schemas.contains(name))`. -/
def baselineSchemasCover (s : AnalysisState) (schema : String) : Bool :=
  match s.baselineSchemas with
  | none => true
  | some schemas => decide (schema ∈ schemas)

def schemaAbsenceIsAuthoritative (s : AnalysisState) (name : String) : Bool :=
  match s.schemas.lookup name with
  | some .dropped => true
  | _ => s.baselineAvailable && s.baselineHasCoverage .schemas && s.baselineSchemasCover name

def schemaLookup (s : AnalysisState) (name : String) : ObjectLookup :=
  match s.schemas.lookup name with
  | some (.present _) => .present
  | some .dropped => .tombstone
  | none => if s.schemaAbsenceIsAuthoritative name then .authoritativelyAbsent else .unknown

def baselineCoversObject (s : AnalysisState) (id : ObjectId) : Bool :=
  s.baselineAvailable && s.baselineCoverage.schemaScope.covers id.schema &&
    s.baselineSchemasCover id.schema

def baselineCoversFamilyObject (s : AnalysisState) (id : ObjectId) (family : CatalogFamily) :
    Bool :=
  s.baselineCoversObject id && s.baselineHasCoverage family

def baselineRelationIsKnown (s : AnalysisState) (id : ObjectId) : Bool :=
  decide (id ∈ s.baselineRelations)

def baselineScopedFamilyObject (s : AnalysisState) (id : ObjectId) (family : CatalogFamily) :
    Bool :=
  if s.baselineSchemas.isNone || !s.baselineCoversFamilyObject id family then false
  else if !s.baselineBoundaryQueriesComplete then true
  else match family with
    | .relations | .types | .routines | .indexes =>
      decide (∃ edge ∈ s.scopedExternalDependencies, edge.family = family ∧ edge.scopedId = id)
    | _ => true

/-- An unresolved entry lies before `schema` in the search path. -/
def pathShadows (s : AnalysisState) (schema : String) : Bool :=
  go false s.searchPath
where
  go (shadow : Bool) : List SearchPathEntry → Bool
  | [] => shadow
  | .schema name :: entries => if name = schema then shadow else go shadow entries
  | .unresolved _ :: entries => go true entries

def lookupShadowed (s : AnalysisState) (r : ObjectRef) : Bool :=
  r.inferredSchema && s.pathShadows r.id.schema

def relationLookup (s : AnalysisState) (r : ObjectRef) (expected : RelationKind → Bool) :
    ObjectLookup :=
  if s.lookupShadowed r then .unknown
  else match s.relations.lookup r.id with
    | some (.present relation) => if expected relation.kind then .present else .wrongKind
    | some .dropped => .tombstone
    | none =>
      if s.sequenceIsPresent r.id || s.indexIsPresent r.id then .wrongKind
      else if s.baselineCoversFamilyObject r.id .relations then .authoritativelyAbsent
      else .unknown

def resolveRelationId (s : AnalysisState) (name : QualifiedName) : ObjectRef :=
  match name.schema with
  | some schema => ⟨⟨schema.resolve, name.name.resolve⟩, false⟩
  | none =>
    let resolvedName := name.name.resolve
    let found := s.searchPath.findSome? fun entry =>
      match entry.searchedSchema with
      | none => none
      | some schema =>
        if s.relationNamespaceObjectIsPresent ⟨schema, resolvedName⟩ then
          some (⟨schema, resolvedName⟩ : ObjectId)
        else none
    let first := (s.searchPath.head?.bind SearchPathEntry.name).getD ""
    ⟨found.getD ⟨first, resolvedName⟩, true⟩

def tempNamespaceExists (s : AnalysisState) : Bool :=
  s.sawTempObject &&
    (s.relations.keys.any (fun id => isSessionTempSchema id.schema) ||
      s.types.keys.any fun id => isSessionTempSchema id.schema)

def schemaDidNotExistAtSync (s : AnalysisState) (name : String) : Bool :=
  match s.sourceExistingSchemas with
  | none => false
  | some schemas => decide (name ∉ schemas)

def pushPathEntry (s : AnalysisState) (effective : List SearchPathEntry) (schema : String) :
    List SearchPathEntry :=
  let entry : Option SearchPathEntry :=
    if isSessionTempSchema schema then
      if s.tempNamespaceExists then some (.schema schema) else none
    else if schema = systemCatalogSchema then some (.schema schema)
    else if s.schemaIsPresent schema then some (.schema schema)
    else if s.schemaAbsenceIsAuthoritative schema || s.schemaDidNotExistAtSync schema then none
    else some (.unresolved (some schema))
  match entry with
  | none => effective
  | some entry => if entry ∈ effective then effective else effective ++ [entry]

/-- The effective search path that a template denotes in this state. -/
def effectiveSearchPath (s : AnalysisState) (template : List String) : List SearchPathEntry :=
  template.foldl (fun effective entry =>
    if entry = "$user" then
      if s.currentRoleKnown then s.pushPathEntry effective s.currentRole
      else if .unresolved none ∈ effective then effective
      else effective ++ [.unresolved none]
    else s.pushPathEntry effective entry) []

def refreshRoleSensitiveSearchPath (s : AnalysisState) : AnalysisState :=
  { s with searchPath := s.effectiveSearchPath s.searchPathTemplate }

def restorePersistentRoleContext (s : AnalysisState) : AnalysisState :=
  refreshRoleSensitiveSearchPath
    { s with
      currentRole := s.persistentCurrentRole, currentRoleKnown := s.persistentCurrentRoleKnown,
      sessionRole := s.persistentSessionRole, sessionRoleKnown := s.persistentSessionRoleKnown,
      searchPathTemplate := s.sessionSearchPathTemplate,
      lockTimeout := { s.lockTimeout with effective := s.lockTimeout.session },
      statementTimeout := { s.statementTimeout with effective := s.statementTimeout.session } }

/-- Constraint and trigger members are stored as `schema.table.object`. -/
def remapAttachedExtensionMember (s : AnalysisState) (member : ExtensionMember) :
    ExtensionMember :=
  match rsplitOnce '.' member.id.name with
  | none => member
  | some (tableName, objectName) =>
    let table : ObjectId := ⟨member.id.schema, tableName⟩
    let resolved := s.graph.resolveRename table
    if resolved = table then member
    else { member with id := ⟨resolved.schema, resolved.name ++ "." ++ objectName⟩ }

def resolveExtensionMember (s : AnalysisState) (member : ExtensionMember) : ExtensionMember :=
  match member.kind with
  | .constraint | .trigger => s.remapAttachedExtensionMember member
  | .schema => member
  | _ => { member with id := s.graph.resolveRename member.id }

def extensionMemberDropConflict (s : AnalysisState) (kind : ExtensionMemberKind) (r : ObjectRef)
    (objectName : String) : Option MutationResult :=
  let extension := s.extensions.entries.findSome? fun entry =>
    match entry.2 with
    | .dropped => none
    | .present extension =>
      if ∃ member ∈ extension.members,
          member.kind = kind ∧ (s.resolveExtensionMember member).id = r.id then some entry.1
      else none
  extension.map fun extension => .rejected ("cannot drop " ++ objectName ++ " " ++ r.display ++
    " because extension " ++ extension ++ " requires it")

end AnalysisState

end SafeMigrate
