import SafeMigrate.Graph
import SafeMigrate.NestedUndo
import Mathlib.Data.List.Sort

/-! The analysis state, the undo entries a transaction frame records, and
the snapshot operations that push them before a write. -/

namespace SafeMigrate

inductive EvidenceCode
  | baselineUnavailable
  | baselineStale
  | catalogCoverageIncomplete
  | unsupportedStatement
  | unsupportedSemantics
  | unresolvedReference
  | unknownObjectState
  | transactionStateUnknown
  | unmodeledState
deriving DecidableEq, Ord

def EvidenceCode.summary : EvidenceCode → String
  | .baselineUnavailable => "no synchronized baseline was available"
  | .baselineStale => "the synchronized baseline may be stale"
  | .catalogCoverageIncomplete =>
    "the synchronized catalog does not contain all required evidence"
  | .unsupportedStatement => "the statement has no typed semantic model"
  | .unsupportedSemantics => "the statement contains unsupported semantics"
  | .unresolvedReference => "an object reference could not be resolved exactly"
  | .unknownObjectState => "the required object state is unknown"
  | .transactionStateUnknown => "transaction state cannot be modeled exactly"
  | .unmodeledState => "required PostgreSQL state is deliberately outside the semantic model"

inductive EvidenceScope
  | statement
  | chain
deriving DecidableEq, Ord

structure EvidenceLocation where
  file : String
  statementIndex : Nat
deriving DecidableEq, Ord

structure EvidenceRecord where
  code : EvidenceCode
  scope : EvidenceScope
  summary : String
  location : Option EvidenceLocation
deriving DecidableEq, Ord

def EvidenceRecord.new (code : EvidenceCode) (scope : EvidenceScope) : EvidenceRecord :=
  { code, scope, summary := code.summary, location := none }

structure EvidenceLog where
  records : List EvidenceRecord := []
deriving DecidableEq

def EvidenceLog.insert (log : EvidenceLog) (record : EvidenceRecord) : EvidenceLog :=
  if record ∈ log.records then log
  else { records := (log.records ++ [record]).insertionSort fun a b => (compare a b).isLE = true }

inductive Confidence
  | exact
  | tainted
deriving DecidableEq

inductive ConflictKind
  | concurrentInTransaction
  | rejected (reason : String)
deriving DecidableEq

inductive MutationResult
  | applied
  | noOp
  | notExecuted
  | unresolved (cause : EvidenceCode)
  | conflict (kind : ConflictKind)
deriving DecidableEq

def MutationResult.rejected (reason : String) : MutationResult := .conflict (.rejected reason)

inductive ObjectLookup
  | present
  | wrongKind
  | tombstone
  | authoritativelyAbsent
  | unknown
deriving DecidableEq

inductive SearchPathEntry
  | schema (name : String)
  | unresolved (name : Option String)
deriving DecidableEq

def SearchPathEntry.name : SearchPathEntry → Option String
  | .schema name => some name
  | .unresolved name => name

def SearchPathEntry.searchedSchema : SearchPathEntry → Option String
  | .schema name => some name
  | .unresolved _ => none

structure ScopedSetting (α : Type) where
  default : α
  session : α
  effective : α
deriving DecidableEq

inductive CatalogFamily
  | schemas
  | relations
  | sequences
  | indexes
  | constraints
  | triggers
  | routines
  | types
  | extensions
  | dependencies
  | inheritance
  | roles
  | publications
  | subscriptions
deriving DecidableEq

inductive SchemaCoverage
  | allNonSystem
  | explicit (schemas : Finset String)

def SchemaCoverage.covers (c : SchemaCoverage) (schema : String) : Bool :=
  match c with
  | .allNonSystem => true
  | .explicit schemas => decide (schema ∈ schemas)

structure CatalogCoverage where
  schemaScope : SchemaCoverage := .allNonSystem
  families : Finset CatalogFamily := ∅

structure ScopedDependencyEdge where
  family : CatalogFamily
  scopedId : ObjectId
  externalId : Option ObjectId
deriving DecidableEq

structure NamespaceSnapshot where
  schemas : KeyedMap String SchemaOverlay
  relations : KeyedMap ObjectId RelationOverlay
  types : KeyedMap ObjectId TypeOverlay
  functions : KeyedMap ObjectId FunctionOverlay
  sequences : KeyedMap ObjectId SequenceOverlay
  collations : CollationCatalogue
  extensions : KeyedMap String ExtensionOverlay
  publications : KeyedMap String PublicationOverlay
  triggers : KeyedMap ObjectId TriggerOverlay
  constraints : KeyedMap (ObjectId × String) ConstraintState
  graph : List DependencyEdge
  pendingValidation : Finset (ObjectId × String)
  baselineRelations : Finset ObjectId
  baselineIndexes : Finset ObjectId
  baselineForeignKeys : Finset (ObjectId × String)
  baselineFkDependencies : Finset ObjectId
  baselineSequences : Finset ObjectId
  scopedExternalDependencies : Finset ScopedDependencyEdge
  baselineSchemas : Option (Finset String)
  searchPath : List SearchPathEntry
  searchPathTemplate : List String
  sessionSearchPathTemplate : List String

structure RoleContext where
  currentRole : String
  currentRoleKnown : Bool
  persistentCurrentRole : String
  persistentCurrentRoleKnown : Bool
  sessionRole : String
  sessionRoleKnown : Bool
  persistentSessionRole : String
  persistentSessionRoleKnown : Bool
deriving DecidableEq

inductive StateChange
  | schemaSnapshot (name : String) (previous : Option SchemaOverlay)
  | namespaceSnapshot (snapshot : NamespaceSnapshot)
  | relationSnapshot (id : ObjectId) (previous : Option RelationOverlay)
  | typeSnapshot (id : ObjectId) (previous : Option TypeOverlay)
  | sequenceSnapshot (id : ObjectId) (previous : Option SequenceOverlay)
  | extensionSnapshot (name : String) (previous : Option ExtensionOverlay)
  | searchPathSnapshot (previous : List SearchPathEntry)
      (previousTemplate previousSessionTemplate : List String)
  | timeoutSettingsSnapshot (lockTimeout statementTimeout : ScopedSetting (Option Nat))
  | generationCounterSnapshot (previous : Nat)
  | pendingValidationSnapshot (previous : Finset (ObjectId × String))
  | graphLengthMarker (len : Nat)
  | graphSnapshot (previous : List DependencyEdge)
  | functionSnapshot (id : ObjectId) (previous : Option FunctionOverlay)
  | publicationSnapshot (id : ObjectId) (previous : Option PublicationOverlay)
  | subscriptionSnapshot (id : ObjectId) (previous : Option SubscriptionOverlay)
  | roleSnapshot (id : ObjectId) (previous : Option RoleOverlay)
  | roleMembershipGrantorsSnapshot (previous : List RoleMembershipGrantor)
      (previousComplete : Bool)
  | triggerSnapshot (id : ObjectId) (previous : Option TriggerOverlay)
  | constraintSnapshot (tableId : ObjectId) (name : String) (previous : Option ConstraintState)
  | baselineForeignKeysSnapshot (previous : Finset (ObjectId × String))
  | roleContextSnapshot (context : RoleContext)
  | confidenceSnapshot (previous : Confidence)
  | evidenceSnapshot (previous : EvidenceLog)

inductive TransactionFrameKind
  | root
  | savepoint (name : String)
deriving DecidableEq

/-- A frame's `kind` with its `undoLog`, which grows at its end. -/
abbrev TransactionFrame := NestedUndo.Frame TransactionFrameKind StateChange

def rootFrame : TransactionFrame := { kind := .root, undoLog := [] }

def savepointFrame (name : String) : TransactionFrame := { kind := .savepoint name, undoLog := [] }

def isNamedSavepoint (name : String) (kind : TransactionFrameKind) : Bool :=
  kind == .savepoint name

/-- The state of the analyzer with its local part flattened into it. The
innermost transaction frame comes first. -/
structure AnalysisState where
  pgVersionNum : Option Nat := none
  assertedPgVersionNum : Option Nat := none
  baselineAvailable : Bool := false
  baselineBoundaryQueriesComplete : Bool := false
  baselineCoverage : CatalogCoverage := {}
  baselineSchemas : Option (Finset String) := none
  baselineRelations : Finset ObjectId := ∅
  baselineIndexes : Finset ObjectId := ∅
  baselineForeignKeys : Finset (ObjectId × String) := ∅
  baselineFkDependencies : Finset ObjectId := ∅
  baselineSequences : Finset ObjectId := ∅
  scopedExternalDependencies : Finset ScopedDependencyEdge := ∅
  externalReferencingSchemas : Finset String := ∅
  coDroppedObjects : Finset ObjectId := ∅
  schemas : KeyedMap String SchemaOverlay := ∅
  relations : KeyedMap ObjectId RelationOverlay := ∅
  types : KeyedMap ObjectId TypeOverlay := ∅
  functions : KeyedMap ObjectId FunctionOverlay := ∅
  sequences : KeyedMap ObjectId SequenceOverlay := ∅
  extensions : KeyedMap String ExtensionOverlay := ∅
  publications : KeyedMap String PublicationOverlay := ∅
  subscriptions : KeyedMap String SubscriptionOverlay := ∅
  roles : KeyedMap ObjectId RoleOverlay := ∅
  roleMembershipGrantors : List RoleMembershipGrantor := []
  roleMembershipGrantorsComplete : Bool := false
  bootstrapSuperuser : Option String := none
  triggers : KeyedMap ObjectId TriggerOverlay := ∅
  constraints : KeyedMap (ObjectId × String) ConstraintState := ∅
  graph : DependencyGraph := .empty
  searchPath : List SearchPathEntry := []
  collations : CollationCatalogue := ⟨∅⟩
  sawTempObject : Bool := false
  searchPathTemplate : List String := []
  sessionSearchPathTemplate : List String := []
  defaultSearchPathTemplate : List String := []
  sourceExistingSchemas : Option (Finset String) := none
  lockTimeout : ScopedSetting (Option Nat) := ⟨none, none, none⟩
  statementTimeout : ScopedSetting (Option Nat) := ⟨none, none, none⟩
  currentRole : String := ""
  currentRoleKnown : Bool := false
  persistentCurrentRole : String := ""
  persistentCurrentRoleKnown : Bool := false
  sessionRole : String := ""
  sessionRoleKnown : Bool := false
  persistentSessionRole : String := ""
  persistentSessionRoleKnown : Bool := false
  authenticatedRole : String := ""
  authenticatedRoleKnown : Bool := false
  rolesKnown : Bool := false
  confidence : Confidence := .exact
  evidence : EvidenceLog := {}
  currentEvidenceLocation : Option EvidenceLocation := none
  transactions : List TransactionFrame := []
  transactionAborted : Bool := false
  pendingValidation : Finset (ObjectId × String) := ∅
  generationCounter : Nat := 0

namespace AnalysisState

/-! Writes to one field of the state. -/

def setSchemas (s : AnalysisState) (m : KeyedMap String SchemaOverlay) : AnalysisState :=
  { s with schemas := m }

def setRelations (s : AnalysisState) (m : KeyedMap ObjectId RelationOverlay) : AnalysisState :=
  { s with relations := m }

def setTypes (s : AnalysisState) (m : KeyedMap ObjectId TypeOverlay) : AnalysisState :=
  { s with types := m }

def setFunctions (s : AnalysisState) (m : KeyedMap ObjectId FunctionOverlay) : AnalysisState :=
  { s with functions := m }

def setSequences (s : AnalysisState) (m : KeyedMap ObjectId SequenceOverlay) : AnalysisState :=
  { s with sequences := m }

def setExtensions (s : AnalysisState) (m : KeyedMap String ExtensionOverlay) : AnalysisState :=
  { s with extensions := m }

def setPublications (s : AnalysisState) (m : KeyedMap String PublicationOverlay) : AnalysisState :=
  { s with publications := m }

def setTriggers (s : AnalysisState) (m : KeyedMap ObjectId TriggerOverlay) : AnalysisState :=
  { s with triggers := m }

def setConstraints (s : AnalysisState) (m : KeyedMap (ObjectId × String) ConstraintState) :
    AnalysisState :=
  { s with constraints := m }

def setGraph (s : AnalysisState) (g : DependencyGraph) : AnalysisState := { s with graph := g }

def setPendingValidation (s : AnalysisState) (p : Finset (ObjectId × String)) : AnalysisState :=
  { s with pendingValidation := p }

def setBaselineForeignKeys (s : AnalysisState) (b : Finset (ObjectId × String)) : AnalysisState :=
  { s with baselineForeignKeys := b }

def setGenerationCounter (s : AnalysisState) (n : Nat) : AnalysisState :=
  { s with generationCounter := n }

def setConfidence (s : AnalysisState) (c : Confidence) : AnalysisState := { s with confidence := c }

def setEvidence (s : AnalysisState) (e : EvidenceLog) : AnalysisState := { s with evidence := e }

def setTransactions (s : AnalysisState) (frames : List TransactionFrame) : AnalysisState :=
  { s with transactions := frames }

def setTransactionAborted (s : AnalysisState) (aborted : Bool) : AnalysisState :=
  { s with transactionAborted := aborted }

/-- `transactions.last_mut()` followed by a push onto its undo log. -/
def pushUndo (s : AnalysisState) (change : StateChange) : AnalysisState :=
  match s.transactions with
  | [] => s
  | frame :: outer =>
    s.setTransactions ({ frame with undoLog := frame.undoLog ++ [change] } :: outer)

section PushUndo

variable (s : AnalysisState) (change : StateChange)

@[simp] theorem pushUndo_relations : (s.pushUndo change).relations = s.relations := by
  unfold pushUndo
  split <;> rfl

@[simp] theorem pushUndo_graph : (s.pushUndo change).graph = s.graph := by
  unfold pushUndo
  split <;> rfl

@[simp] theorem pushUndo_sequences : (s.pushUndo change).sequences = s.sequences := by
  unfold pushUndo
  split <;> rfl

@[simp] theorem pushUndo_triggers : (s.pushUndo change).triggers = s.triggers := by
  unfold pushUndo
  split <;> rfl

@[simp] theorem pushUndo_constraints : (s.pushUndo change).constraints = s.constraints := by
  unfold pushUndo
  split <;> rfl

end PushUndo

def snapshotRelation (s : AnalysisState) (id : ObjectId) : AnalysisState :=
  s.pushUndo (.relationSnapshot id (s.relations.lookup id))

def snapshotSchema (s : AnalysisState) (name : String) : AnalysisState :=
  s.pushUndo (.schemaSnapshot name (s.schemas.lookup name))

def namespaceOf (s : AnalysisState) : NamespaceSnapshot :=
  { schemas := s.schemas, relations := s.relations, types := s.types, functions := s.functions,
    sequences := s.sequences, collations := s.collations, extensions := s.extensions,
    publications := s.publications, triggers := s.triggers, constraints := s.constraints,
    graph := s.graph.edges, pendingValidation := s.pendingValidation,
    baselineRelations := s.baselineRelations, baselineIndexes := s.baselineIndexes,
    baselineForeignKeys := s.baselineForeignKeys,
    baselineFkDependencies := s.baselineFkDependencies, baselineSequences := s.baselineSequences,
    scopedExternalDependencies := s.scopedExternalDependencies,
    baselineSchemas := s.baselineSchemas, searchPath := s.searchPath,
    searchPathTemplate := s.searchPathTemplate,
    sessionSearchPathTemplate := s.sessionSearchPathTemplate }

def snapshotNamespace (s : AnalysisState) : AnalysisState :=
  s.pushUndo (.namespaceSnapshot s.namespaceOf)

def snapshotType (s : AnalysisState) (id : ObjectId) : AnalysisState :=
  s.pushUndo (.typeSnapshot id (s.types.lookup id))

def snapshotSequence (s : AnalysisState) (id : ObjectId) : AnalysisState :=
  s.pushUndo (.sequenceSnapshot id (s.sequences.lookup id))

def snapshotFunction (s : AnalysisState) (id : ObjectId) : AnalysisState :=
  s.pushUndo (.functionSnapshot id (s.functions.lookup id))

def snapshotPublication (s : AnalysisState) (name : String) : AnalysisState :=
  s.pushUndo (.publicationSnapshot ⟨"", name⟩ (s.publications.lookup name))

def snapshotRole (s : AnalysisState) (id : ObjectId) : AnalysisState :=
  s.pushUndo (.roleSnapshot id (s.roles.lookup id))

def snapshotRoleMembershipGrantors (s : AnalysisState) : AnalysisState :=
  s.pushUndo (.roleMembershipGrantorsSnapshot s.roleMembershipGrantors
    s.roleMembershipGrantorsComplete)

def snapshotTrigger (s : AnalysisState) (id : ObjectId) : AnalysisState :=
  s.pushUndo (.triggerSnapshot id (s.triggers.lookup id))

def snapshotConstraint (s : AnalysisState) (tableId : ObjectId) (name : String) : AnalysisState :=
  s.pushUndo (.constraintSnapshot tableId name (s.constraints.lookup (tableId, name)))

def roleContext (s : AnalysisState) : RoleContext :=
  { currentRole := s.currentRole, currentRoleKnown := s.currentRoleKnown,
    persistentCurrentRole := s.persistentCurrentRole,
    persistentCurrentRoleKnown := s.persistentCurrentRoleKnown,
    sessionRole := s.sessionRole, sessionRoleKnown := s.sessionRoleKnown,
    persistentSessionRole := s.persistentSessionRole,
    persistentSessionRoleKnown := s.persistentSessionRoleKnown }

def snapshotRoleContext (s : AnalysisState) : AnalysisState :=
  s.pushUndo (.roleContextSnapshot s.roleContext)

def snapshotSearchPath (s : AnalysisState) : AnalysisState :=
  s.pushUndo (.searchPathSnapshot s.searchPath s.searchPathTemplate s.sessionSearchPathTemplate)

def snapshotTimeoutSettings (s : AnalysisState) : AnalysisState :=
  s.pushUndo (.timeoutSettingsSnapshot s.lockTimeout s.statementTimeout)

def snapshotGenerationCounter (s : AnalysisState) : AnalysisState :=
  s.pushUndo (.generationCounterSnapshot s.generationCounter)

def snapshotPendingValidation (s : AnalysisState) : AnalysisState :=
  s.pushUndo (.pendingValidationSnapshot s.pendingValidation)

def snapshotBaselineForeignKeys (s : AnalysisState) : AnalysisState :=
  s.pushUndo (.baselineForeignKeysSnapshot s.baselineForeignKeys)

def snapshotConfidence (s : AnalysisState) : AnalysisState :=
  s.pushUndo (.confidenceSnapshot s.confidence)

def snapshotEvidence (s : AnalysisState) : AnalysisState :=
  s.pushUndo (.evidenceSnapshot s.evidence)

def snapshotGraph (s : AnalysisState) : AnalysisState :=
  s.pushUndo (.graphLengthMarker s.graph.edgeCount)

def snapshotGraphFull (s : AnalysisState) : AnalysisState :=
  s.pushUndo (.graphSnapshot s.graph.edges)

def markTainted (s : AnalysisState) : AnalysisState :=
  if s.confidence = .tainted then s else s.snapshotConfidence.setConfidence .tainted

def recordEvidence (s : AnalysisState) (record : EvidenceRecord) : AnalysisState :=
  let record := { record with location := record.location <|> s.currentEvidenceLocation }
  if record ∈ s.evidence.records then s
  else
    let s := s.snapshotEvidence.markTainted
    s.setEvidence (s.evidence.insert record)

def taint (s : AnalysisState) (code : EvidenceCode) (scope : EvidenceScope) : AnalysisState :=
  s.recordEvidence (.new code scope)

end AnalysisState

end SafeMigrate
