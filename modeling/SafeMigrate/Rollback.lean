import SafeMigrate.State

/-! Replaying undo entries. The fields that some entry restores form the
logged part of the state. An entry erases every difference in its own cell,
so a log hides all changes to the cells it has entries for. -/

namespace SafeMigrate

def KeyedMap.put {α β : Type} [DecidableEq α] (m : KeyedMap α β) (key : α) (value : Option β) :
    KeyedMap α β :=
  match value with
  | some value => m.insert key value
  | none => m.erase key

theorem KeyedMap.lookup_put {α β : Type} [DecidableEq α] (m : KeyedMap α β) (key : α)
    (value : Option β) (k : α) :
    (m.put key value).lookup k = if k = key then value else m.lookup k := by
  by_cases hk : k = key
  · subst hk
    cases value <;> simp [KeyedMap.put]
  · cases value <;> simp [KeyedMap.put, hk]

namespace AnalysisState

/-- One round of the loop in `rollback_undo_log`. -/
def undoChange (change : StateChange) (s : AnalysisState) : AnalysisState :=
  match change with
  | .schemaSnapshot name previous => { s with schemas := KeyedMap.put s.schemas name previous }
  | .namespaceSnapshot n =>
    { s with
      schemas := n.schemas, relations := n.relations, types := n.types, functions := n.functions,
      sequences := n.sequences, collations := n.collations, extensions := n.extensions,
      publications := n.publications, triggers := n.triggers, constraints := n.constraints,
      graph := .ofEdges n.graph, pendingValidation := n.pendingValidation,
      baselineRelations := n.baselineRelations, baselineIndexes := n.baselineIndexes,
      baselineForeignKeys := n.baselineForeignKeys,
      baselineFkDependencies := n.baselineFkDependencies,
      baselineSequences := n.baselineSequences,
      scopedExternalDependencies := n.scopedExternalDependencies,
      baselineSchemas := n.baselineSchemas, searchPath := n.searchPath,
      searchPathTemplate := n.searchPathTemplate,
      sessionSearchPathTemplate := n.sessionSearchPathTemplate }
  | .relationSnapshot id previous => { s with relations := KeyedMap.put s.relations id previous }
  | .typeSnapshot id previous => { s with types := KeyedMap.put s.types id previous }
  | .sequenceSnapshot id previous => { s with sequences := KeyedMap.put s.sequences id previous }
  | .extensionSnapshot name previous =>
    { s with extensions := KeyedMap.put s.extensions name previous }
  | .functionSnapshot id previous => { s with functions := KeyedMap.put s.functions id previous }
  | .publicationSnapshot id previous =>
    { s with publications := KeyedMap.put s.publications id.name previous }
  | .subscriptionSnapshot id previous =>
    { s with subscriptions := KeyedMap.put s.subscriptions id.name previous }
  | .roleSnapshot id previous => { s with roles := KeyedMap.put s.roles id previous }
  | .roleMembershipGrantorsSnapshot previous previousComplete =>
    { s with
      roleMembershipGrantors := previous, roleMembershipGrantorsComplete := previousComplete }
  | .triggerSnapshot id previous => { s with triggers := KeyedMap.put s.triggers id previous }
  | .constraintSnapshot tableId name previous =>
    { s with constraints := KeyedMap.put s.constraints (tableId, name) previous }
  | .baselineForeignKeysSnapshot previous => { s with baselineForeignKeys := previous }
  | .graphLengthMarker len => { s with graph := s.graph.truncate len }
  | .graphSnapshot previous => { s with graph := .ofEdges previous }
  | .roleContextSnapshot c =>
    { s with
      currentRole := c.currentRole, currentRoleKnown := c.currentRoleKnown,
      persistentCurrentRole := c.persistentCurrentRole,
      persistentCurrentRoleKnown := c.persistentCurrentRoleKnown,
      sessionRole := c.sessionRole, sessionRoleKnown := c.sessionRoleKnown,
      persistentSessionRole := c.persistentSessionRole,
      persistentSessionRoleKnown := c.persistentSessionRoleKnown }
  | .searchPathSnapshot previous previousTemplate previousSessionTemplate =>
    { s with
      searchPath := previous, searchPathTemplate := previousTemplate,
      sessionSearchPathTemplate := previousSessionTemplate }
  | .timeoutSettingsSnapshot lockTimeout statementTimeout =>
    { s with lockTimeout := lockTimeout, statementTimeout := statementTimeout }
  | .generationCounterSnapshot previous => { s with generationCounter := previous }
  | .pendingValidationSnapshot previous => { s with pendingValidation := previous }
  | .confidenceSnapshot previous => { s with confidence := previous }
  | .evidenceSnapshot previous => { s with evidence := previous }

def rollbackUndoLog (s : AnalysisState) (undoLog : List StateChange) : AnalysisState :=
  NestedUndo.replay undoChange undoLog s

def rollbackFrame (s : AnalysisState) (frame : TransactionFrame) : AnalysisState :=
  s.rollbackUndoLog frame.undoLog

/-- Depth of the transaction and length of its innermost undo log. -/
def transactionUndoCheckpoint (s : AnalysisState) : Option (Nat × Nat) :=
  match s.transactions with
  | [] => none
  | frame :: _ => some (s.transactions.length, frame.undoLog.length)

def rollbackToTransactionUndoCheckpoint (s : AnalysisState) (transactionDepth undoLen : Nat) :
    Except String AnalysisState :=
  if s.transactions.length ≠ transactionDepth then
    .error "statement changed transaction depth while using an undo checkpoint"
  else match s.transactions with
    | [] => .error "statement undo checkpoint lost its transaction frame"
    | frame :: outer =>
      if frame.undoLog.length < undoLen then
        .error "statement shortened the transaction undo log unexpectedly"
      else
        .ok (({ s with transactions :=
          { frame with undoLog := frame.undoLog.take undoLen } :: outer }).rollbackUndoLog
            (frame.undoLog.drop undoLen))

end AnalysisState

/-- Facts that only a namespace entry restores. -/
structure BaselineIdentities where
  collations : CollationCatalogue
  baselineRelations : Finset ObjectId
  baselineIndexes : Finset ObjectId
  baselineFkDependencies : Finset ObjectId
  baselineSequences : Finset ObjectId
  scopedExternalDependencies : Finset ScopedDependencyEdge
  baselineSchemas : Option (Finset String)

structure SearchPathState where
  searchPath : List SearchPathEntry
  searchPathTemplate : List String
  sessionSearchPathTemplate : List String

/-- The undo-logged fields, with every hash map as its lookup function. -/
@[ext] structure LoggedState where
  schemas : String → Option SchemaOverlay
  relations : ObjectId → Option RelationOverlay
  types : ObjectId → Option TypeOverlay
  functions : ObjectId → Option FunctionOverlay
  sequences : ObjectId → Option SequenceOverlay
  extensions : String → Option ExtensionOverlay
  publications : String → Option PublicationOverlay
  subscriptions : String → Option SubscriptionOverlay
  roles : ObjectId → Option RoleOverlay
  triggers : ObjectId → Option TriggerOverlay
  constraints : ObjectId × String → Option ConstraintState
  graph : DependencyGraph
  pendingValidation : Finset (ObjectId × String)
  baselineForeignKeys : Finset (ObjectId × String)
  baseline : BaselineIdentities
  searchPath : SearchPathState
  timeouts : ScopedSetting (Option Nat) × ScopedSetting (Option Nat)
  generationCounter : Nat
  roleMembershipGrantors : List RoleMembershipGrantor × Bool
  roleContext : RoleContext
  confidence : Confidence
  evidence : EvidenceLog

def AnalysisState.logged (s : AnalysisState) : LoggedState where
  schemas name := s.schemas.lookup name
  relations id := s.relations.lookup id
  types id := s.types.lookup id
  functions id := s.functions.lookup id
  sequences id := s.sequences.lookup id
  extensions name := s.extensions.lookup name
  publications name := s.publications.lookup name
  subscriptions name := s.subscriptions.lookup name
  roles id := s.roles.lookup id
  triggers id := s.triggers.lookup id
  constraints key := s.constraints.lookup key
  graph := s.graph
  pendingValidation := s.pendingValidation
  baselineForeignKeys := s.baselineForeignKeys
  baseline :=
    { collations := s.collations, baselineRelations := s.baselineRelations,
      baselineIndexes := s.baselineIndexes, baselineFkDependencies := s.baselineFkDependencies,
      baselineSequences := s.baselineSequences,
      scopedExternalDependencies := s.scopedExternalDependencies,
      baselineSchemas := s.baselineSchemas }
  searchPath :=
    { searchPath := s.searchPath, searchPathTemplate := s.searchPathTemplate,
      sessionSearchPathTemplate := s.sessionSearchPathTemplate }
  timeouts := (s.lockTimeout, s.statementTimeout)
  generationCounter := s.generationCounter
  roleMembershipGrantors := (s.roleMembershipGrantors, s.roleMembershipGrantorsComplete)
  roleContext := s.roleContext
  confidence := s.confidence
  evidence := s.evidence

/-- A lookup function with one entry replaced. -/
def putEntry {α β : Type} [DecidableEq α] (f : α → Option β) (key : α) (value : Option β) :
    α → Option β :=
  fun k => if k = key then value else f k

/-- What an undo entry does to the logged fields. -/
def restore (change : StateChange) (v : LoggedState) : LoggedState :=
  match change with
  | .schemaSnapshot name previous => { v with schemas := putEntry v.schemas name previous }
  | .namespaceSnapshot n =>
    { v with
      schemas := fun name => n.schemas.lookup name, relations := fun id => n.relations.lookup id,
      types := fun id => n.types.lookup id, functions := fun id => n.functions.lookup id,
      sequences := fun id => n.sequences.lookup id,
      extensions := fun name => n.extensions.lookup name,
      publications := fun name => n.publications.lookup name,
      triggers := fun id => n.triggers.lookup id,
      constraints := fun key => n.constraints.lookup key,
      graph := .ofEdges n.graph, pendingValidation := n.pendingValidation,
      baselineForeignKeys := n.baselineForeignKeys,
      baseline :=
        { collations := n.collations, baselineRelations := n.baselineRelations,
          baselineIndexes := n.baselineIndexes,
          baselineFkDependencies := n.baselineFkDependencies,
          baselineSequences := n.baselineSequences,
          scopedExternalDependencies := n.scopedExternalDependencies,
          baselineSchemas := n.baselineSchemas },
      searchPath :=
        { searchPath := n.searchPath, searchPathTemplate := n.searchPathTemplate,
          sessionSearchPathTemplate := n.sessionSearchPathTemplate } }
  | .relationSnapshot id previous => { v with relations := putEntry v.relations id previous }
  | .typeSnapshot id previous => { v with types := putEntry v.types id previous }
  | .sequenceSnapshot id previous => { v with sequences := putEntry v.sequences id previous }
  | .extensionSnapshot name previous =>
    { v with extensions := putEntry v.extensions name previous }
  | .functionSnapshot id previous => { v with functions := putEntry v.functions id previous }
  | .publicationSnapshot id previous =>
    { v with publications := putEntry v.publications id.name previous }
  | .subscriptionSnapshot id previous =>
    { v with subscriptions := putEntry v.subscriptions id.name previous }
  | .roleSnapshot id previous => { v with roles := putEntry v.roles id previous }
  | .roleMembershipGrantorsSnapshot previous previousComplete =>
    { v with roleMembershipGrantors := (previous, previousComplete) }
  | .triggerSnapshot id previous => { v with triggers := putEntry v.triggers id previous }
  | .constraintSnapshot tableId name previous =>
    { v with constraints := putEntry v.constraints (tableId, name) previous }
  | .baselineForeignKeysSnapshot previous => { v with baselineForeignKeys := previous }
  | .graphLengthMarker len => { v with graph := v.graph.truncate len }
  | .graphSnapshot previous => { v with graph := .ofEdges previous }
  | .roleContextSnapshot c => { v with roleContext := c }
  | .searchPathSnapshot previous previousTemplate previousSessionTemplate =>
    { v with
      searchPath :=
        { searchPath := previous, searchPathTemplate := previousTemplate,
          sessionSearchPathTemplate := previousSessionTemplate } }
  | .timeoutSettingsSnapshot lockTimeout statementTimeout =>
    { v with timeouts := (lockTimeout, statementTimeout) }
  | .generationCounterSnapshot previous => { v with generationCounter := previous }
  | .pendingValidationSnapshot previous => { v with pendingValidation := previous }
  | .confidenceSnapshot previous => { v with confidence := previous }
  | .evidenceSnapshot previous => { v with evidence := previous }

theorem logged_undoChange (change : StateChange) (s : AnalysisState) :
    (s.undoChange change).logged = restore change s.logged := by
  cases change <;>
    simp [AnalysisState.undoChange, restore, AnalysisState.logged, AnalysisState.roleContext,
      KeyedMap.lookup_put] <;> rfl

theorem logged_rollbackUndoLog (s : AnalysisState) (log : List StateChange) :
    (s.rollbackUndoLog log).logged = NestedUndo.replay restore log s.logged := by
  induction log with
  | nil => rfl
  | cons change log ih =>
    change ((s.rollbackUndoLog log).undoChange change).logged = _
    rw [logged_undoChange, ih]
    rfl

/-- The cell of the logged state that an undo entry is about. -/
inductive Cell
  | schema (name : String)
  | «namespace»
  | relation (id : ObjectId)
  | type (id : ObjectId)
  | sequence (id : ObjectId)
  | extension (name : String)
  | searchPath
  | timeouts
  | generationCounter
  | pendingValidation
  | graphTail (len : Nat)
  | graph
  | function (id : ObjectId)
  | publication (name : String)
  | subscription (name : String)
  | role (id : ObjectId)
  | roleMembershipGrantors
  | trigger (id : ObjectId)
  | constraint (key : ObjectId × String)
  | baselineForeignKeys
  | roleContext
  | confidence
  | evidence
deriving DecidableEq

def StateChange.cell : StateChange → Cell
  | .schemaSnapshot name _ => .schema name
  | .namespaceSnapshot _ => .namespace
  | .relationSnapshot id _ => .relation id
  | .typeSnapshot id _ => .type id
  | .sequenceSnapshot id _ => .sequence id
  | .extensionSnapshot name _ => .extension name
  | .searchPathSnapshot .. => .searchPath
  | .timeoutSettingsSnapshot .. => .timeouts
  | .generationCounterSnapshot _ => .generationCounter
  | .pendingValidationSnapshot _ => .pendingValidation
  | .graphLengthMarker len => .graphTail len
  | .graphSnapshot _ => .graph
  | .functionSnapshot id _ => .function id
  | .publicationSnapshot id _ => .publication id.name
  | .subscriptionSnapshot id _ => .subscription id.name
  | .roleSnapshot id _ => .role id
  | .roleMembershipGrantorsSnapshot .. => .roleMembershipGrantors
  | .triggerSnapshot id _ => .trigger id
  | .constraintSnapshot tableId name _ => .constraint (tableId, name)
  | .baselineForeignKeysSnapshot _ => .baselineForeignKeys
  | .roleContextSnapshot _ => .roleContext
  | .confidenceSnapshot _ => .confidence
  | .evidenceSnapshot _ => .evidence

/-- A namespace entry covers every field it restores, a keyed entry its own
key, and a length marker the edges past its length. -/
structure AgreeOutside (cells : List Cell) (v w : LoggedState) : Prop where
  schemas : .namespace ∉ cells → ∀ k, .schema k ∉ cells → v.schemas k = w.schemas k
  relations : .namespace ∉ cells → ∀ k, .relation k ∉ cells → v.relations k = w.relations k
  types : .namespace ∉ cells → ∀ k, .type k ∉ cells → v.types k = w.types k
  functions : .namespace ∉ cells → ∀ k, .function k ∉ cells → v.functions k = w.functions k
  sequences : .namespace ∉ cells → ∀ k, .sequence k ∉ cells → v.sequences k = w.sequences k
  extensions : .namespace ∉ cells → ∀ k, .extension k ∉ cells → v.extensions k = w.extensions k
  publications : .namespace ∉ cells →
    ∀ k, .publication k ∉ cells → v.publications k = w.publications k
  subscriptions : ∀ k, .subscription k ∉ cells → v.subscriptions k = w.subscriptions k
  roles : ∀ k, .role k ∉ cells → v.roles k = w.roles k
  triggers : .namespace ∉ cells → ∀ k, .trigger k ∉ cells → v.triggers k = w.triggers k
  constraints : .namespace ∉ cells →
    ∀ k, .constraint k ∉ cells → v.constraints k = w.constraints k
  graph : .namespace ∉ cells → .graph ∉ cells →
    v.graph = w.graph ∨
      ∃ len, .graphTail len ∈ cells ∧ v.graph.edges.take len = w.graph.edges.take len
  pendingValidation : .namespace ∉ cells → .pendingValidation ∉ cells →
    v.pendingValidation = w.pendingValidation
  baselineForeignKeys : .namespace ∉ cells → .baselineForeignKeys ∉ cells →
    v.baselineForeignKeys = w.baselineForeignKeys
  baseline : .namespace ∉ cells → v.baseline = w.baseline
  searchPath : .namespace ∉ cells → .searchPath ∉ cells → v.searchPath = w.searchPath
  timeouts : .timeouts ∉ cells → v.timeouts = w.timeouts
  generationCounter : .generationCounter ∉ cells → v.generationCounter = w.generationCounter
  roleMembershipGrantors : .roleMembershipGrantors ∉ cells →
    v.roleMembershipGrantors = w.roleMembershipGrantors
  roleContext : .roleContext ∉ cells → v.roleContext = w.roleContext
  confidence : .confidence ∉ cells → v.confidence = w.confidence
  evidence : .evidence ∉ cells → v.evidence = w.evidence

theorem putEntry_agree {α β : Type} [DecidableEq α] {f g : α → Option β} {key k : α}
    {value : Option β} (h : k ≠ key → f k = g k) :
    putEntry f key value k = putEntry g key value k := by
  by_cases hk : k = key
  · simp [putEntry, hk]
  · simpa [putEntry, hk] using h hk

theorem not_mem_concat {cells : List Cell} {c d : Cell} (hc : c ∉ cells) (hd : c ≠ d) :
    c ∉ cells ++ [d] := by
  simp [hc, hd]

theorem restore_graph_agree (change : StateChange) {cells : List Cell} {v w : LoggedState}
    (h : AgreeOutside (cells ++ [change.cell]) v w) (hn : .namespace ∉ cells)
    (hg : .graph ∉ cells) :
    (restore change v).graph = (restore change w).graph ∨
      ∃ len, .graphTail len ∈ cells ∧
        (restore change v).graph.edges.take len = (restore change w).graph.edges.take len := by
  cases change with
  | graphLengthMarker len =>
    rcases h.graph (not_mem_concat hn nofun) (not_mem_concat hg nofun) with he | ⟨n, hn, he⟩
    · exact Or.inl (by simp [restore, he])
    · simp only [StateChange.cell, List.mem_append, List.mem_singleton, Cell.graphTail.injEq] at hn
      rcases hn with hn | rfl
      · refine Or.inr ⟨n, hn, ?_⟩
        simp only [restore, DependencyGraph.truncate, List.take_take, min_comm n len]
        rw [← List.take_take, he, List.take_take]
      · exact Or.inl (DependencyGraph.ext_edges he)
  | namespaceSnapshot n => exact Or.inl rfl
  | graphSnapshot previous => exact Or.inl rfl
  | _ => simpa [restore, StateChange.cell, hn, hg] using h.graph

/-- An undo entry removes its own cell from those that two states may
differ in. -/
theorem AgreeOutside.restored {change : StateChange} {cells : List Cell} {v w : LoggedState}
    (h : AgreeOutside (cells ++ [change.cell]) v w) :
    AgreeOutside cells (restore change v) (restore change w) where
  schemas hn k hk := by
    cases change with
    | schemaSnapshot name previous =>
      exact putEntry_agree fun hne => h.schemas (not_mem_concat hn nofun) k
        (not_mem_concat hk (by simpa [StateChange.cell] using hne))
    | namespaceSnapshot n => rfl
    | _ => exact h.schemas (not_mem_concat hn nofun) k (not_mem_concat hk nofun)
  relations hn k hk := by
    cases change with
    | relationSnapshot id previous =>
      exact putEntry_agree fun hne => h.relations (not_mem_concat hn nofun) k
        (not_mem_concat hk (by simpa [StateChange.cell] using hne))
    | namespaceSnapshot n => rfl
    | _ => exact h.relations (not_mem_concat hn nofun) k (not_mem_concat hk nofun)
  types hn k hk := by
    cases change with
    | typeSnapshot id previous =>
      exact putEntry_agree fun hne => h.types (not_mem_concat hn nofun) k
        (not_mem_concat hk (by simpa [StateChange.cell] using hne))
    | namespaceSnapshot n => rfl
    | _ => exact h.types (not_mem_concat hn nofun) k (not_mem_concat hk nofun)
  functions hn k hk := by
    cases change with
    | functionSnapshot id previous =>
      exact putEntry_agree fun hne => h.functions (not_mem_concat hn nofun) k
        (not_mem_concat hk (by simpa [StateChange.cell] using hne))
    | namespaceSnapshot n => rfl
    | _ => exact h.functions (not_mem_concat hn nofun) k (not_mem_concat hk nofun)
  sequences hn k hk := by
    cases change with
    | sequenceSnapshot id previous =>
      exact putEntry_agree fun hne => h.sequences (not_mem_concat hn nofun) k
        (not_mem_concat hk (by simpa [StateChange.cell] using hne))
    | namespaceSnapshot n => rfl
    | _ => exact h.sequences (not_mem_concat hn nofun) k (not_mem_concat hk nofun)
  extensions hn k hk := by
    cases change with
    | extensionSnapshot name previous =>
      exact putEntry_agree fun hne => h.extensions (not_mem_concat hn nofun) k
        (not_mem_concat hk (by simpa [StateChange.cell] using hne))
    | namespaceSnapshot n => rfl
    | _ => exact h.extensions (not_mem_concat hn nofun) k (not_mem_concat hk nofun)
  publications hn k hk := by
    cases change with
    | publicationSnapshot id previous =>
      exact putEntry_agree fun hne => h.publications (not_mem_concat hn nofun) k
        (not_mem_concat hk (by simpa [StateChange.cell] using hne))
    | namespaceSnapshot n => rfl
    | _ => exact h.publications (not_mem_concat hn nofun) k (not_mem_concat hk nofun)
  subscriptions k hk := by
    cases change with
    | subscriptionSnapshot id previous =>
      exact putEntry_agree fun hne => h.subscriptions k (not_mem_concat hk (by simpa [StateChange.cell] using hne))
    | _ => exact h.subscriptions k (not_mem_concat hk nofun)
  roles k hk := by
    cases change with
    | roleSnapshot id previous =>
      exact putEntry_agree fun hne => h.roles k (not_mem_concat hk (by simpa [StateChange.cell] using hne))
    | _ => exact h.roles k (not_mem_concat hk nofun)
  triggers hn k hk := by
    cases change with
    | triggerSnapshot id previous =>
      exact putEntry_agree fun hne => h.triggers (not_mem_concat hn nofun) k
        (not_mem_concat hk (by simpa [StateChange.cell] using hne))
    | namespaceSnapshot n => rfl
    | _ => exact h.triggers (not_mem_concat hn nofun) k (not_mem_concat hk nofun)
  constraints hn k hk := by
    cases change with
    | constraintSnapshot tableId name previous =>
      exact putEntry_agree fun hne => h.constraints (not_mem_concat hn nofun) k
        (not_mem_concat hk (by simpa [StateChange.cell] using hne))
    | namespaceSnapshot n => rfl
    | _ => exact h.constraints (not_mem_concat hn nofun) k (not_mem_concat hk nofun)
  graph := restore_graph_agree change h
  pendingValidation hn hf := by
    cases change with
    | pendingValidationSnapshot previous => rfl
    | namespaceSnapshot n => rfl
    | _ => exact h.pendingValidation (not_mem_concat hn nofun) (not_mem_concat hf nofun)
  baselineForeignKeys hn hf := by
    cases change with
    | baselineForeignKeysSnapshot previous => rfl
    | namespaceSnapshot n => rfl
    | _ => exact h.baselineForeignKeys (not_mem_concat hn nofun) (not_mem_concat hf nofun)
  baseline hn := by
    cases change with
    | namespaceSnapshot n => rfl
    | _ => exact h.baseline (not_mem_concat hn nofun)
  searchPath hn hf := by
    cases change with
    | searchPathSnapshot previous template sessionTemplate => rfl
    | namespaceSnapshot n => rfl
    | _ => exact h.searchPath (not_mem_concat hn nofun) (not_mem_concat hf nofun)
  timeouts hf := by
    cases change with
    | timeoutSettingsSnapshot lock statement => rfl
    | _ => exact h.timeouts (not_mem_concat hf nofun)
  generationCounter hf := by
    cases change with
    | generationCounterSnapshot previous => rfl
    | _ => exact h.generationCounter (not_mem_concat hf nofun)
  roleMembershipGrantors hf := by
    cases change with
    | roleMembershipGrantorsSnapshot previous complete => rfl
    | _ => exact h.roleMembershipGrantors (not_mem_concat hf nofun)
  roleContext hf := by
    cases change with
    | roleContextSnapshot context => rfl
    | _ => exact h.roleContext (not_mem_concat hf nofun)
  confidence hf := by
    cases change with
    | confidenceSnapshot previous => rfl
    | _ => exact h.confidence (not_mem_concat hf nofun)
  evidence hf := by
    cases change with
    | evidenceSnapshot previous => rfl
    | _ => exact h.evidence (not_mem_concat hf nofun)

theorem AgreeOutside.eq {v w : LoggedState} (h : AgreeOutside [] v w) : v = w := by
  have hgraph : v.graph = w.graph := by simpa using h.graph
  ext1
  · exact funext fun k => h.schemas (by simp) k (by simp)
  · exact funext fun k => h.relations (by simp) k (by simp)
  · exact funext fun k => h.types (by simp) k (by simp)
  · exact funext fun k => h.functions (by simp) k (by simp)
  · exact funext fun k => h.sequences (by simp) k (by simp)
  · exact funext fun k => h.extensions (by simp) k (by simp)
  · exact funext fun k => h.publications (by simp) k (by simp)
  · exact funext fun k => h.subscriptions k (by simp)
  · exact funext fun k => h.roles k (by simp)
  · exact funext fun k => h.triggers (by simp) k (by simp)
  · exact funext fun k => h.constraints (by simp) k (by simp)
  · exact hgraph
  · exact h.pendingValidation (by simp) (by simp)
  · exact h.baselineForeignKeys (by simp) (by simp)
  · exact h.baseline (by simp)
  · exact h.searchPath (by simp) (by simp)
  · exact h.timeouts (by simp)
  · exact h.generationCounter (by simp)
  · exact h.roleMembershipGrantors (by simp)
  · exact h.roleContext (by simp)
  · exact h.confidence (by simp)
  · exact h.evidence (by simp)

/-- Replaying a log hides every difference in the cells it has entries for. -/
theorem AgreeOutside.replay_eq {log : List StateChange} {v w : LoggedState}
    (h : AgreeOutside (log.map StateChange.cell) v w) :
    NestedUndo.replay restore log v = NestedUndo.replay restore log w := by
  induction log using List.reverseRecOn generalizing v w with
  | nil => exact h.eq
  | append_singleton log change ih =>
    rw [List.map_append] at h
    simpa [NestedUndo.replay_append] using ih h.restored

/-- `Records s e`: entry `e` is what its snapshot operation pushes in `s`. -/
inductive Records (s : AnalysisState) : StateChange → Prop
  | schema (name : String) : Records s (.schemaSnapshot name (s.schemas.lookup name))
  | «namespace» : Records s (.namespaceSnapshot s.namespaceOf)
  | relation (id : ObjectId) : Records s (.relationSnapshot id (s.relations.lookup id))
  | type (id : ObjectId) : Records s (.typeSnapshot id (s.types.lookup id))
  | sequence (id : ObjectId) : Records s (.sequenceSnapshot id (s.sequences.lookup id))
  | extension (name : String) : Records s (.extensionSnapshot name (s.extensions.lookup name))
  | searchPath : Records s
      (.searchPathSnapshot s.searchPath s.searchPathTemplate s.sessionSearchPathTemplate)
  | timeouts : Records s (.timeoutSettingsSnapshot s.lockTimeout s.statementTimeout)
  | generationCounter : Records s (.generationCounterSnapshot s.generationCounter)
  | pendingValidation : Records s (.pendingValidationSnapshot s.pendingValidation)
  | graphTail : Records s (.graphLengthMarker s.graph.edgeCount)
  | graph : Records s (.graphSnapshot s.graph.edges)
  | function (id : ObjectId) : Records s (.functionSnapshot id (s.functions.lookup id))
  | publication (name : String) :
    Records s (.publicationSnapshot ⟨"", name⟩ (s.publications.lookup name))
  | subscription (name : String) :
    Records s (.subscriptionSnapshot ⟨"", name⟩ (s.subscriptions.lookup name))
  | role (id : ObjectId) : Records s (.roleSnapshot id (s.roles.lookup id))
  | roleMembershipGrantors : Records s
      (.roleMembershipGrantorsSnapshot s.roleMembershipGrantors s.roleMembershipGrantorsComplete)
  | trigger (id : ObjectId) : Records s (.triggerSnapshot id (s.triggers.lookup id))
  | constraint (tableId : ObjectId) (name : String) :
    Records s (.constraintSnapshot tableId name (s.constraints.lookup (tableId, name)))
  | baselineForeignKeys : Records s (.baselineForeignKeysSnapshot s.baselineForeignKeys)
  | roleContext : Records s (.roleContextSnapshot s.roleContext)
  | confidence : Records s (.confidenceSnapshot s.confidence)
  | evidence : Records s (.evidenceSnapshot s.evidence)

@[simp] theorem putEntry_self {α β : Type} [DecidableEq α] (f : α → Option β) (key : α) :
    putEntry f key (f key) = f := by
  funext k
  by_cases hk : k = key <;> simp [putEntry, hk]

theorem Records.restore_logged {s : AnalysisState} {change : StateChange}
    (h : Records s change) : restore change s.logged = s.logged := by
  cases h with
  | «namespace» => simp [restore, AnalysisState.namespaceOf, AnalysisState.logged]
  | graphTail =>
    simp only [restore, AnalysisState.logged, DependencyGraph.edgeCount]
    congr 1
    exact DependencyGraph.ext_edges (List.take_length)
  | graph => simp [restore, AnalysisState.logged]
  | searchPath => rfl
  | timeouts => rfl
  | generationCounter => rfl
  | pendingValidation => rfl
  | roleMembershipGrantors => rfl
  | baselineForeignKeys => rfl
  | roleContext => rfl
  | confidence => rfl
  | evidence => rfl
  | _ => simp [restore, AnalysisState.logged, putEntry_self]

theorem Records.replay_logged {s : AnalysisState} {log : List StateChange}
    (h : ∀ change ∈ log, Records s change) :
    NestedUndo.replay restore log s.logged = s.logged := by
  induction log with
  | nil => rfl
  | cons change log ih =>
    have hrest := ih fun c hc => h c (List.mem_cons_of_mem _ hc)
    change restore change (NestedUndo.replay restore log s.logged) = _
    rw [hrest]
    exact (h change (by simp)).restore_logged

end SafeMigrate
