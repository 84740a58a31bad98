import SafeMigrate.Cascade
import SafeMigrate.Coverage

/-! `DROP TABLE`: the targets, the refusal when other objects depend on
them, and the removal of everything that goes with a dropped relation. -/

namespace SafeMigrate

structure DropTable where
  ids : List ObjectRef
  ifExists : Bool
  cascade : Bool

/-- Why the loop over the listed tables ends the statement. -/
inductive DropTargetStop
  | conflict (reason : String)
  | unknownObject
deriving DecidableEq

namespace AnalysisState

def unresolved (s : AnalysisState) (code : EvidenceCode) : MutationResult × AnalysisState :=
  (.unresolved code, s.taint code .chain)

def tombstoneRelation (s : AnalysisState) (id : ObjectId) : AnalysisState :=
  let s := s.snapshotRelation id
  s.setRelations (s.relations.insert id .dropped)

def tombstoneSequence (s : AnalysisState) (id : ObjectId) : AnalysisState :=
  let s := s.snapshotSequence id
  s.setSequences (s.sequences.insert id .dropped)

def tombstoneTrigger (s : AnalysisState) (id : ObjectId) : AnalysisState :=
  let s := s.snapshotTrigger id
  s.setTriggers (s.triggers.insert id .dropped)

/-- `snapshot_graph_full` followed by `retain_edges`. -/
def retainGraphEdges (s : AnalysisState) (keep : DependencyEdge → Bool) : AnalysisState :=
  let s := s.snapshotGraphFull
  s.setGraph (s.graph.retainEdges keep)

def removeConstraint (s : AnalysisState) (key : ObjectId × String) : AnalysisState :=
  let s := s.snapshotConstraint key.1 key.2
  s.setConstraints (s.constraints.erase key)

def removeDroppedConstraints (s : AnalysisState) (droppedRelations : List ObjectId)
    (droppedConstraints : List (ObjectId × String)) : AnalysisState :=
  let graph := s.graph
  let shouldRemove (key : ObjectId × String) : Bool :=
    decide (graph.resolveRename key.1 ∈ droppedRelations) ||
      decide ((graph.resolveRename key.1, key.2) ∈ droppedConstraints)
  let s := (s.constraints.keys.filter shouldRemove).foldl removeConstraint s
  let s :=
    if ∃ key ∈ s.pendingValidation, shouldRemove key = true then
      let s := s.snapshotPendingValidation
      s.setPendingValidation (s.pendingValidation.filter fun key => !shouldRemove key)
    else s
  if ∃ key ∈ s.baselineForeignKeys, shouldRemove key = true then
    let s := s.snapshotBaselineForeignKeys
    s.setBaselineForeignKeys (s.baselineForeignKeys.filter fun key => !shouldRemove key)
  else s

/-- Whether the cascade names the constraint. -/
def dropsConstraint (closure : CascadeResult) (key : ObjectId × String) : Bool :=
  decide (key ∈ closure.droppedConstraints)

@[simp] theorem dropsConstraint_eq (closure : CascadeResult) (key : ObjectId × String) :
    dropsConstraint closure key = decide (key ∈ closure.droppedConstraints) := rfl

/-- The loop over the listed tables: those present, and whether some target
is unknown. -/
def scanDropTargets (s : AnalysisState) (ifExists : Bool) :
    List ObjectRef → List ObjectRef → Bool → Except DropTargetStop (List ObjectRef × Bool)
  | [], present, unknown => .ok (present, unknown)
  | r :: rest, present, unknown =>
    match s.relationLookup r (· == .table) with
    | .present => scanDropTargets s ifExists rest (present ++ [r]) unknown
    | .wrongKind => .error (.conflict ("'" ++ r.display ++ "' is not a table"))
    | .authoritativelyAbsent | .tombstone =>
      if ifExists then scanDropTargets s ifExists rest present unknown
      else .error (.conflict ("table '" ++ r.display ++ "' does not exist"))
    | .unknown =>
      if ifExists then scanDropTargets s ifExists rest present true
      else .error .unknownObject

/-- Sorted by display text, neighbours with one identity merged. -/
def sortTargets (targets : List ObjectRef) : List ObjectRef :=
  (targets.insertionSort fun a b => a.display ≤ b.display).destutter fun a b => a.id ≠ b.id

def hasViewDeps (s : AnalysisState) (roots : List ObjectId) : Bool :=
  s.graph.edges.any fun e => s.dependencyEdgeIsCurrent e && e.kind.isViewDependency &&
    decide (s.graph.resolveRename e.referenced ∈ roots) &&
    decide (s.graph.resolveRename e.dependent ∉ roots) &&
    decide (s.graph.resolveRename e.dependent ∉ s.coDroppedObjects)

def hasFkDeps (s : AnalysisState) (roots : List ObjectId) : Bool :=
  s.graph.edges.any fun e => s.dependencyEdgeIsCurrent e && e.kind.isForeignKey &&
    decide (s.graph.resolveRename e.referenced ∈ roots) &&
    decide (s.graph.resolveRename e.dependent ∉ roots) &&
    decide (s.graph.resolveRename e.dependent ∉ s.coDroppedObjects)

def isInheritanceOrPartition : DependencyKind → Bool
  | .inheritanceOf => true
  | .partitionOf => true
  | .partitionDetachPending => true
  | _ => false

def hasInheritanceDeps (s : AnalysisState) (roots : List ObjectId) : Bool :=
  s.graph.edges.any fun e => isInheritanceOrPartition e.kind &&
    decide (s.graph.resolveRename e.referenced ∈ roots) &&
    decide (s.graph.resolveRename e.dependent ∉ roots) &&
    decide (s.graph.resolveRename e.dependent ∉ s.coDroppedObjects)

def dependentObjectsReason (targetCount : Nat) (displayNames : String) : String :=
  let relationWord := if targetCount = 1 then "relation" else "relations"
  let dependentVerb := if targetCount = 1 then "has" else "have"
  relationWord ++ " '" ++ displayNames ++ "' still " ++ dependentVerb ++
    " dependent objects; use CASCADE"

/-- Edges that a cascading drop keeps before the sweeps. -/
def cascadeKeeps (resolve : ObjectId → ObjectId) (closure : CascadeResult)
    (e : DependencyEdge) : Bool :=
  match e.kind with
  | .indexOnRelation .. => decide (resolve e.dependent ∉ closure.droppedIndexes)
  | .foreignKey constraintName .. =>
    !(decide (resolve e.dependent ∈ closure.droppedRelations) ||
      decide (resolve e.referenced ∈ closure.droppedRelations) ||
      match constraintName with
      | some name => decide ((resolve e.dependent, name) ∈ closure.droppedConstraints)
      | none => false)
  | .viewDependency .. => decide (resolve e.dependent ∉ closure.droppedRelations)
  | .sequenceOwnedBy _ => decide (resolve e.referenced ∉ closure.droppedRelations)
  | _ => true

/-- Edges that a restricted drop keeps before the sweeps. -/
def restrictKeeps (resolve : ObjectId → ObjectId) (roots : List ObjectId)
    (e : DependencyEdge) : Bool :=
  if resolve e.dependent ∈ roots then
    match e.kind with
    | .foreignKey .. | .columnGeneratedFrom .. | .columnDefaultOnSequence _ => false
    | _ => true
  else if resolve e.referenced ∈ roots then
    match e.kind with
    | .indexOnRelation .. | .sequenceOwnedBy _ | .columnGeneratedFrom .. => false
    | _ => true
  else true

def ownedSequencesToDrop (s : AnalysisState) (resolve : ObjectId → ObjectId)
    (droppedRelations : List ObjectId) : List ObjectId :=
  s.sequences.entries.filterMap fun entry =>
    match entry.2 with
    | .present sequence =>
      match sequence.ownedBy with
      | some (table, _) => if resolve table ∈ droppedRelations then some entry.1 else none
      | none => none
    | .dropped => none

def triggersToDrop (s : AnalysisState) (resolve : ObjectId → ObjectId)
    (droppedRelations : List ObjectId) : List ObjectId :=
  s.triggers.entries.filterMap fun entry =>
    match entry.2 with
    | .present trigger =>
      let graphMatches := s.graph.edges.any fun edge =>
        edge.kind.isTriggerOnTable && edge.dependent == entry.1 &&
          decide (resolve edge.referenced ∈ droppedRelations)
      if resolve trigger.tableId ∈ droppedRelations ∨ graphMatches = true then some entry.1
      else none
    | .dropped => none

/-- A listed table stays in a publication unless its relation was dropped. -/
def publicationObjectRetained (s : AnalysisState) (resolve : ObjectId → ObjectId)
    (droppedRelations : List ObjectId) : PublicationObjectFact → Bool
  | .table name .. => decide (resolve (s.resolveRelationId name).id ∉ droppedRelations)
  | _ => true

def publicationUpdates (s : AnalysisState) (resolve : ObjectId → ObjectId)
    (droppedRelations : List ObjectId) : List (String × List PublicationObjectFact) :=
  s.publications.entries.filterMap fun entry =>
    match entry.2 with
    | .present publication =>
      match publication.scope with
      | .explicit objects =>
        let retained := objects.filter (s.publicationObjectRetained resolve droppedRelations)
        if retained.length ≠ objects.length then some (entry.1, retained) else none
      | .allTables _ => none
    | .dropped => none

def retainPublicationObjects (s : AnalysisState)
    (update : String × List PublicationObjectFact) : AnalysisState :=
  let s := s.snapshotPublication update.1
  match s.publications.lookup update.1 with
  | some (.present publication) =>
    match publication.scope with
    | .explicit _ =>
      s.setPublications (s.publications.insert update.1
        (.present { publication with scope := .explicit update.2 }))
    | .allTables _ => s
  | _ => s

/-- Everything that follows the relations themselves: owned sequences,
constraints, triggers, the edges that touch them, and publication members. -/
def dropTableRemainder (s : AnalysisState) (resolve : ObjectId → ObjectId)
    (dropped : CascadeResult) : AnalysisState :=
  let relations := dropped.droppedRelations
  let s := (s.ownedSequencesToDrop resolve relations).foldl tombstoneSequence s
  let s := s.removeDroppedConstraints relations dropped.droppedConstraints
  let s := (s.triggersToDrop resolve relations).foldl tombstoneTrigger s
  let s := s.retainGraphEdges fun e =>
    !(e.kind.isTriggerOnTable && decide (resolve e.referenced ∈ relations))
  let s := s.retainGraphEdges fun e =>
    decide (resolve e.dependent ∉ relations) && decide (resolve e.referenced ∉ relations) &&
      decide (resolve e.dependent ∉ dropped.droppedIndexes)
  let s := (s.publicationUpdates resolve relations).foldl retainPublicationObjects s
  s.retainGraphEdges fun e =>
    !e.kind.isPublicationIncludes || decide (resolve e.dependent ∉ relations)

/-- `closure_touches_baseline` of a cascading drop. -/
def closureTouchesBaseline (s : AnalysisState) (roots : List ObjectId)
    (closure : CascadeResult) : Bool :=
  closure.droppedRelations.any (fun id => s.baselineRelationIsKnown id && decide (id ∉ roots)) ||
    closure.droppedConstraints.any fun key => decide (key ∈ s.baselineForeignKeys)

def dropTableCascade (s : AnalysisState) (resolve : ObjectId → ObjectId)
    (closure : CascadeResult) : AnalysisState :=
  let s :=
    if closure.droppedRelations.any fun id =>
        !s.relationIsPresent id && !s.baselineRelationIsKnown id then
      s.taint .unknownObjectState .chain
    else s
  let s := closure.droppedRelations.foldl tombstoneRelation s
  (s.retainGraphEdges (cascadeKeeps resolve closure)).dropTableRemainder resolve closure

def dropTableRestrict (s : AnalysisState) (resolve : ObjectId → ObjectId)
    (roots : List ObjectId) : AnalysisState :=
  let s := roots.foldl tombstoneRelation s
  (s.retainGraphEdges (restrictKeeps resolve roots)).dropTableRemainder resolve
    { droppedRelations := roots }

/-- A drop of present targets whose known dependents may be incomplete. -/
def incompleteClosure (s : AnalysisState) (targets : List ObjectId) : Bool :=
  targets.any (fun id => s.baselineRelationIsKnown id) && !s.baselineHasCoverage .dependencies ||
    targets.any fun id => s.baselineScopedFamilyObject id .relations

def taintIncomplete (s : AnalysisState) (incomplete : Bool) : AnalysisState :=
  if incomplete then s.taint .catalogCoverageIncomplete .chain else s

def dropPresentTables (s : AnalysisState) (targets : List ObjectId) (displayNames : String)
    (cascade : Bool) (precomputedCascade : Option CascadeResult) :
    MutationResult × AnalysisState :=
  let incomplete := s.incompleteClosure targets
  let roots := (targets.map s.graph.resolveRename).dedup
  if cascade then
    let closure := precomputedCascade.getD (s.cascadeForRelations targets)
    if s.closureTouchesBaseline roots closure && !s.baselineHasCoverage .dependencies then
      s.unresolved .catalogCoverageIncomplete
    else
      (.applied, (s.dropTableCascade s.graph.resolveRename closure).taintIncomplete incomplete)
  else if s.hasViewDeps roots || s.hasFkDeps roots || s.hasInheritanceDeps roots then
    (.rejected (dependentObjectsReason targets.length displayNames), s)
  else (.applied, (s.dropTableRestrict s.graph.resolveRename roots).taintIncomplete incomplete)

def applyDropTable (s : AnalysisState) (dropTable : DropTable)
    (precomputedCascade : Option CascadeResult) : MutationResult × AnalysisState :=
  if dropTable.ids.isEmpty then (.noOp, s)
  else match dropTable.ids.findSome? fun r =>
      s.extensionMemberDropConflict .relation r "table" with
    | some result => (result, s)
    | none =>
      match s.scanDropTargets dropTable.ifExists dropTable.ids [] false with
      | .error (.conflict reason) => (.rejected reason, s)
      | .error .unknownObject => s.unresolved .unknownObjectState
      | .ok (_, true) => s.unresolved .unknownObjectState
      | .ok ([], false) => (.noOp, s)
      | .ok (present, false) =>
        s.dropPresentTables ((sortTargets present).map (·.id))
          (", ".intercalate (dropTable.ids.map (·.display))) dropTable.cascade precomputedCascade

section Coverage

variable (s : AnalysisState)

theorem logged_tombstoneRelation (id : ObjectId) : Logged s (s.tombstoneRelation id) := by
  have h : LoggedCovering [.relation id] s (s.snapshotRelation id) := logged_of_records (.relation id)
  exact (h.setRelations (by simp) fun k hk => AList.lookup_insert_ne hk).logged

theorem logged_tombstoneSequence (id : ObjectId) : Logged s (s.tombstoneSequence id) := by
  have h : LoggedCovering [.sequence id] s (s.snapshotSequence id) := logged_of_records (.sequence id)
  exact (h.setSequences (by simp) fun k hk => AList.lookup_insert_ne hk).logged

theorem logged_tombstoneTrigger (id : ObjectId) : Logged s (s.tombstoneTrigger id) := by
  have h : LoggedCovering [.trigger id] s (s.snapshotTrigger id) := logged_of_records (.trigger id)
  exact (h.setTriggers (by simp) fun k hk => AList.lookup_insert_ne hk).logged

theorem logged_retainGraphEdges (keep : DependencyEdge → Bool) :
    Logged s (s.retainGraphEdges keep) := by
  have h : LoggedCovering [.graph] s s.snapshotGraphFull := logged_of_records .graph
  exact (h.setGraph (by simp) _).logged

theorem logged_removeConstraint (key : ObjectId × String) : Logged s (s.removeConstraint key) := by
  have h : LoggedCovering [.constraint key] s (s.snapshotConstraint key.1 key.2) :=
    logged_of_records (.constraint key.1 key.2)
  exact (h.setConstraints (by simp) fun k hk => AList.lookup_erase_ne hk).logged

theorem logged_removeDroppedConstraints (droppedRelations : List ObjectId)
    (droppedConstraints : List (ObjectId × String)) :
    Logged s (s.removeDroppedConstraints droppedRelations droppedConstraints) := by
  unfold removeDroppedConstraints
  refine (Logged.foldl (fun s key => s.logged_removeConstraint key) _ s).trans
    (Logged.trans (Logged.ite (fun _ => ?_) fun _ => Logged.refl _)
      (Logged.ite (fun _ => ?_) fun _ => Logged.refl _))
  · have h (t : AnalysisState) : LoggedCovering [.pendingValidation] t t.snapshotPendingValidation :=
      logged_of_records .pendingValidation
    exact ((h _).setPendingValidation (by simp) _).logged
  · have h (t : AnalysisState) :
        LoggedCovering [.baselineForeignKeys] t t.snapshotBaselineForeignKeys :=
      logged_of_records .baselineForeignKeys
    exact ((h _).setBaselineForeignKeys (by simp) _).logged

theorem logged_retainPublicationObjects (update : String × List PublicationObjectFact) :
    Logged s (s.retainPublicationObjects update) := by
  have h : LoggedCovering [.publication update.1] s (s.snapshotPublication update.1) :=
    logged_of_records (.publication update.1)
  unfold retainPublicationObjects
  dsimp only
  split
  · split
    · exact (h.setPublications (by simp) fun k hk => AList.lookup_insert_ne hk).logged
    · exact h.logged
  · exact h.logged

theorem logged_dropTableRemainder (resolve : ObjectId → ObjectId) (dropped : CascadeResult) :
    Logged s (s.dropTableRemainder resolve dropped) := by
  unfold dropTableRemainder
  exact (Logged.foldl (fun s id => s.logged_tombstoneSequence id) _ s).trans
    ((logged_removeDroppedConstraints _ _ _).trans
      ((Logged.foldl (fun s id => s.logged_tombstoneTrigger id) _ _).trans
        ((logged_retainGraphEdges _ _).trans
          ((logged_retainGraphEdges _ _).trans
            ((Logged.foldl (fun s update => s.logged_retainPublicationObjects update) _ _).trans
              (logged_retainGraphEdges _ _))))))

theorem logged_dropTableCascade (resolve : ObjectId → ObjectId) (closure : CascadeResult) :
    Logged s (s.dropTableCascade resolve closure) := by
  unfold dropTableCascade
  exact (Logged.ite (fun _ => s.logged_taint _ _) fun _ => Logged.refl s).trans
    ((Logged.foldl (fun s id => s.logged_tombstoneRelation id) _ _).trans
      ((logged_retainGraphEdges _ _).trans (logged_dropTableRemainder _ _ _)))

theorem logged_dropTableRestrict (resolve : ObjectId → ObjectId) (roots : List ObjectId) :
    Logged s (s.dropTableRestrict resolve roots) := by
  unfold dropTableRestrict
  exact (Logged.foldl (fun s id => s.logged_tombstoneRelation id) _ s).trans
    ((logged_retainGraphEdges _ _).trans (logged_dropTableRemainder _ _ _))

theorem logged_taintIncomplete (incomplete : Bool) : Logged s (s.taintIncomplete incomplete) :=
  Logged.ite (fun _ => s.logged_taint _ _) fun _ => Logged.refl s

theorem logged_dropPresentTables (targets : List ObjectId) (displayNames : String) (cascade : Bool)
    (precomputedCascade : Option CascadeResult) :
    Logged s (s.dropPresentTables targets displayNames cascade precomputedCascade).2 := by
  unfold dropPresentTables
  dsimp only
  split
  · split
    · exact s.logged_taint _ _
    · exact (s.logged_dropTableCascade _ _).trans (logged_taintIncomplete _ _)
  · split
    · exact Logged.refl s
    · exact (s.logged_dropTableRestrict _ _).trans (logged_taintIncomplete _ _)

/-- Every write of `DROP TABLE` is covered by an entry it pushed first. -/
theorem logged_applyDropTable (dropTable : DropTable) (precomputedCascade : Option CascadeResult) :
    Logged s (s.applyDropTable dropTable precomputedCascade).2 := by
  unfold applyDropTable
  split
  · exact Logged.refl s
  · split
    · exact Logged.refl s
    · split
      · exact Logged.refl s
      · exact s.logged_taint _ _
      · exact s.logged_taint _ _
      · exact Logged.refl s
      · exact s.logged_dropPresentTables _ _ _ _

end Coverage

end AnalysisState

end SafeMigrate
