import SafeMigrate.DropTable

/-! The drop of views, typed tables and other relations as one family: the
relations, their triggers, their constraints and the edges that touch them. -/

namespace SafeMigrate

namespace AnalysisState

def removeDroppedRelationEdges (s : AnalysisState) (droppedRelations droppedIndexes : List ObjectId) :
    AnalysisState :=
  s.retainGraphEdges fun edge =>
    let dependent := s.graph.resolveRename edge.dependent
    let referenced := s.graph.resolveRename edge.referenced
    if dependent ∈ droppedIndexes then false
    else if dependent ∈ droppedRelations then false
    else if referenced ∈ droppedRelations then false
    else true

def hasExternalViewDependents (s : AnalysisState) (roots : List ObjectId) : Bool :=
  s.graph.edges.any fun edge => s.dependencyEdgeIsCurrent edge && edge.kind.isViewDependency &&
    decide (s.graph.resolveRename edge.referenced ∈ roots) &&
    decide (s.graph.resolveRename edge.dependent ∉ roots) &&
    decide (s.graph.resolveRename edge.dependent ∉ s.coDroppedObjects)

/-- The triggers whose own table field leads to a dropped relation. -/
def familyTriggersToDrop (s : AnalysisState) (droppedRelations : List ObjectId) : List ObjectId :=
  s.triggers.entries.filterMap fun entry =>
    match entry.2 with
    | .present trigger =>
      if s.graph.resolveRename trigger.tableId ∈ droppedRelations then some entry.1 else none
    | .dropped => none

/-- The removal itself, with the closure already computed. -/
def dropFamily (s : AnalysisState) (closure : CascadeResult) : AnalysisState :=
  let droppedRelations := closure.droppedRelations.filter s.relationIsPresent
  let s := droppedRelations.foldl tombstoneRelation s
  let s := (s.familyTriggersToDrop droppedRelations).foldl tombstoneTrigger s
  let s := s.removeDroppedConstraints closure.droppedRelations closure.droppedConstraints
  s.removeDroppedRelationEdges closure.droppedRelations closure.droppedIndexes

def applyDropRelationFamily (s : AnalysisState) (present : List ObjectRef) (cascade : Bool)
    (kindName : String) : MutationResult × AnalysisState :=
  let roots := present.map (·.id)
  let s := s.taintIncomplete (roots.any fun id => s.baselineScopedFamilyObject id .relations)
  if !cascade && s.hasExternalViewDependents roots then
    (.rejected ("relation '" ++ ((present.head?.map (·.display)).getD kindName) ++
      "' still has dependent views; use CASCADE"), s)
  else if cascade then
    let closure := s.cascadeForRelations roots
    -- an edge may lead to a relation that a scoped cache left out
    let s := s.taintIncomplete (closure.droppedRelations.any fun id => (s.relations.lookup id).isNone)
    (.applied, s.dropFamily closure)
  else (.applied, s.dropFamily { droppedRelations := roots.dedup })

end AnalysisState

end SafeMigrate
