import SafeMigrate.Coverage
import SafeMigrate.Statement

/-! Writes that statements share, each after the snapshot that covers it. -/

namespace SafeMigrate

namespace AnalysisState

def bumpGeneration (s : AnalysisState) : AnalysisState :=
  let s := s.snapshotGenerationCounter
  s.setGenerationCounter (s.generationCounter + 1)

/-- `snapshot_graph` followed by `add_edge`. -/
def addGraphEdge (s : AnalysisState) (edge : DependencyEdge) : AnalysisState :=
  let s := s.snapshotGraph
  s.setGraph (s.graph.addEdge edge)

/-- One `snapshot_graph` for several edges. -/
def addGraphEdges (s : AnalysisState) (edges : List DependencyEdge) : AnalysisState :=
  let s := s.snapshotGraph
  s.setGraph (edges.foldl DependencyGraph.addEdge s.graph)

/-- `snapshot_graph_full` followed by `add_edge`. -/
def addGraphEdgeFull (s : AnalysisState) (edge : DependencyEdge) : AnalysisState :=
  let s := s.snapshotGraphFull
  s.setGraph (s.graph.addEdge edge)

/-- `snapshot_constraint` followed by an insertion under the constraint's key. -/
def putConstraint (s : AnalysisState) (constraint : ConstraintState) : AnalysisState :=
  let s := s.snapshotConstraint constraint.tableId constraint.name
  s.setConstraints (s.constraints.insert (constraint.tableId, constraint.name) constraint)

/-- One `snapshot_graph` for several constraints, each followed by its edge. -/
def putConstraintEdges (s : AnalysisState) (writes : List (ConstraintState × DependencyEdge)) :
    AnalysisState :=
  writes.foldl (fun s write =>
    let s := s.putConstraint write.1
    s.setGraph (s.graph.addEdge write.2)) s.snapshotGraph

/-- A sequence's entry precedes that of the generation it is created under. -/
def putSequence (s : AnalysisState) (id : ObjectId) (sequence : AnalysisState → SequenceState) :
    AnalysisState :=
  let s := (s.snapshotSequence id).bumpGeneration
  s.setSequences (s.sequences.insert id (.present (sequence s)))

def putTrigger (s : AnalysisState) (trigger : TriggerState) : AnalysisState :=
  let s := s.snapshotTrigger trigger.id
  s.setTriggers (s.triggers.insert trigger.id (.present trigger))

/-- `get_mut` on a present relation. -/
def modifyRelation (s : AnalysisState) (id : ObjectId) (f : RelationState → RelationState) :
    AnalysisState :=
  match s.presentRelation id with
  | some relation => s.setRelations (s.relations.insert id (.present (f relation)))
  | none => s

/-- `snapshot_relation` followed by a write to the relation. -/
def updateRelation (s : AnalysisState) (id : ObjectId) (f : RelationState → RelationState) :
    AnalysisState :=
  (s.snapshotRelation id).modifyRelation id f

end AnalysisState

section Covered

open AnalysisState

variable {cells : List Cell} {s t : AnalysisState}

/-- Edges appended behind a recorded length need no further entry. -/
theorem LoggedCovering.appendEdges (h : LoggedCovering cells s t) {len : Nat}
    (hc : .graphTail len ∈ cells) (hlen : len ≤ t.graph.edgeCount) {g : DependencyGraph}
    (hg : t.graph.edges <+: g.edges) : LoggedCovering cells s (t.setGraph g) := by
  refine h.write { AgreeOutside.refl cells t.logged with graph := fun _ _ => Or.inr ?_ } rfl
  obtain ⟨tail, htail⟩ := hg
  refine ⟨len, hc, ?_⟩
  change t.graph.edges.take len = g.edges.take len
  rw [← htail, List.take_append_of_le_length hlen]

theorem LoggedCovering.modifyRelation (h : LoggedCovering cells s t) {id : ObjectId}
    (hc : .relation id ∈ cells) (f : RelationState → RelationState) :
    LoggedCovering cells s (t.modifyRelation id f) := by
  unfold AnalysisState.modifyRelation
  split
  · exact h.setRelations hc fun k hk => AList.lookup_insert_ne hk
  · exact h

end Covered

namespace AnalysisState

variable (s : AnalysisState)

theorem logged_appendGraph {g : DependencyGraph} (hg : s.graph.edges <+: g.edges) :
    Logged s (s.snapshotGraph.setGraph g) := by
  have h : LoggedCovering [.graphTail s.graph.edgeCount] s s.snapshotGraph :=
    logged_of_records .graphTail
  have hgraph : s.snapshotGraph.graph = s.graph := s.pushUndo_graph _
  refine (h.appendEdges (List.mem_singleton_self _) ?_ ?_).logged
  · rw [hgraph]
  · rwa [hgraph]

theorem logged_addGraphEdge (edge : DependencyEdge) : Logged s (s.addGraphEdge edge) := by
  refine s.logged_appendGraph ?_
  rw [snapshotGraph, pushUndo_graph]
  exact s.graph.prefix_addEdge edge

theorem logged_addGraphEdges (edges : List DependencyEdge) : Logged s (s.addGraphEdges edges) := by
  refine s.logged_appendGraph ?_
  rw [snapshotGraph, pushUndo_graph]
  exact s.graph.prefix_addEdges edges

theorem logged_addGraphEdgeFull (edge : DependencyEdge) : Logged s (s.addGraphEdgeFull edge) := by
  have h : LoggedCovering [.graph] s s.snapshotGraphFull := logged_of_records .graph
  exact (h.setGraph (by simp) _).logged

theorem logged_putConstraint (constraint : ConstraintState) :
    Logged s (s.putConstraint constraint) := by
  have h : LoggedCovering [.constraint (constraint.tableId, constraint.name)] s
      (s.snapshotConstraint constraint.tableId constraint.name) :=
    logged_of_records (.constraint constraint.tableId constraint.name)
  exact (h.setConstraints (by simp) fun k hk => AList.lookup_insert_ne hk).logged

theorem logged_putTrigger (trigger : TriggerState) : Logged s (s.putTrigger trigger) := by
  have h : LoggedCovering [.trigger trigger.id] s (s.snapshotTrigger trigger.id) :=
    logged_of_records (.trigger trigger.id)
  exact (h.setTriggers (by simp) fun k hk => AList.lookup_insert_ne hk).logged

theorem logged_bumpGeneration : Logged s s.bumpGeneration := by
  have h : LoggedCovering [.generationCounter] s s.snapshotGenerationCounter :=
    logged_of_records .generationCounter
  exact (h.setGenerationCounter (by simp) _).logged

theorem logged_updateRelation (id : ObjectId) (f : RelationState → RelationState) :
    Logged s (s.updateRelation id f) := by
  have h : LoggedCovering [.relation id] s (s.snapshotRelation id) :=
    logged_of_records (.relation id)
  exact (h.modifyRelation (by simp) f).logged

end AnalysisState

end SafeMigrate
