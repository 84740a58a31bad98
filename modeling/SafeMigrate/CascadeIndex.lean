import SafeMigrate.Cascade
import SafeMigrate.GraphLookups

/-! A cascade over a large graph takes the edges of each relation from the
stored indexes, and over a small one it scans the edge list. Both walks are the
same walk. -/

namespace SafeMigrate

namespace GraphStore

variable (g : GraphStore)

/-- `cascade_edges` below the threshold: every edge is resolved again. -/
def scannedCascadeEdges (id : ObjectId) : List DependencyEdge :=
  let target := g.resolveRename id
  g.edges.filter fun edge =>
    DependencyGraph.isCascadeKind edge.kind && g.resolveRename edge.referenced == target

/-- `cascade_edges` from the threshold on: the places under the resolved identity. -/
def indexedCascadeEdges (id : ObjectId) : List DependencyEdge :=
  (g.resolvedReferencedEdges id).filter fun edge => DependencyGraph.isCascadeKind edge.kind

def cascadeEdges (id : ObjectId) : List DependencyEdge :=
  if g.edges.length < DependencyGraph.cascadeIndexMinEdges then g.scannedCascadeEdges id
  else g.indexedCascadeEdges id

end GraphStore

namespace AnalysisState

/-- `walk_cascade`, where `edgesOf` are the edges it goes through at a relation. -/
def walkCascadeOver (s : AnalysisState) (edgesOf : ObjectId → List DependencyEdge) :
    Nat → ObjectId → List ObjectId × CascadeResult → List ObjectId × CascadeResult
  | 0, _, acc => acc
  | fuel + 1, current, acc =>
    let resolvedCurrent := s.graph.resolveRename current
    if resolvedCurrent ∈ acc.1 then acc
    else
      (edgesOf resolvedCurrent).foldl
        (s.walkCascadeEdge (walkCascadeOver s edgesOf fuel) resolvedCurrent)
        (resolvedCurrent :: acc.1,
          { acc.2 with droppedRelations := acc.2.droppedRelations.insert resolvedCurrent })

def cascadeClosureOver (s : AnalysisState) (edgesOf : ObjectId → List DependencyEdge)
    (target : ObjectId) : CascadeResult :=
  (s.walkCascadeOver edgesOf s.cascadeFuel target ([], {})).2

/-- The walk of the analyzer is the one over the edges its threshold selects. -/
theorem walkCascade_eq_over (s : AnalysisState) :
    s.walkCascade = s.walkCascadeOver fun x =>
      if s.graph.cascadeIndexIsWorthwhile then s.graph.cascadeEdges x else s.graph.edges := by
  funext fuel
  induction fuel with
  | zero => rfl
  | succ fuel ih =>
    funext current acc
    rw [walkCascade, walkCascadeOver, ih]

/-- An edge of another kind, or of another relation, adds nothing at `x`. -/
theorem walkCascadeEdge_of_not_cascade (s : AnalysisState)
    (walk : ObjectId → List ObjectId × CascadeResult → List ObjectId × CascadeResult)
    {x : ObjectId} {e : DependencyEdge}
    (h : ¬(DependencyGraph.isCascadeKind e.kind && s.graph.resolveRename e.referenced == x) = true)
    (acc : List ObjectId × CascadeResult) : s.walkCascadeEdge walk x acc e = acc := by
  unfold walkCascadeEdge
  dsimp only
  split
  · rfl
  · split <;> first
      | rfl
      | (next hkind => rw [hkind] at h; exact if_neg fun hx => h (by simp [hx, DependencyGraph.isCascadeKind]))

/-- A walk over the edges that matter at each relation is the walk over all. -/
theorem walkCascadeOver_eq_scan {s : AnalysisState} {edgesOf : ObjectId → List DependencyEdge}
    (h : ∀ id, edgesOf (s.graph.resolveRename id) = s.graph.edges.filter fun e =>
      DependencyGraph.isCascadeKind e.kind &&
        s.graph.resolveRename e.referenced == s.graph.resolveRename id) :
    s.walkCascadeOver edgesOf = s.walkCascadeOver fun _ => s.graph.edges := by
  funext fuel
  induction fuel with
  | zero => rfl
  | succ fuel ih =>
    funext current acc
    rw [walkCascadeOver, walkCascadeOver, ih, h, List.foldl_filter]
    split
    · rfl
    · congr 1
      funext acc e
      split
      · rfl
      · next hskip => exact (s.walkCascadeEdge_of_not_cascade _ hskip acc).symm

end AnalysisState

namespace GraphStore

variable {g : GraphStore} (hg : g.Sound)

include hg

theorem Sound.scannedCascadeEdges (id : ObjectId) :
    g.scannedCascadeEdges id = g.edges.filter fun e =>
      DependencyGraph.isCascadeKind e.kind &&
        hg.graph.resolveRename e.referenced == hg.graph.resolveRename id := by
  unfold GraphStore.scannedCascadeEdges
  simp only [hg.resolveRename]

theorem Sound.indexedCascadeEdges (id : ObjectId) :
    g.indexedCascadeEdges id = g.scannedCascadeEdges id := by
  rw [GraphStore.indexedCascadeEdges, hg.resolvedReferencedEdges, hg.scannedCascadeEdges,
    DependencyGraph.resolvedReferencedEdges, List.filter_filter]
  rfl

theorem Sound.cascadeEdges (id : ObjectId) : g.cascadeEdges id = g.scannedCascadeEdges id := by
  unfold GraphStore.cascadeEdges
  split
  · rfl
  · exact hg.indexedCascadeEdges id

theorem Sound.resolveRename_resolveRename (id : ObjectId) :
    g.resolveRename (g.resolveRename id) = g.resolveRename id := by
  rw [hg.resolveRename, hg.resolveRename, DependencyGraph.resolveRename_resolveRename]

/-- The loop over rename edges has come to its end. -/
theorem Sound.followRenames_fuel (id : ObjectId) {fuel : Nat} (hfuel : g.edges.length + 2 ≤ fuel) :
    GraphIndexes.followRenames g.edges g.readIndexes.1.renameBySource id fuel [] id =
      g.resolveRename id := by
  rw [hg.resolveRename, hg.readIndexes.1]
  refine (GraphIndexes.followRenames_build hg.graph id fuel [] id).trans ?_
  refine DependencyGraph.resolveRenameLoop_fuel id List.nodup_nil (by simp) ?_ ?_ id
  · simp only [List.length_nil, Sound.graph]
    omega
  · simp only [List.length_nil]
    omega

section Walks

variable (s : AnalysisState)

theorem Sound.walkCascadeOver_eq_scan {edgesOf : ObjectId → List DependencyEdge}
    (h : ∀ id, edgesOf id = g.scannedCascadeEdges id) :
    (s.setGraph hg.graph).walkCascadeOver edgesOf =
      (s.setGraph hg.graph).walkCascadeOver fun _ => g.edges := by
  refine AnalysisState.walkCascadeOver_eq_scan (s := s.setGraph hg.graph) fun id => ?_
  rw [h, hg.scannedCascadeEdges]
  simp only [AnalysisState.setGraph, DependencyGraph.resolveRename_resolveRename]
  rfl

/-- The walk of the analyzer takes either list of edges. -/
theorem Sound.walkCascade_eq_scan :
    (s.setGraph hg.graph).walkCascade = (s.setGraph hg.graph).walkCascadeOver fun _ => g.edges := by
  rw [AnalysisState.walkCascade_eq_over]
  by_cases hlarge : hg.graph.cascadeIndexIsWorthwhile = true
  · have hindexed (id : ObjectId) : hg.graph.cascadeEdges id = g.scannedCascadeEdges id := by
      rw [← hg.indexedCascadeEdges, GraphStore.indexedCascadeEdges, hg.resolvedReferencedEdges]
      refine if_neg ?_
      simpa [DependencyGraph.cascadeIndexIsWorthwhile] using hlarge
    rw [← hg.walkCascadeOver_eq_scan s hindexed]
    simp only [AnalysisState.setGraph, hlarge, if_true]
  · simp only [AnalysisState.setGraph, hlarge]
    rfl

end Walks

end GraphStore

namespace AnalysisState

/-- A walk with the fuel of the closure, or more, has come to its end. -/
theorem walkCascade_fuel (s : AnalysisState) (target : ObjectId) {fuel : Nat}
    (hfuel : s.cascadeFuel ≤ fuel) :
    s.walkCascade fuel target ([], {}) = s.walkCascade s.cascadeFuel target ([], {}) := by
  have hcard := s.cascadeUniverse_card_lt target
  have hU : ∀ a b, s.cascadeWalker.Step a b → b ∈ s.cascadeUniverse target :=
    fun a b h => (cascadeWalker_step.mp h).mem_universe target
  have hx : s.graph.resolveRename target ∈ s.cascadeUniverse target := by
    simp [cascadeUniverse]
  rw [walkCascade_eq_walk, walkCascade_eq_walk]
  refine s.cascadeWalker.walk_fuel hU hx ?_ ?_
  · simp only [List.toFinset_nil, Finset.sdiff_empty]
    omega
  · simpa only [List.toFinset_nil, Finset.sdiff_empty] using hcard

end AnalysisState

namespace GraphStore

/-- A state whose graph is the one that a run of graph operations stores. -/
def stateAfter (ops : List GraphOp) (s : AnalysisState) : AnalysisState :=
  s.setGraph (run_sound ops).1.graph

/-- After any run of graph operations the two ways to list the edges of a
cascade agree, so do the walks over them, and both the walk and the search along
renames have come to their end with the fuel they are given. -/
theorem cascade_index_agrees (ops : List GraphOp) (s : AnalysisState) :
    (∀ id, (run ops).indexedCascadeEdges id = (run ops).scannedCascadeEdges id ∧
      (run ops).cascadeEdges id = (run ops).scannedCascadeEdges id) ∧
    (stateAfter ops s).walkCascadeOver (run ops).indexedCascadeEdges =
      (stateAfter ops s).walkCascadeOver (fun _ => (run ops).edges) ∧
    (∀ target, (stateAfter ops s).getCascadeClosure target =
      (stateAfter ops s).cascadeClosureOver (fun _ => (run ops).edges) target ∧
      (stateAfter ops s).getCascadeClosure target =
        (stateAfter ops s).cascadeClosureOver (run ops).indexedCascadeEdges
          target) ∧
    (∀ target fuel, (stateAfter ops s).cascadeFuel ≤ fuel →
      ((stateAfter ops s).walkCascadeOver (fun _ => (run ops).edges) fuel target
        ([], {})).2 = (stateAfter ops s).getCascadeClosure target) ∧
    (∀ id, (run ops).resolveRename ((run ops).resolveRename id) = (run ops).resolveRename id) ∧
    ∀ id fuel, (run ops).edges.length + 2 ≤ fuel →
      GraphIndexes.followRenames (run ops).edges (run ops).readIndexes.1.renameBySource id fuel []
        id = (run ops).resolveRename id := by
  have hg := (run_sound ops).1
  have hscan : (stateAfter ops s).walkCascade =
      (stateAfter ops s).walkCascadeOver fun _ => (run ops).edges := hg.walkCascade_eq_scan s
  have hindexed : (stateAfter ops s).walkCascadeOver (run ops).indexedCascadeEdges =
      (stateAfter ops s).walkCascadeOver fun _ => (run ops).edges :=
    hg.walkCascadeOver_eq_scan s hg.indexedCascadeEdges
  refine ⟨fun id => ⟨hg.indexedCascadeEdges id, hg.cascadeEdges id⟩, hindexed, fun target => ?_,
    fun target fuel hfuel => ?_, hg.resolveRename_resolveRename,
    fun id fuel hfuel => hg.followRenames_fuel id hfuel⟩
  · have hclosure : (stateAfter ops s).getCascadeClosure target =
        (stateAfter ops s).cascadeClosureOver (fun _ => (run ops).edges) target := by
      rw [AnalysisState.getCascadeClosure, hscan]
      rfl
    refine ⟨hclosure, hclosure.trans ?_⟩
    rw [AnalysisState.cascadeClosureOver, AnalysisState.cascadeClosureOver, hindexed]
  · rw [← hscan, AnalysisState.walkCascade_fuel _ target hfuel]
    rfl

end GraphStore

end SafeMigrate
