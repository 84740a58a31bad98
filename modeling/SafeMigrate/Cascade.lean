import SafeMigrate.Lookup
import SafeMigrate.VisitedWalk

/-! The closure of relations that a cascading drop reaches through views,
inheritance and partitions, with the indexes and foreign keys it removes. -/

namespace SafeMigrate

/-- Hash sets of one statement, in iteration order. -/
structure CascadeResult where
  droppedRelations : List ObjectId := []
  droppedIndexes : List ObjectId := []
  droppedConstraints : List (ObjectId × String) := []
deriving DecidableEq

namespace DependencyGraph

def cascadeIndexMinEdges : Nat := 1024

def cascadeIndexIsWorthwhile (g : DependencyGraph) : Bool :=
  decide (cascadeIndexMinEdges ≤ g.edges.length)

/-- Edges that `by_resolved_referenced` lists under the resolved identity. -/
def resolvedReferencedEdges (g : DependencyGraph) (id : ObjectId) : List DependencyEdge :=
  g.edges.filter fun edge => g.resolveRename edge.referenced == g.resolveRename id

def isCascadeKind : DependencyKind → Bool
  | .viewDependency .. => true
  | .indexOnRelation .. => true
  | .foreignKey .. => true
  | .inheritanceOf => true
  | .partitionOf => true
  | .partitionDetachPending => true
  | _ => false

def cascadeEdges (g : DependencyGraph) (id : ObjectId) : List DependencyEdge :=
  if g.edges.length < cascadeIndexMinEdges then
    g.edges.filter fun edge =>
      isCascadeKind edge.kind && g.resolveRename edge.referenced == g.resolveRename id
  else (g.resolvedReferencedEdges id).filter fun edge => isCascadeKind edge.kind

theorem mem_cascadeEdges {g : DependencyGraph} {id : ObjectId} {e : DependencyEdge} :
    e ∈ g.cascadeEdges id ↔ e ∈ g.edges ∧ isCascadeKind e.kind = true ∧
      g.resolveRename e.referenced = g.resolveRename id := by
  unfold cascadeEdges resolvedReferencedEdges
  split
  · simp
  · simp only [List.mem_filter, beq_iff_eq]
    tauto

end DependencyGraph

namespace AnalysisState

/-- Edges with a generation are valid for the incarnation that created them.
An absent overlay is unknown rather than stale. -/
def dependencyEdgeIsCurrent (s : AnalysisState) (edge : DependencyEdge) : Bool :=
  let relationIsCurrent (generation : Nat) : Bool :=
    match s.relations.lookup (s.graph.resolveRename edge.dependent) with
    | some (.present relation) => relation.generation == generation
    | some .dropped => false
    | none => true
  match edge.kind with
  | .foreignKey _ _ _ _ fromGeneration => relationIsCurrent fromGeneration
  | .viewDependency viewGeneration _ => relationIsCurrent viewGeneration
  | .triggerOnTable triggerId _ triggerGeneration =>
    match s.triggers.lookup (s.graph.resolveRename triggerId) with
    | some (.present trigger) => trigger.generation == triggerGeneration
    | some .dropped => false
    | none => true
  | _ => true

def walkCascadeEdge (s : AnalysisState)
    (walk : ObjectId → List ObjectId × CascadeResult → List ObjectId × CascadeResult)
    (resolvedCurrent : ObjectId) (acc : List ObjectId × CascadeResult) (edge : DependencyEdge) :
    List ObjectId × CascadeResult :=
  let resolvedDependent := s.graph.resolveRename edge.dependent
  if !s.dependencyEdgeIsCurrent edge then acc
  else match edge.kind with
    | .viewDependency .. | .inheritanceOf | .partitionOf =>
      if s.graph.resolveRename edge.referenced = resolvedCurrent then
        if resolvedDependent ∈ acc.1 then acc else walk resolvedDependent acc
      else acc
    | .indexOnRelation .. =>
      if s.graph.resolveRename edge.referenced = resolvedCurrent then
        (acc.1, { acc.2 with
          droppedIndexes := acc.2.droppedIndexes.insert resolvedDependent })
      else acc
    | .foreignKey (some constraintName) .. =>
      if s.graph.resolveRename edge.referenced = resolvedCurrent then
        (acc.1, { acc.2 with
          droppedConstraints :=
            acc.2.droppedConstraints.insert (resolvedDependent, constraintName) })
      else acc
    | _ => acc

def walkCascade (s : AnalysisState) :
    Nat → ObjectId → List ObjectId × CascadeResult → List ObjectId × CascadeResult
  | 0, _, acc => acc
  | fuel + 1, current, acc =>
    let resolvedCurrent := s.graph.resolveRename current
    if resolvedCurrent ∈ acc.1 then acc
    else
      let edges :=
        if s.graph.cascadeIndexIsWorthwhile then s.graph.cascadeEdges resolvedCurrent
        else s.graph.edges
      edges.foldl (s.walkCascadeEdge (walkCascade s fuel) resolvedCurrent)
        (resolvedCurrent :: acc.1,
          { acc.2 with droppedRelations := acc.2.droppedRelations.insert resolvedCurrent })

/-- One level for every edge, and one for the target itself. -/
def cascadeFuel (s : AnalysisState) : Nat := s.graph.edges.length + 2

def getCascadeClosure (s : AnalysisState) (target : ObjectId) : CascadeResult :=
  (s.walkCascade s.cascadeFuel target ([], {})).2

def cascadeForRelations (s : AnalysisState) (roots : List ObjectId) : CascadeResult :=
  roots.foldl (fun cascade root =>
    let closure := s.getCascadeClosure root
    { droppedRelations := cascade.droppedRelations ∪ closure.droppedRelations,
      droppedIndexes := cascade.droppedIndexes ∪ closure.droppedIndexes,
      droppedConstraints := cascade.droppedConstraints ∪ closure.droppedConstraints }) {}

/-- Edge kinds that lead a cascade to another relation. -/
def isCascadeLink : DependencyKind → Bool
  | .viewDependency .. => true
  | .inheritanceOf => true
  | .partitionOf => true
  | _ => false

/-- A current view, inheritance or partition edge from `a` to its dependent `b`. -/
def CascadeStep (s : AnalysisState) (a b : ObjectId) : Prop :=
  ∃ e ∈ s.graph.edges, s.dependencyEdgeIsCurrent e = true ∧ isCascadeLink e.kind = true ∧
    s.graph.resolveRename e.referenced = a ∧ s.graph.resolveRename e.dependent = b

/-- The walk of `walk_cascade`, over resolved identities. -/
def cascadeWalker (s : AnalysisState) :
    VisitedWalk.Walker ObjectId DependencyEdge CascadeResult where
  edges x := if s.graph.cascadeIndexIsWorthwhile then s.graph.cascadeEdges x else s.graph.edges
  next x e :=
    if s.dependencyEdgeIsCurrent e && isCascadeLink e.kind &&
        s.graph.resolveRename e.referenced == x then
      some (s.graph.resolveRename e.dependent)
    else none
  enter x out := { out with droppedRelations := out.droppedRelations.insert x }
  record x e out := (s.walkCascadeEdge (fun _ acc => acc) x ([], out) e).2

theorem cascadeWalker_next {s : AnalysisState} {x y : ObjectId} {e : DependencyEdge} :
    s.cascadeWalker.next x e = some y ↔ s.dependencyEdgeIsCurrent e = true ∧
      isCascadeLink e.kind = true ∧ s.graph.resolveRename e.referenced = x ∧
        s.graph.resolveRename e.dependent = y := by
  simp [cascadeWalker, and_assoc]

theorem cascadeWalker_step {s : AnalysisState} {a b : ObjectId} :
    s.cascadeWalker.Step a b ↔ s.CascadeStep a b := by
  constructor
  · rintro ⟨e, he, hn⟩
    have hmem : e ∈ s.graph.edges := by
      simp only [cascadeWalker] at he
      split at he
      · exact (DependencyGraph.mem_cascadeEdges.mp he).1
      · exact he
    exact ⟨e, hmem, cascadeWalker_next.mp hn⟩
  · rintro ⟨e, he, hcur, hlink, rfl, rfl⟩
    refine ⟨e, ?_, cascadeWalker_next.mpr ⟨hcur, hlink, rfl, rfl⟩⟩
    simp only [cascadeWalker]
    split
    · refine DependencyGraph.mem_cascadeEdges.mpr ⟨he, ?_, by simp⟩
      revert hlink
      cases e.kind <;> simp [isCascadeLink, DependencyGraph.isCascadeKind]
    · exact he

theorem walkCascadeEdge_eq {s : AnalysisState}
    {walk : ObjectId → List ObjectId × CascadeResult → List ObjectId × CascadeResult}
    (hwalk : ∀ y acc, y ∈ acc.1 → walk y acc = acc) (x : ObjectId)
    (acc : List ObjectId × CascadeResult) (e : DependencyEdge) :
    s.walkCascadeEdge walk x acc e = s.cascadeWalker.follow walk x acc e := by
  unfold VisitedWalk.Walker.follow
  cases hc : s.dependencyEdgeIsCurrent e with
  | false => simp [walkCascadeEdge, cascadeWalker, hc]
  | true =>
    cases hk : e.kind with
    | viewDependency _ _ | inheritanceOf | partitionOf =>
      by_cases hr : s.graph.resolveRename e.referenced = x
      · by_cases hv : s.graph.resolveRename e.dependent ∈ acc.1
        · simp [walkCascadeEdge, cascadeWalker, isCascadeLink, hc, hk, hr, hv, hwalk]
        · simp [walkCascadeEdge, cascadeWalker, isCascadeLink, hc, hk, hr, hv]
      · simp [walkCascadeEdge, cascadeWalker, hc, hk, hr]
    | indexOnRelation _ _ _ _ _ _ =>
      by_cases hr : s.graph.resolveRename e.referenced = x <;>
        simp [walkCascadeEdge, cascadeWalker, isCascadeLink, hc, hk, hr]
    | foreignKey name _ _ _ _ =>
      cases name with
      | none => simp [walkCascadeEdge, cascadeWalker, isCascadeLink, hc, hk]
      | some name =>
        by_cases hr : s.graph.resolveRename e.referenced = x <;>
          simp [walkCascadeEdge, cascadeWalker, isCascadeLink, hc, hk, hr]
    | _ => simp [walkCascadeEdge, cascadeWalker, isCascadeLink, hc, hk]

theorem walkCascade_eq_walk (s : AnalysisState) (fuel : Nat) (current : ObjectId)
    (acc : List ObjectId × CascadeResult) :
    s.walkCascade fuel current acc =
      s.cascadeWalker.walk fuel (s.graph.resolveRename current) acc := by
  induction fuel generalizing current acc with
  | zero => rfl
  | succ fuel ih =>
    have hvisited : ∀ y (acc : List ObjectId × CascadeResult), y ∈ acc.1 →
        s.cascadeWalker.walk fuel y acc = acc :=
      fun y acc hy => s.cascadeWalker.walk_of_visited hy
    have hloop : s.walkCascadeEdge (s.walkCascade fuel) (s.graph.resolveRename current) =
        s.cascadeWalker.follow (s.cascadeWalker.walk fuel) (s.graph.resolveRename current) := by
      funext acc e
      rw [← walkCascadeEdge_eq hvisited]
      have hwalk : ∀ id acc, s.walkCascade fuel (s.graph.resolveRename id) acc =
          s.cascadeWalker.walk fuel (s.graph.resolveRename id) acc := by
        intro id acc
        simpa using ih (s.graph.resolveRename id) acc
      simp only [walkCascadeEdge, hwalk]
    rw [walkCascade, hloop, VisitedWalk.Walker.walk_succ]
    rfl

/-- A node of the cascade or the dependent of one of its edges. -/
def cascadeUniverse (s : AnalysisState) (target : ObjectId) : Finset ObjectId :=
  insert (s.graph.resolveRename target)
    (s.graph.edges.map fun e => s.graph.resolveRename e.dependent).toFinset

theorem CascadeStep.mem_universe {s : AnalysisState} {a b : ObjectId} (h : s.CascadeStep a b)
    (target : ObjectId) : b ∈ s.cascadeUniverse target := by
  obtain ⟨e, he, -, -, -, rfl⟩ := h
  simp only [cascadeUniverse, Finset.mem_insert, List.mem_toFinset, List.mem_map]
  exact Or.inr ⟨e, he, rfl⟩

theorem cascadeUniverse_card_lt (s : AnalysisState) (target : ObjectId) :
    (s.cascadeUniverse target).card < s.cascadeFuel := by
  have hinsert := Finset.card_insert_le (s.graph.resolveRename target)
    (s.graph.edges.map fun e => s.graph.resolveRename e.dependent).toFinset
  have hmap := List.toFinset_card_le (s.graph.edges.map fun e => s.graph.resolveRename e.dependent)
  simp only [List.length_map] at hmap
  simp only [cascadeUniverse, cascadeFuel]
  omega

/-- The relations that a cascade from `target` reaches. -/
def CascadeReaches (s : AnalysisState) (target : ObjectId) : ObjectId → Prop :=
  Relation.ReflTransGen s.CascadeStep (s.graph.resolveRename target)

theorem mem_walkCascade_visited {s : AnalysisState} {target z : ObjectId} :
    z ∈ (s.walkCascade s.cascadeFuel target ([], {})).1 ↔ s.CascadeReaches target z := by
  have hU : ∀ a b, s.cascadeWalker.Step a b → b ∈ s.cascadeUniverse target :=
    fun a b h => (cascadeWalker_step.mp h).mem_universe target
  have hx : s.graph.resolveRename target ∈ s.cascadeUniverse target := by
    simp [cascadeUniverse]
  have hstep : s.cascadeWalker.Step = s.CascadeStep := by
    funext a b
    exact propext cascadeWalker_step
  rw [walkCascade_eq_walk, s.cascadeWalker.mem_walk_iff hU hx (s.cascadeUniverse_card_lt target),
    hstep]
  rfl

/-- What a walk contributes to its result at the nodes it enters. -/
theorem getCascadeClosure_holds {s : AnalysisState} {holds : CascadeResult → Prop}
    {entered : ObjectId → Prop} {emits : ObjectId → DependencyEdge → Prop}
    (henter : ∀ x out, holds (s.cascadeWalker.enter x out) ↔ holds out ∨ entered x)
    (hrecord : ∀ x e out, s.cascadeWalker.next x e = none →
      (holds (s.cascadeWalker.record x e out) ↔ holds out ∨ emits x e))
    (hstart : ¬holds {}) (target : ObjectId) :
    holds (s.getCascadeClosure target) ↔ ∃ z, s.CascadeReaches target z ∧
      (entered z ∨ ∃ e ∈ s.cascadeWalker.edges z, s.cascadeWalker.next z e = none ∧ emits z e) := by
  have hw := s.cascadeWalker.walk_record henter hrecord s.cascadeFuel
    (s.graph.resolveRename target) ([], {})
  rw [← walkCascade_eq_walk] at hw
  rw [getCascadeClosure, hw]
  simp only [hstart, false_or, mem_walkCascade_visited, List.not_mem_nil, not_false_eq_true,
    true_and]

theorem cascadeWalker_record_droppedRelations {s : AnalysisState} (x : ObjectId)
    (e : DependencyEdge) (out : CascadeResult) :
    (s.cascadeWalker.record x e out).droppedRelations = out.droppedRelations := by
  simp only [cascadeWalker, walkCascadeEdge]
  split
  · rfl
  · split <;> first | rfl | (split <;> rfl)

theorem mem_droppedRelations {s : AnalysisState} {target z : ObjectId} :
    z ∈ (s.getCascadeClosure target).droppedRelations ↔ s.CascadeReaches target z := by
  rw [@getCascadeClosure_holds s (fun out => z ∈ out.droppedRelations) (fun x => z = x)
    (fun _ _ => False)]
  · simp
  · intro x out
    simp only [cascadeWalker, List.mem_insert_iff]
    tauto
  · intro x e out _
    simp [cascadeWalker_record_droppedRelations]
  · simp

end AnalysisState

end SafeMigrate
