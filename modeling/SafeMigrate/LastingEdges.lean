import SafeMigrate.DropTable
import SafeMigrate.IndexTopology

/-! Edges by kind: how edits of the graph change those of some kinds, and what
`DROP TABLE` leaves of the kinds that no sweep singles out. -/

namespace SafeMigrate

open Command AnalysisState

namespace DependencyKind

theorem isRenameTo_of_index {kind : DependencyKind} (h : kind.isIndexOnRelation = true) :
    kind.isRenameTo = false := by
  cases kind <;> simp_all [isIndexOnRelation, isRenameTo]

theorem isPartitionOf_of_index {kind : DependencyKind} (h : kind.isIndexOnRelation = true) :
    kind.isPartitionOf = false := by
  cases kind <;> simp_all [isIndexOnRelation, isPartitionOf]

end DependencyKind

namespace AnalysisState

@[simp] theorem taint_relations (s : AnalysisState) (code : EvidenceCode) (scope : EvidenceScope) :
    (s.taint code scope).relations = s.relations := by
  unfold taint recordEvidence markTainted
  dsimp only
  split
  · rfl
  · split <;> simp [setEvidence, setConfidence, snapshotEvidence, snapshotConfidence]

@[simp] theorem taint_triggers (s : AnalysisState) (code : EvidenceCode) (scope : EvidenceScope) :
    (s.taint code scope).triggers = s.triggers := by
  unfold taint recordEvidence markTainted
  dsimp only
  split
  · rfl
  · split <;> simp [setEvidence, setConfidence, snapshotEvidence, snapshotConfidence]

@[simp] theorem taint_graph (s : AnalysisState) (code : EvidenceCode) (scope : EvidenceScope) :
    (s.taint code scope).graph = s.graph := by
  unfold taint recordEvidence markTainted
  dsimp only
  split
  · rfl
  · split <;> simp [setEvidence, setConfidence, snapshotEvidence, snapshotConfidence]

end AnalysisState

def SameTriggers (s t : AnalysisState) : Prop := t.triggers = s.triggers

instance : KeepsEvidence SameTriggers where
  refl _ := rfl
  trans _ _ _ h h' := Eq.trans h' h
  taint s code scope := s.taint_triggers code scope

namespace DependencyGraph

def edgesOf (g : DependencyGraph) (p : DependencyKind → Bool) : List DependencyEdge :=
  g.edges.filter fun e => p e.kind

variable {p : DependencyKind → Bool} {g : DependencyGraph}

theorem edgesOf_addEdge {e : DependencyEdge} (h : p e.kind = false) :
    (g.addEdge e).edgesOf p = g.edgesOf p := by
  unfold addEdge edgesOf
  split
  · rfl
  · rw [List.filter_append, List.filter_singleton, h]
    simp

theorem edgesOf_addEdges {edges : List DependencyEdge} (h : ∀ e ∈ edges, p e.kind = false) :
    (edges.foldl addEdge g).edgesOf p = g.edgesOf p := by
  induction edges generalizing g with
  | nil => rfl
  | cons e edges ih =>
    rw [List.foldl_cons, ih fun x hx => h x (List.mem_cons_of_mem e hx),
      edgesOf_addEdge (h e List.mem_cons_self)]

theorem edgesOf_retainEdges (keep : DependencyEdge → Bool) :
    (g.retainEdges keep).edgesOf p = (g.edgesOf p).filter keep := by
  simp only [edgesOf, retainEdges, List.filter_filter]
  exact List.filter_congr fun e _ => Bool.and_comm _ _

theorem filter_retainUnseen {α : Type} [DecidableEq α] (p : α → Bool) (seen l : List α) :
    (retainUnseen seen l).filter p = retainUnseen (seen.filter p) (l.filter p) := by
  induction l generalizing seen with
  | nil => rfl
  | cons x l ih =>
    cases hp : p x with
    | false =>
      by_cases hx : x ∈ seen
      · simp [retainUnseen, hx, hp, ih]
      · simp [retainUnseen, hx, hp, ih]
    | true =>
      by_cases hx : x ∈ seen
      · simp [retainUnseen, hx, hp, ih]
      · simp [retainUnseen, hx, hp, ih]

/-- A rewrite that leaves the edges of these kinds alone. -/
theorem edgesOf_ofEdges {edges : List DependencyEdge}
    (h : (edges.filter fun e => p e.kind) = g.edgesOf p) : (ofEdges edges).edgesOf p = g.edgesOf p := by
  rw [edgesOf, ofEdges, filter_retainUnseen, h]
  exact retainUnseen_eq_self (g.nodup.filter _) (by simp)

theorem edgesOf_mapEdges {f : DependencyEdge → DependencyEdge}
    (hf : ∀ e, p e.kind = true → f e = e) (hkind : ∀ e, p (f e).kind = p e.kind) :
    (g.mapEdges f).edgesOf p = g.edgesOf p := by
  refine edgesOf_ofEdges ?_
  rw [List.filter_map]
  have hcomp : ((fun e : DependencyEdge => p e.kind) ∘ f) = fun e => p e.kind := funext hkind
  rw [hcomp]
  refine (List.map_congr_left fun e he => ?_).trans (List.map_id _)
  exact hf e (List.mem_filter.mp he).2

theorem edgesOf_updateIndexDefinition (hp : ∀ kind, kind.isIndexOnRelation = true → p kind = false)
    (index : ObjectId) (f : IndexDefinition → IndexDefinition) :
    (g.updateIndexDefinition index f).edgesOf p = g.edgesOf p := by
  have hmapped (kind : DependencyKind) (h : kind.isIndexOnRelation = true) :
      p (kind.mapIndexDefinition f) = false := by
    refine hp _ ?_
    cases kind <;> simp_all [DependencyKind.isIndexOnRelation, DependencyKind.mapIndexDefinition]
  have hgo (edges : List DependencyEdge) :
      ((updateIndexDefinition.go index f edges).filter fun e => p e.kind) =
        edges.filter fun e => p e.kind := by
    induction edges with
    | nil => rfl
    | cons e edges ih =>
      unfold updateIndexDefinition.go
      split
      · rename_i h
        simp [hp _ h.2, hmapped _ h.2]
      · rw [List.filter_cons, List.filter_cons, ih]
  exact edgesOf_ofEdges (hgo g.edges)

end DependencyGraph

/-! `DROP TABLE` removes relations, and the lasting edges that touch them. -/

section Drop

/-- The relations, indexes and foreign keys that a drop of these targets takes. -/
def AnalysisState.dropClosure (s : AnalysisState) (targets : List ObjectId) (cascade : Bool)
    (precomputedCascade : Option CascadeResult) : CascadeResult :=
  if cascade then precomputedCascade.getD (s.cascadeForRelations targets)
  else { droppedRelations := (targets.map s.graph.resolveRename).dedup }

/-- An alias survives a drop if neither end resolves to a dropped object. -/
def AnalysisState.aliasSurvives (s : AnalysisState) (dropped : CascadeResult)
    (e : DependencyEdge) : Bool :=
  decide (s.graph.resolveRename e.dependent ∉ dropped.droppedRelations) &&
    decide (s.graph.resolveRename e.referenced ∉ dropped.droppedRelations) &&
    decide (s.graph.resolveRename e.dependent ∉ dropped.droppedIndexes)

/-- Kinds of edge that only the sweep over both ends removes. -/
def IsLasting (p : DependencyKind → Bool) : Prop :=
  ∀ kind, p kind = true → kind = .renameTo ∨ kind = .partitionOf

/-- Neither the relations nor the edges of the given kinds differ. -/
structure SameEdges (p : DependencyKind → Bool) (s t : AnalysisState) : Prop where
  relations : t.relations = s.relations
  edges : t.graph.edgesOf p = s.graph.edgesOf p

instance : KeepsEvidence (SameEdges p) where
  refl _ := ⟨rfl, rfl⟩
  trans _ _ _ h h' := ⟨h'.relations.trans h.relations, h'.edges.trans h.edges⟩
  taint s code scope := ⟨s.taint_relations code scope, by rw [s.taint_graph code scope]⟩

variable {s : AnalysisState}

theorem SameEdges.of_eq {t : AnalysisState} (hr : t.relations = s.relations)
    (hg : t.graph = s.graph) : SameEdges p s t := ⟨hr, by rw [hg]⟩

theorem edgesOf_retainGraphEdges (s : AnalysisState) (keep : DependencyEdge → Bool) :
    (s.retainGraphEdges keep).graph.edgesOf p = (s.graph.edgesOf p).filter keep := by
  unfold retainGraphEdges
  dsimp only
  rw [setGraph, DependencyGraph.edgesOf_retainEdges, snapshotGraphFull, pushUndo_graph]

@[simp] theorem relations_retainGraphEdges (s : AnalysisState) (keep : DependencyEdge → Bool) :
    (s.retainGraphEdges keep).relations = s.relations := s.pushUndo_relations _

theorem sameEdges_retainGraphEdges {keep : DependencyEdge → Bool}
    (hkeep : ∀ e, p e.kind = true → keep e = true) :
    SameEdges p s (s.retainGraphEdges keep) := by
  refine ⟨relations_retainGraphEdges s keep, ?_⟩
  rw [edgesOf_retainGraphEdges]
  exact List.filter_eq_self.mpr fun e he => hkeep e (List.mem_filter.mp he).2

theorem sameEdges_removeDroppedConstraints (p : DependencyKind → Bool) (s : AnalysisState) (relations : List ObjectId)
    (constraints : List (ObjectId × String)) :
    SameEdges p s (s.removeDroppedConstraints relations constraints) := by
  have hremove (key : ObjectId × String) (t : AnalysisState) :
      SameEdges p t (t.removeConstraint key) :=
    .of_eq (t.pushUndo_relations _) (t.pushUndo_graph _)
  have hpending (t : AnalysisState) (pending : Finset (ObjectId × String)) :
      SameEdges p t (t.snapshotPendingValidation.setPendingValidation pending) :=
    .of_eq (t.pushUndo_relations _) (t.pushUndo_graph _)
  have hbaseline (t : AnalysisState) (b : Finset (ObjectId × String)) :
      SameEdges p t (t.snapshotBaselineForeignKeys.setBaselineForeignKeys b) :=
    .of_eq (t.pushUndo_relations _) (t.pushUndo_graph _)
  unfold removeDroppedConstraints
  exact IsTrans.trans _ _ _ (keeps_foldl _ (fun key _ s => hremove key s) s) <|
    IsTrans.trans _ _ _ (keeps_ite (fun _ => hpending _ _) fun _ => Std.Refl.refl _)
      (keeps_ite (fun _ => hbaseline _ _) fun _ => Std.Refl.refl _)

theorem sameEdges_retainPublicationObjects (s : AnalysisState)
    (update : String × List PublicationObjectFact) :
    SameEdges p s (s.retainPublicationObjects update) := by
  unfold retainPublicationObjects
  dsimp only
  split
  · split <;> exact .of_eq (s.pushUndo_relations _) (s.pushUndo_graph _)
  · exact .of_eq (s.pushUndo_relations _) (s.pushUndo_graph _)

/-- What the last sweeps of a drop leave of the names. -/
theorem dropTableRemainder_edges (hp : IsLasting p) (s : AnalysisState) (resolve : ObjectId → ObjectId)
    (dropped : CascadeResult) :
    (s.dropTableRemainder resolve dropped).relations = s.relations ∧
      (s.dropTableRemainder resolve dropped).graph.edgesOf p = (s.graph.edgesOf p).filter fun e =>
        decide (resolve e.dependent ∉ dropped.droppedRelations) &&
          decide (resolve e.referenced ∉ dropped.droppedRelations) &&
            decide (resolve e.dependent ∉ dropped.droppedIndexes) := by
  unfold dropTableRemainder
  dsimp only
  have hsequences (t : AnalysisState) (l : List ObjectId) :
      SameEdges p t (l.foldl tombstoneSequence t) :=
    keeps_foldl _ (fun _ _ s => .of_eq (s.pushUndo_relations _) (s.pushUndo_graph _)) t
  have htriggers (t : AnalysisState) (l : List ObjectId) :
      SameEdges p t (l.foldl tombstoneTrigger t) :=
    keeps_foldl _ (fun _ _ s => .of_eq (s.pushUndo_relations _) (s.pushUndo_graph _)) t
  have hpublications (t : AnalysisState) (l : List (String × List PublicationObjectFact)) :
      SameEdges p t (l.foldl retainPublicationObjects t) :=
    keeps_foldl _ (fun update _ s => sameEdges_retainPublicationObjects s update) t
  have hlast : ∀ e : DependencyEdge, p e.kind = true →
      (!e.kind.isPublicationIncludes || decide (resolve e.dependent ∉ dropped.droppedRelations)) =
        true := by
    intro e he
    rcases hp _ he with hk | hk <;> simp [hk, DependencyKind.isPublicationIncludes]
  have htrigger : ∀ e : DependencyEdge, p e.kind = true →
      (!(e.kind.isTriggerOnTable && decide (resolve e.referenced ∈ dropped.droppedRelations))) =
        true := by
    intro e he
    rcases hp _ he with hk | hk <;> simp [hk, DependencyKind.isTriggerOnTable]
  constructor
  · rw [relations_retainGraphEdges, (hpublications _ _).relations, relations_retainGraphEdges,
      relations_retainGraphEdges, (htriggers _ _).relations,
      (sameEdges_removeDroppedConstraints p _ _ _).relations, (hsequences _ _).relations]
  · rw [(sameEdges_retainGraphEdges hlast).edges, (hpublications _ _).edges,
      edgesOf_retainGraphEdges, (sameEdges_retainGraphEdges htrigger).edges,
      (htriggers _ _).edges, (sameEdges_removeDroppedConstraints p _ _ _).edges,
      (hsequences _ _).edges]

theorem foldl_tombstoneRelation (s : AnalysisState) (l : List ObjectId) :
    (l.foldl tombstoneRelation s).graph = s.graph ∧ ∀ k,
      (l.foldl tombstoneRelation s).relations.lookup k =
        if k ∈ l then some .dropped else s.relations.lookup k := by
  induction l generalizing s with
  | nil => exact ⟨rfl, fun k => by simp⟩
  | cons id l ih =>
    obtain ⟨hg, hr⟩ := ih (s.tombstoneRelation id)
    have hgraph : (s.tombstoneRelation id).graph = s.graph := s.pushUndo_graph _
    have hrelations : (s.tombstoneRelation id).relations = s.relations.insert id .dropped := by
      rw [tombstoneRelation, setRelations, snapshotRelation, pushUndo_relations]
    refine ⟨hg.trans hgraph, fun k => ?_⟩
    rw [List.foldl_cons, hr, hrelations]
    by_cases hk : k = id
    · subst hk
      simp [AList.lookup_insert]
    · by_cases hl : k ∈ l
      · simp [hl]
      · simp [hk, hl, AList.lookup_insert_ne]

/-- What a drop that is carried out does to relations and aliases. -/
structure DropsEdges (p : DependencyKind → Bool) (s : AnalysisState) (dropped : CascadeResult) (t : AnalysisState) : Prop where
  relations : ∀ k, t.relations.lookup k =
    if k ∈ dropped.droppedRelations then some .dropped else s.relations.lookup k
  edges : t.graph.edgesOf p = (s.graph.edgesOf p).filter (s.aliasSurvives dropped)

theorem DropsEdges.taintIncomplete {dropped : CascadeResult} {t : AnalysisState}
    (h : DropsEdges p s dropped t) (incomplete : Bool) :
    DropsEdges p s dropped (t.taintIncomplete incomplete) := by
  unfold AnalysisState.taintIncomplete
  split
  · exact ⟨by simpa using h.relations, by simpa using h.edges⟩
  · exact h

/-- The two kinds of drop differ before their sweeps in what they keep of the
edges, but both spare rename edges. -/
theorem dropsEdges_of_stages (hp : IsLasting p) {t : AnalysisState} (hst : SameEdges p s t)
    {keep : DependencyEdge → Bool} (hkeep : ∀ e, p e.kind = true → keep e = true)
    (dropped : CascadeResult) :
    DropsEdges p s dropped (((dropped.droppedRelations.foldl tombstoneRelation t).retainGraphEdges
      keep).dropTableRemainder s.graph.resolveRename dropped) := by
  obtain ⟨hr, ha⟩ := dropTableRemainder_edges hp
    ((dropped.droppedRelations.foldl tombstoneRelation t).retainGraphEdges keep)
    s.graph.resolveRename dropped
  obtain ⟨hg, hlookup⟩ := foldl_tombstoneRelation t dropped.droppedRelations
  constructor
  · intro k
    rw [hr, relations_retainGraphEdges, hlookup, hst.relations]
  · rw [ha, (sameEdges_retainGraphEdges hkeep).edges, hg, hst.edges]
    rfl

theorem cascadeKeeps_lasting (hp : IsLasting p) (resolve : ObjectId → ObjectId) (closure : CascadeResult)
    (e : DependencyEdge) (h : p e.kind = true) :
    cascadeKeeps resolve closure e = true := by
  rcases hp _ h with hk | hk <;> simp [hk, cascadeKeeps]

theorem restrictKeeps_lasting (hp : IsLasting p) (resolve : ObjectId → ObjectId) (roots : List ObjectId)
    (e : DependencyEdge) (h : p e.kind = true) :
    restrictKeeps resolve roots e = true := by
  rcases hp _ h with hk | hk <;> simp [hk, restrictKeeps]

theorem sameEdges_unresolved (code : EvidenceCode) : SameEdges p s (s.unresolved code).2 :=
  KeepsEvidence.taint s code .chain

theorem AnalysisState.dropPresentTables_edges (hp : IsLasting p) (s : AnalysisState) (targets : List ObjectId)
    (displayNames : String) (cascade : Bool) (precomputedCascade : Option CascadeResult) :
    let result := s.dropPresentTables targets displayNames cascade precomputedCascade
    result.1 = .applied ∧ DropsEdges p s (s.dropClosure targets cascade precomputedCascade) result.2 ∨
      result.1 ≠ .applied ∧ SameEdges p s result.2 := by
  unfold dropPresentTables dropClosure
  dsimp only
  cases cascade with
  | true =>
    simp only [if_true]
    split
    · exact Or.inr ⟨by simp [unresolved], sameEdges_unresolved _⟩
    · exact Or.inl ⟨rfl, (dropsEdges_of_stages hp
        (keeps_ite (fun _ => KeepsEvidence.taint _ _ _) fun _ => Std.Refl.refl s)
        (cascadeKeeps_lasting hp _ _) _).taintIncomplete _⟩
  | false =>
    simp only [Bool.false_eq_true, if_false]
    split
    · exact Or.inr ⟨by simp [MutationResult.rejected], Std.Refl.refl s⟩
    · exact Or.inl ⟨rfl, (dropsEdges_of_stages hp (Std.Refl.refl s) (restrictKeeps_lasting hp _ _)
        { droppedRelations := _ }).taintIncomplete _⟩

/-- `DROP TABLE` either drops the closure of the tables it lists, or leaves
all names alone. -/
theorem applyDropTable_edges (hp : IsLasting p) (s : AnalysisState) (dropTable : DropTable)
    (precomputedCascade : Option CascadeResult) :
    let result := s.applyDropTable dropTable precomputedCascade
    (result.1 = .applied ∧ ∃ present,
        s.scanDropTargets dropTable.ifExists dropTable.ids [] false = .ok (present, false) ∧
        DropsEdges p s (s.dropClosure ((sortTargets present).map (·.id)) dropTable.cascade
          precomputedCascade) result.2) ∨
      result.1 ≠ .applied ∧ SameEdges p s result.2 := by
  unfold applyDropTable
  dsimp only
  split
  · exact Or.inr ⟨by simp, Std.Refl.refl s⟩
  · split
    · rename_i result hconflict
      obtain ⟨r, -, hr⟩ := List.exists_of_findSome?_eq_some hconflict
      unfold extensionMemberDropConflict at hr
      obtain ⟨extension, -, rfl⟩ := Option.map_eq_some_iff.mp hr
      exact Or.inr ⟨by simp [MutationResult.rejected], Std.Refl.refl s⟩
    · split
      · exact Or.inr ⟨by simp [MutationResult.rejected], Std.Refl.refl s⟩
      · exact Or.inr ⟨by simp [unresolved], sameEdges_unresolved _⟩
      · exact Or.inr ⟨by simp [unresolved], sameEdges_unresolved _⟩
      · exact Or.inr ⟨by simp, Std.Refl.refl s⟩
      · rename_i present _ hscan
        rcases s.dropPresentTables_edges hp ((sortTargets present).map (·.id))
          (", ".intercalate (dropTable.ids.map (·.display))) dropTable.cascade precomputedCascade
          with ⟨happlied, hdrops⟩ | hsame
        · exact Or.inl ⟨happlied, present, hscan, hdrops⟩
        · exact Or.inr hsame

end Drop

end SafeMigrate
