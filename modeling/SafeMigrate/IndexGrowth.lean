import SafeMigrate.NotNullConstraints

/-! What giving a partition its indexes does to the topology: which index it
ends up with, and that nothing recorded before is changed. -/

namespace SafeMigrate

open AnalysisState Command

namespace DependencyGraph

theorem find?_retainUnseen {α : Type} [DecidableEq α] (p : α → Bool) (l : List α) :
    (retainUnseen [] l).find? p = l.find? p := by
  rw [← List.head?_filter, ← List.head?_filter, filter_retainUnseen]
  cases l.filter p with
  | nil => rfl
  | cons x xs => simp [retainUnseen]

variable {g : DependencyGraph}

theorem indexTableOf_addEdge_of_some {e : DependencyEdge} {index owner : ObjectId}
    (h : g.indexTableOf index = some owner) : (g.addEdge e).indexTableOf index = some owner := by
  obtain ⟨found, hfound, hreferenced⟩ := Option.map_eq_some_iff.mp h
  unfold addEdge
  split
  · exact h
  · rw [indexTableOf, List.find?_append, hfound, Option.some_or, Option.map_some, hreferenced]

theorem indexTableOf_addEdge_of_other {e : DependencyEdge} (h : e.kind.isIndexOnRelation = false)
    (index : ObjectId) : (g.addEdge e).indexTableOf index = g.indexTableOf index := by
  unfold addEdge
  split
  · rfl
  · rw [indexTableOf, List.find?_append, List.find?_singleton, h]
    simp [indexTableOf]

theorem indexTableOf_addIndex {index table : ObjectId} {kind : DependencyKind}
    (hkind : kind.isIndexOnRelation = true) (h : g.indexTableOf index = none) :
    (g.addEdge ⟨index, table, kind⟩).indexTableOf index = some table := by
  have hnone := Option.map_eq_none_iff.mp h
  have hnew : (⟨index, table, kind⟩ : DependencyEdge) ∉ g.edges := by
    intro hmem
    have hnot := List.find?_eq_none.mp hnone _ hmem
    simp [hkind] at hnot
  rw [addEdge, dif_neg hnew, indexTableOf, List.find?_append, hnone]
  simp [hkind]

@[simp] theorem indexTableOf_updateIndexDefinition (index : ObjectId)
    (f : IndexDefinition → IndexDefinition) (id : ObjectId) :
    (g.updateIndexDefinition index f).indexTableOf id = g.indexTableOf id := by
  have hgo (edges : List DependencyEdge) :
      ((updateIndexDefinition.go index f edges).find? fun e =>
        e.dependent == id && e.kind.isIndexOnRelation).map (·.referenced) =
          (edges.find? fun e =>
            e.dependent == id && e.kind.isIndexOnRelation).map (·.referenced) := by
    induction edges with
    | nil => rfl
    | cons e edges ih =>
      unfold updateIndexDefinition.go
      split
      · rename_i h
        have hkind : (e.kind.mapIndexDefinition f).isIndexOnRelation = true := by
          cases hkind : e.kind <;>
            simp_all [DependencyKind.isIndexOnRelation, DependencyKind.mapIndexDefinition]
        by_cases hid : e.dependent = id
        · simp [hkind, h.2, hid]
        · simp [hid]
      · simp only [List.find?_cons]
        split
        · rfl
        · exact ih
  unfold updateIndexDefinition indexTableOf ofEdges
  rw [find?_retainUnseen]
  exact hgo g.edges

end DependencyGraph

namespace AnalysisState

theorem indexParentOf_eq (s : AnalysisState) (child : ObjectId) : s.indexParentOf child =
    ((s.graph.edgesOf DependencyKind.isIndexPartitionOf).find? (·.dependent == child)).map
      (·.referenced) := by
  simp only [indexParentOf, DependencyGraph.edgesOf, List.find?_filter, Bool.decide_and,
    Bool.decide_coe, Bool.and_comm]

theorem indexParentOf_congr {s t : AnalysisState}
    (h : t.graph.edgesOf DependencyKind.isIndexPartitionOf =
      s.graph.edgesOf DependencyKind.isIndexPartitionOf) (child : ObjectId) :
    t.indexParentOf child = s.indexParentOf child := by
  rw [indexParentOf_eq, indexParentOf_eq, h]

theorem indexParentOf_record (s : AnalysisState) (parent index child : ObjectId) :
    (s.recordIndexPartition parent index).indexParentOf child =
      (s.indexParentOf child <|> if index = child then some parent else none) := by
  unfold indexParentOf recordIndexPartition
  rw [addGraphEdge_graph]
  unfold DependencyGraph.addEdge
  split
  · rename_i hmem
    by_cases hchild : index = child
    · subst hchild
      cases hfound : s.graph.edges.find? fun e =>
          e.dependent == index && e.kind.isIndexPartitionOf with
      | some e => simp
      | none =>
        have hnot := List.find?_eq_none.mp hfound _ hmem
        simp [DependencyKind.isIndexPartitionOf] at hnot
    · simp [hchild]
  · rw [List.find?_append, Option.map_or]
    by_cases hchild : index = child
    · simp [hchild, DependencyKind.isIndexPartitionOf]
    · simp [hchild]

@[simp] theorem indexTableOf_record (s : AnalysisState) (parent index child : ObjectId) :
    (s.recordIndexPartition parent index).indexTableOf child = s.indexTableOf child := by
  rw [indexTableOf, recordIndexPartition, addGraphEdge_graph,
    DependencyGraph.indexTableOf_addEdge_of_other rfl]
  rfl

theorem indexTableOf_eq_none_of_free {s : AnalysisState} {id : ObjectId}
    (h : s.relationNamespaceIsTaken id = false) : s.indexTableOf id = none := by
  refine Option.map_eq_none_iff.mpr (List.find?_eq_none.mpr fun e he hindex => ?_)
  have htaken : s.indexIsPresent id = true := by
    refine List.any_eq_true.mpr ⟨e, he, ?_⟩
    rwa [Bool.and_comm] at hindex
  simp [relationNamespaceIsTaken, relationNamespaceObjectIsPresent, htaken] at h

end AnalysisState

/-- Indexes and attachments come in addition to those there are. A new
attachment is to an index that satisfies `fresh`. -/
structure GrowsIndexes (fresh : ObjectId → Prop) (s t : AnalysisState) : Prop where
  same : SameConstraints s t
  tables : ∀ index owner, s.indexTableOf index = some owner → t.indexTableOf index = some owner
  kept : ∀ index parent, s.indexParentOf index = some parent → t.indexParentOf index = some parent
  attached : ∀ index parent, t.indexParentOf index = some parent →
    s.indexParentOf index = some parent ∨ fresh parent ∧ t.indexTableOf index ≠ none

namespace GrowsIndexes

variable {fresh : ObjectId → Prop} {s t u : AnalysisState}

theorem present (h : GrowsIndexes fresh s t) {index : ObjectId}
    (hindex : s.indexTableOf index ≠ none) : t.indexTableOf index ≠ none := by
  obtain ⟨owner, howner⟩ := Option.ne_none_iff_exists'.mp hindex
  rw [h.tables index owner howner]
  exact Option.some_ne_none owner

instance : Std.Refl (GrowsIndexes fresh) where
  refl s := ⟨Std.Refl.refl s, fun _ _ h => h, fun _ _ h => h, fun _ _ h => Or.inl h⟩

instance : IsTrans AnalysisState (GrowsIndexes fresh) where
  trans s t u h h' := by
    refine ⟨IsTrans.trans _ _ _ h.same h'.same,
      fun index owner hs => h'.tables _ _ (h.tables _ _ hs), fun index parent hs => h'.kept _ _ (h.kept _ _ hs), fun index parent hu => ?_⟩
    rcases h'.attached index parent hu with ht | hnew
    · rcases h.attached index parent ht with hs | ⟨hfresh, hpresent⟩
      · exact Or.inl hs
      · exact Or.inr ⟨hfresh, h'.present hpresent⟩
    · exact Or.inr hnew

theorem addIndex (s : AnalysisState) (index table : ObjectId) {kind : DependencyKind}
    (hkind : kind.isIndexOnRelation = true) :
    GrowsIndexes fresh s (s.addGraphEdge ⟨index, table, kind⟩) := by
  have hother (p : DependencyKind → Bool) (h : p kind = false) :
      (s.addGraphEdge ⟨index, table, kind⟩).graph.edgesOf p = s.graph.edgesOf p := by
    rw [addGraphEdge_graph]
    exact DependencyGraph.edgesOf_addEdge h
  have hattach : kind.isIndexPartitionOf = false := by
    cases kind <;> simp_all [DependencyKind.isIndexOnRelation, DependencyKind.isIndexPartitionOf]
  have hconcerns : kind.concernsConstraint = false := by
    cases kind <;> simp_all [DependencyKind.isIndexOnRelation, DependencyKind.concernsConstraint]
  refine ⟨SameConstraints.addGraphEdge s hconcerns, fun id owner h => ?_, fun id parent h => ?_,
    fun id parent h => Or.inl ?_⟩
  · rw [AnalysisState.indexTableOf, addGraphEdge_graph]
    exact DependencyGraph.indexTableOf_addEdge_of_some h
  · rwa [indexParentOf_congr (hother _ hattach)]
  · rwa [indexParentOf_congr (hother _ hattach)] at h

theorem record (s : AnalysisState) {parent index : ObjectId} (hparent : fresh parent)
    (hindex : s.indexTableOf index ≠ none) :
    GrowsIndexes fresh s (s.recordIndexPartition parent index) := by
  refine ⟨SameConstraints.addGraphEdge s rfl, fun id owner h => ?_, fun id old h => ?_,
    fun id next h => ?_⟩
  · rwa [indexTableOf_record]
  · rw [indexParentOf_record, h]
    rfl
  · rw [indexParentOf_record] at h
    cases hold : s.indexParentOf id with
    | some old =>
      rw [hold] at h
      exact Or.inl h
    | none =>
      rw [hold] at h
      by_cases hid : index = id
      · rw [if_pos hid] at h
        cases h
        rw [indexTableOf_record, ← hid]
        exact Or.inr ⟨hparent, hindex⟩
      · rw [if_neg hid] at h
        cases h

theorem setIndexDefinition (s : AnalysisState) (index : ObjectId)
    (f : IndexDefinition → IndexDefinition) :
    GrowsIndexes fresh s (s.setIndexDefinition index f) := by
  have hgraph : (s.setIndexDefinition index f).graph = s.graph.updateIndexDefinition index f := by
    simp [AnalysisState.setIndexDefinition, setGraph, snapshotGraphFull]
  have htables (id : ObjectId) :
      (s.setIndexDefinition index f).indexTableOf id = s.indexTableOf id := by
    rw [AnalysisState.indexTableOf, hgraph, DependencyGraph.indexTableOf_updateIndexDefinition]
    rfl
  have hparents (id : ObjectId) :
      (s.setIndexDefinition index f).indexParentOf id = s.indexParentOf id := by
    refine indexParentOf_congr ?_ id
    rw [hgraph]
    refine DependencyGraph.edgesOf_updateIndexDefinition (fun kind hkind => ?_) index f
    cases kind <;> simp_all [DependencyKind.isIndexOnRelation, DependencyKind.isIndexPartitionOf]
  refine ⟨?_, fun id owner h => by rwa [htables], fun id parent h => by rwa [hparents],
    fun id parent h => Or.inl (by rwa [hparents] at h)⟩
  refine IsTrans.trans _ _ _ (SameConstraints.pushUndo s (.graphSnapshot s.graph.edges))
    ⟨rfl, ?_, rfl⟩
  rw [hgraph]
  refine (DependencyGraph.edgesOf_updateIndexDefinition (fun kind hkind => ?_) index f).trans ?_
  · cases kind <;> simp_all [DependencyKind.isIndexOnRelation, DependencyKind.concernsConstraint]
  · rw [pushUndo_graph]

section EnsureChild

variable {template : DependencyKind} {stored : IndexDefinition}
  (htemplate : template.indexDefinition = some stored) (definition : IndexDefinition)
  (rule : ChildReuseRule)
include htemplate

/-- A reused index is attached. Otherwise a new one is, and what the loop over
the partitions adds comes below it. -/
theorem ensureChild_cases {fuel : Nat} (hbelow : ∀ (v : AnalysisState) (parent table : ObjectId),
      s.indexTableOf parent = none →
        (∀ index, s.indexTableOf index ≠ none → v.indexTableOf index ≠ none) →
          GrowsIndexes (fun index => s.indexTableOf index = none) v
            (ensurePartitionIndexChild template definition rule fuel v parent table).2)
    (u : AnalysisState) (parent table : ObjectId)
    (hsince : ∀ index, s.indexTableOf index ≠ none → u.indexTableOf index ≠ none) :
    let built := ensurePartitionIndexChild template definition rule (fuel + 1) u parent table
    let found := u.graph.edges.find? (u.isReusableIndex (u.graph.resolveRename table) definition
      (u.constraintBacking parent) rule)
    (∃ e, found = some e ∧ built.1.1 = e.dependent ∧
      built.2 = u.recordIndexPartition parent e.dependent) ∨
    found = none ∧ u.indexTableOf built.1.1 = none ∧ ∃ kind : DependencyKind,
      kind.isIndexOnRelation = true ∧ GrowsIndexes (fun index => s.indexTableOf index = none)
        ((u.addGraphEdge ⟨built.1.1, table, kind⟩).recordIndexPartition parent built.1.1)
          built.2 := by
  intro built found
  cases hfound : found with
  | some e =>
    refine Or.inl ⟨e, rfl, ?_, ?_⟩
    · simp only [built, ensurePartitionIndexChild]
      rw [show u.graph.edges.find? _ = some e from hfound]
    · simp only [built, ensurePartitionIndexChild]
      rw [show u.graph.edges.find? _ = some e from hfound]
  | none =>
    refine Or.inr ⟨rfl, ?_⟩
    have hbuilt : built =
      ensurePartitionIndexChild template definition rule (fuel + 1) u parent table := rfl
    clear_value built
    unfold ensurePartitionIndexChild at hbuilt
    dsimp only at hbuilt
    rw [show u.graph.edges.find? _ = none from hfound] at hbuilt
    dsimp only at hbuilt
    generalize hname : u.nextGeneratedRelationNameAvoiding _ _ _ _ _ = index at hbuilt
    have hfree : u.indexTableOf index = none := by
      rw [← hname]
      exact indexTableOf_eq_none_of_free
        (u.nextGeneratedRelationName_fresh table.schema table.name _ "idx" []).2
    have hindex : s.indexTableOf index = none := by
      by_contra hne
      exact hsince index hne hfree
    have hkind :
        (template.mapIndexDefinition IndexDefinition.markUsable).isIndexOnRelation = true := by
      cases template <;> simp_all [DependencyKind.indexDefinition,
        DependencyKind.mapIndexDefinition, DependencyKind.isIndexOnRelation]
    have hadded : GrowsIndexes (fun index => s.indexTableOf index = none) u
        (u.addGraphEdge ⟨index, table, _⟩) := addIndex u index table hkind
    have hbase (id : ObjectId) (hid : s.indexTableOf id ≠ none) :
        ((u.addGraphEdge ⟨index, table, template.mapIndexDefinition
          IndexDefinition.markUsable⟩).recordIndexPartition parent index).indexTableOf id ≠ none := by
      rw [indexTableOf_record]
      exact hadded.present (hsince id hid)
    generalize hpartitions : DependencyGraph.partitionsOf _ table = partitions at hbuilt
    generalize hacc : List.foldl _ ((index, true), _) partitions = acc at hbuilt
    have hindexOf : acc.1.1 = index := by
      rw [← hacc]
      exact List.foldlRecOn
        (motive := fun acc : (ObjectId × Bool) × AnalysisState => acc.1.1 = index) partitions _ rfl
        fun _ hfst _ _ => hfst
    have hgrown : GrowsIndexes (fun index => s.indexTableOf index = none)
        ((u.addGraphEdge ⟨index, table, template.mapIndexDefinition
          IndexDefinition.markUsable⟩).recordIndexPartition parent index) acc.2 := by
      rw [← hacc]
      refine keeps_foldl_inv Prod.snd
        (I := fun v => ∀ id, s.indexTableOf id ≠ none → v.indexTableOf id ≠ none)
        (fun v w hgrows hv id hid => hgrows.present (hv id hid)) partitions
        (fun partition acc hacc => ?_) ((index, true), _) hbase
      exact hbelow acc.2 index partition hindex hacc
    have hanswer : built.1.1 = index := by rw [hbuilt, ← hindexOf]
    rw [hanswer]
    refine ⟨hfree, _, hkind, IsTrans.trans _ _ _ hgrown ?_⟩
    rw [hbuilt]
    dsimp only
    split
    · exact Std.Refl.refl _
    · exact setIndexDefinition _ _ _

/-- Indexes below a new index are attached to new ones only. -/
theorem ensureChild (fuel : Nat) (u : AnalysisState) (parent table : ObjectId)
    (hparent : s.indexTableOf parent = none)
    (hsince : ∀ index, s.indexTableOf index ≠ none → u.indexTableOf index ≠ none) :
    GrowsIndexes (fun index => s.indexTableOf index = none) u
      (ensurePartitionIndexChild template definition rule fuel u parent table).2 := by
  induction fuel generalizing u parent table with
  | zero => exact Std.Refl.refl u
  | succ fuel ih =>
    rcases ensureChild_cases htemplate definition rule ih u parent table hsince with
      ⟨e, hfound, -, hrecorded⟩ | ⟨-, hfree, kind, hkind, hgrown⟩
    · rw [hrecorded]
      have hreusable := List.find?_some hfound
      simp only [isReusableIndex, Bool.and_eq_true] at hreusable
      obtain ⟨⟨⟨⟨-, -⟩, howner⟩, -⟩, -⟩ := hreusable
      refine record u hparent fun hnone => ?_
      rw [hnone] at howner
      cases howner
    · generalize (ensurePartitionIndexChild template definition rule (fuel + 1) u parent
        table).1.1 = index at hfree hgrown
      have hpresent : (u.addGraphEdge ⟨index, table, kind⟩).indexTableOf index ≠ none := by
        rw [AnalysisState.indexTableOf, addGraphEdge_graph,
          DependencyGraph.indexTableOf_addIndex hkind hfree]
        exact Option.some_ne_none table
      exact IsTrans.trans _ _ _ (addIndex u index table hkind)
        (IsTrans.trans _ _ _ (record _ hparent hpresent) hgrown)

end EnsureChild

end GrowsIndexes

end SafeMigrate
