import SafeMigrate.LastingEdges
import SafeMigrate.Partition

/-! The kinds of write that building one table consists of. A relation
between states that keeps each of them keeps every step of the statement. -/

namespace SafeMigrate

open Command AnalysisState

namespace DependencyKind

theorem isRenameTo_of_foreignKey {kind : DependencyKind} (h : kind.isForeignKey = true) :
    kind.isRenameTo = false := by
  cases kind <;> simp_all [isForeignKey, isRenameTo]

theorem isRenameTo_of_columnDependency {kind : DependencyKind}
    (h : kind.isColumnDependency = true) : kind.isRenameTo = false := by
  cases kind <;> simp_all [isColumnDependency, isRenameTo]

theorem isRenameTo_of_definition {kind : DependencyKind} {definition : IndexDefinition}
    (h : kind.indexDefinition = some definition) : kind.isRenameTo = false := by
  cases kind <;> simp_all [indexDefinition, isRenameTo]

theorem isPartitionOf_of_foreignKey {kind : DependencyKind} (h : kind.isForeignKey = true) :
    kind.isPartitionOf = false := by
  cases kind <;> simp_all [isForeignKey, isPartitionOf]

theorem isPartitionOf_of_columnDependency {kind : DependencyKind}
    (h : kind.isColumnDependency = true) : kind.isPartitionOf = false := by
  cases kind <;> simp_all [isColumnDependency, isPartitionOf]

theorem isPartitionOf_of_definition {kind : DependencyKind} {definition : IndexDefinition}
    (h : kind.indexDefinition = some definition) : kind.isPartitionOf = false := by
  cases kind <;> simp_all [indexDefinition, isPartitionOf]

@[simp] theorem isPartitionOf_mapIndexDefinition (kind : DependencyKind)
    (f : IndexDefinition → IndexDefinition) :
    (kind.mapIndexDefinition f).isPartitionOf = kind.isPartitionOf := by
  cases kind <;> rfl

@[simp] theorem isRenameTo_mapIndexDefinition (kind : DependencyKind)
    (f : IndexDefinition → IndexDefinition) :
    (kind.mapIndexDefinition f).isRenameTo = kind.isRenameTo := by
  cases kind <;> rfl

end DependencyKind

/-- An edge that may be recorded for the table `id`: no alias, and a partition
edge only from the table to its declared parent. -/
def DependencyEdge.RecordedFor (id : ObjectId) (declared : Option ObjectId) (edge : DependencyEdge) :
    Prop :=
  edge.kind.isRenameTo = false ∧
    (edge.kind.isPartitionOf = true → edge.dependent = id ∧ some edge.referenced = declared)

/-- Edges of a kind that is neither an alias nor a partition. -/
theorem DependencyEdge.RecordedFor.of_kind {id : ObjectId} {declared : Option ObjectId}
    {edge : DependencyEdge} (halias : edge.kind.isRenameTo = false)
    (hpartition : edge.kind.isPartitionOf = false) : edge.RecordedFor id declared :=
  ⟨halias, fun h => by simp [hpartition] at h⟩

/-- A relation between states that the writes to the edges of the table `id` keep. -/
structure KeepsEdgeWrites (id : ObjectId) (declared : Option ObjectId)
    (R : AnalysisState → AnalysisState → Prop) : Prop where
  listTrigger (s : AnalysisState) (name : String) : R s (s.updateRelation id fun relation =>
    { relation with triggers := insert name relation.triggers })
  bumpGeneration (s : AnalysisState) : R s s.bumpGeneration
  addGraphEdge (s : AnalysisState) {edge : DependencyEdge} (h : edge.RecordedFor id declared) :
    R s (s.addGraphEdge edge)
  addGraphEdges (s : AnalysisState) {edges : List DependencyEdge}
    (h : ∀ edge ∈ edges, edge.RecordedFor id declared) : R s (s.addGraphEdges edges)
  addGraphEdgeFull (s : AnalysisState) {edge : DependencyEdge} (h : edge.RecordedFor id declared) :
    R s (s.addGraphEdgeFull edge)
  setIndexDefinition (s : AnalysisState) (index : ObjectId) (f : IndexDefinition → IndexDefinition) :
    R s (s.setIndexDefinition index f)

/-- A relation between states that the writes for the objects of the table
`id` keep, its sequences and triggers apart. -/
structure KeepsDependentWrites (id : ObjectId) (declared : Option ObjectId)
    (R : AnalysisState → AnalysisState → Prop) : Prop extends
    KeepsEdgeWrites id declared R where
  putConstraint (s : AnalysisState) (constraint : ConstraintState) : R s (s.putConstraint constraint)
  putConstraintEdges (s : AnalysisState) {writes : List (ConstraintState × DependencyEdge)}
    (h : ∀ write ∈ writes, write.2.RecordedFor id declared) : R s (s.putConstraintEdges writes)

/-- A relation between states that the writes for its triggers keep, too. -/
structure KeepsTriggerWrites (id : ObjectId) (declared : Option ObjectId)
    (R : AnalysisState → AnalysisState → Prop) : Prop extends
    KeepsDependentWrites id declared R where
  putTrigger (s : AnalysisState) (trigger : TriggerState) : R s (s.putTrigger trigger)

/-- A relation between states that the writes for any object of the table keep. -/
structure KeepsObjectWrites (id : ObjectId) (declared : Option ObjectId)
    (R : AnalysisState → AnalysisState → Prop) : Prop extends
    KeepsTriggerWrites id declared R where
  putSequence (s : AnalysisState) (sequenceId : ObjectId) (f : AnalysisState → SequenceState) :
    R s (s.putSequence sequenceId f)

/-- A relation between states that the writes to the table `id` itself keep, too. -/
structure KeepsRelationWrites (id : ObjectId) (declared : Option ObjectId)
    (R : AnalysisState → AnalysisState → Prop) : Prop extends
    KeepsTriggerWrites id declared R where
  openTable (s : AnalysisState) : R s (s.snapshotRelation id).bumpGeneration
  putRelation (s : AnalysisState) (relation : RelationState) :
    R s (s.setRelations (s.relations.insert id (.present relation)))
  modifyRelation (s : AnalysisState) (f : RelationState → RelationState) :
    R s (s.modifyRelation id f)

/-- A relation between states that the writes to the table `id` keep. -/
structure KeepsTableWrites (id : ObjectId) (declared : Option ObjectId)
    (R : AnalysisState → AnalysisState → Prop) : Prop extends
    KeepsObjectWrites id declared R, KeepsRelationWrites id declared R

namespace KeepsEdgeWrites

variable {R : AnalysisState → AnalysisState → Prop} {id : ObjectId} {declared : Option ObjectId}

theorem recordIndexPartition (hR : KeepsEdgeWrites id declared R) (s : AnalysisState)
    (parent child : ObjectId) : R s (s.recordIndexPartition parent child) :=
  hR.addGraphEdge s (.of_kind rfl rfl)

variable [KeepsEvidence R]

theorem ensurePartitionIndexChild (hR : KeepsEdgeWrites id declared R) {template : DependencyKind}
    {stored : IndexDefinition} (ht : template.indexDefinition = some stored)
    (definition : IndexDefinition) (rule : ChildReuseRule) (fuel : Nat) (s : AnalysisState) (parent table : ObjectId) :
    R s (AnalysisState.ensurePartitionIndexChild template definition rule fuel s parent table).2 := by
  induction fuel generalizing s parent table with
  | zero => exact Std.Refl.refl s
  | succ fuel ih =>
    unfold AnalysisState.ensurePartitionIndexChild
    dsimp only
    split
    · exact hR.recordIndexPartition s _ _
    · -- the new index, its attachment, its children, and its mark as invalid
      generalize s.nextGeneratedRelationNameAvoiding _ _ _ _ _ = index
      have hedge : (⟨index, table, template.mapIndexDefinition IndexDefinition.markUsable⟩ :
          DependencyEdge).RecordedFor id declared :=
        .of_kind (by simpa using DependencyKind.isRenameTo_of_definition ht)
          (by simpa using DependencyKind.isPartitionOf_of_definition ht)
      have hbase : R s ((s.addGraphEdge _).recordIndexPartition parent index) :=
        IsTrans.trans _ _ _ (hR.addGraphEdge s hedge) (hR.recordIndexPartition _ parent index)
      generalize (s.addGraphEdge _).recordIndexPartition parent index = base at hbase ⊢
      generalize hbuilt : List.foldl _ ((index, true), base) _ = built
      have hfold : R base built.2 := by
        rw [← hbuilt]
        refine keeps_foldl_of Prod.snd _ (fun partition _ acc => ?_) ((index, true), base)
        exact ih acc.2 index partition
      refine IsTrans.trans _ _ _ hbase (IsTrans.trans _ _ _ hfold ?_)
      split
      · exact Std.Refl.refl _
      · exact hR.setIndexDefinition _ _ _

end KeepsEdgeWrites

namespace KeepsDependentWrites

variable {R : AnalysisState → AnalysisState → Prop} [KeepsEvidence R] {id : ObjectId}
  {declared : Option ObjectId}

theorem cloneKeyConstraint (hR : KeepsDependentWrites id declared R) (s : AnalysisState)
    (parent child : ObjectId) (constraint : ConstraintState) (childIndex : ObjectId) :
    R s (s.cloneKeyConstraint parent child constraint childIndex) := by
  unfold AnalysisState.cloneKeyConstraint
  dsimp only
  split
  · exact IsTrans.trans _ _ _ (hR.putConstraint s _) (hR.addGraphEdge _ (.of_kind rfl rfl))
  · exact IsTrans.trans _ _ _ (hR.putConstraint s _) (KeepsEvidence.taint _ _ _)

theorem ensurePartitionIndex (hR : KeepsDependentWrites id declared R) (parent child : ObjectId)
    (constraints : List ConstraintState) (s : AnalysisState) (parentIndex : DependencyEdge) :
    R s (AnalysisState.ensurePartitionIndex parent child constraints s parentIndex) := by
  unfold AnalysisState.ensurePartitionIndex
  split
  · exact Std.Refl.refl s
  · rename_i definition hdefinition
    have hchild := hR.ensurePartitionIndexChild hdefinition definition .tableAttach
      s.graph.partitionFuel s parentIndex.dependent child
    dsimp only
    split
    · exact hchild
    · split
      · exact hchild
      · exact IsTrans.trans _ _ _ hchild (hR.cloneKeyConstraint _ _ _ _ _)

theorem ensurePartitionIndexesAndConstraints (hR : KeepsDependentWrites id declared R) (s : AnalysisState)
    (parent child : ObjectId) : R s (s.ensurePartitionIndexesAndConstraints parent child) :=
  keeps_foldl _ (fun e _ s => hR.ensurePartitionIndex parent child _ s e) s

end KeepsDependentWrites

namespace KeepsTriggerWrites

variable {R : AnalysisState → AnalysisState → Prop} [KeepsEvidence R] {id : ObjectId}
  {declared : Option ObjectId}

theorem cloneRowTrigger (hR : KeepsTriggerWrites id declared R) (s : AnalysisState)
    (parentTrigger : TriggerState) : R s (AnalysisState.cloneRowTrigger id s parentTrigger) :=
  IsTrans.trans _ _ _ (hR.bumpGeneration s) <|
    IsTrans.trans _ _ _ (hR.putTrigger _ _) <|
      IsTrans.trans _ _ _ (hR.listTrigger _ _) (hR.addGraphEdgeFull _ (.of_kind rfl rfl))

theorem cloneRowTriggersToPartition (hR : KeepsTriggerWrites id declared R) (parent : ObjectId)
    {child : ObjectRef} (hchild : child.id = id) :
    Keeps R (SafeMigrate.cloneRowTriggersToPartition parent child) := by
  subst hchild
  refine Keeps.bind Keeps.get fun s => ?_
  dsimp only
  split
  · exact keeps_refuse _
  · exact Keeps.modify fun s => keeps_foldl _ (fun trigger _ s => hR.cloneRowTrigger s trigger) s

end KeepsTriggerWrites

end SafeMigrate
