import SafeMigrate.CreateTable
import SafeMigrate.TableWrites

/-! What `CREATE TABLE` writes: evidence while it plans, and then only what a
relation between states has to keep for the writes to one new table. -/

namespace SafeMigrate

open Command

theorem KeepsDependentWrites.registerNotNullConstraint {R : AnalysisState → AnalysisState → Prop}
    [KeepsEvidence R] {id : ObjectId} {declared : Option ObjectId}
    (hR : KeepsDependentWrites id declared R) (s : AnalysisState) (table : ObjectId)
    (column : String) : R s (AnalysisState.registerNotNullConstraint table s column) := by
  unfold AnalysisState.registerNotNullConstraint
  split
  · exact Std.Refl.refl s
  · exact IsTrans.trans _ _ _ (hR.putConstraint s _) (hR.addGraphEdge _ (.of_kind rfl rfl))

namespace CreateTable

variable {text : SqlText} {create : CreateTable}

section Plan

variable {R : AnalysisState → AnalysisState → Prop} [KeepsEvidence R]

theorem keeps_mergeInheritedColumn (sources : TableSources) (column : Column) :
    Keeps R (mergeInheritedColumn sources column) := by
  unfold mergeInheritedColumn
  split
  · exact Keeps.pure _
  · exact Keeps.ite (fun _ => keeps_refuse _) fun _ => Keeps.pure _

theorem keeps_mergeGeneratedColumn (sources : TableSources)
    (generated : String × GeneratedColumnState) :
    Keeps R (mergeGeneratedColumn sources generated) :=
  Keeps.ite (fun _ => keeps_refuse _) fun _ => Keeps.pure _

theorem keeps_mergeInheritedCheck (parent : ObjectId) (sources : TableSources)
    (constraint : ConstraintState) :
    Keeps R (mergeInheritedCheck text parent sources constraint) := by
  refine Keeps.bind Keeps.get fun s => ?_
  split
  · exact Keeps.ite (fun _ => keeps_refuse _) fun _ => Keeps.pure _
  · exact keeps_leaveUnresolved _

theorem keeps_inheritFrom (sources : TableSources) (parentId : ObjectRef) :
    Keeps R (create.inheritFrom text sources parentId) := by
  refine Keeps.bind (keeps_ensureRelationTarget _ _ _ _) fun _ => Keeps.bind Keeps.get fun s =>
    Keeps.bind (keeps_refuseIf _ _) fun _ => ?_
  split
  · exact keeps_leaveUnresolved _
  · exact Keeps.bind (Keeps.foldlM _ _ keeps_mergeInheritedColumn) fun _ =>
      Keeps.bind (Keeps.foldlM _ _ keeps_mergeGeneratedColumn) fun _ =>
        Keeps.foldlM _ _ (keeps_mergeInheritedCheck _)

theorem keeps_copyCompositeField (sources : TableSources) (field : CompositeFieldState) :
    Keeps R (copyCompositeField sources field) :=
  Keeps.ite (fun _ => keeps_refuse _) fun _ => Keeps.pure _

theorem keeps_copyIdentityColumn (source : ObjectId) (sources : TableSources)
    (identity : String × IdentityGeneration) :
    Keeps R (copyIdentityColumn source sources identity) := by
  refine Keeps.bind Keeps.get fun s => ?_
  split
  · exact keeps_leaveUnresolved _
  · exact Keeps.pure _

theorem keeps_copyIdentityColumns (source : ObjectId) (properties : LikeProperties)
    (relation : RelationState) (sources : TableSources) :
    Keeps R (copyIdentityColumns source properties relation sources) :=
  Keeps.ite (fun _ => Keeps.foldlM _ _ (keeps_copyIdentityColumn source)) fun _ => Keeps.pure _

theorem keeps_copyCheck (source : ObjectId) (sources : TableSources)
    (constraint : ConstraintState) : Keeps R (copyCheck source sources constraint) := by
  refine Keeps.bind Keeps.get fun s => ?_
  split
  · exact Keeps.pure _
  · exact keeps_leaveUnresolved _

theorem keeps_copyChecks (source : ObjectId) (properties : LikeProperties)
    (sources : TableSources) : Keeps R (copyChecks source properties sources) :=
  Keeps.ite (fun _ => Keeps.bind Keeps.get fun _ => Keeps.foldlM _ _ (keeps_copyCheck source))
    fun _ => Keeps.pure _

theorem keeps_copyImpliedIndex (source : ObjectId) (sources : TableSources)
    (constraint : ConstraintState) : Keeps R (copyImpliedIndex source sources constraint) := by
  refine Keeps.bind Keeps.get fun s => ?_
  split
  · exact keeps_leaveUnresolved _
  · exact Keeps.pure _

theorem keeps_copyIndexes (source : ObjectId) (properties : LikeProperties)
    (sources : TableSources) : Keeps R (copyIndexes source properties sources) :=
  Keeps.ite
    (fun _ => Keeps.bind Keeps.get fun _ => Keeps.foldlM _ _ (keeps_copyImpliedIndex source))
    fun _ => Keeps.pure _

theorem keeps_copyLikeColumn (properties : LikeProperties) (sources : TableSources)
    (column : Column) : Keeps R (copyLikeColumn properties sources column) :=
  Keeps.ite (fun _ => keeps_refuse _) fun _ => Keeps.pure _

theorem keeps_copyLikeRelation (like : LikeSource) (sources : TableSources) :
    Keeps R (create.copyLikeRelation like sources) := by
  refine Keeps.bind (keeps_ensureRelationTarget _ _ _ _) fun _ => Keeps.bind Keeps.get fun s => ?_
  split
  · exact keeps_leaveUnresolved _
  · exact Keeps.bind (keeps_copyIdentityColumns _ _ _ _) fun _ =>
      Keeps.bind (keeps_copyChecks _ _ _) fun _ =>
        Keeps.bind (keeps_copyIndexes _ _ _) fun _ =>
          Keeps.foldlM _ _ (keeps_copyLikeColumn like.properties)

theorem keeps_copyLike (sources : TableSources) (like : LikeSource) :
    Keeps R (create.copyLike sources like) := by
  refine Keeps.bind Keeps.get fun s => ?_
  dsimp only
  split
  · exact Keeps.foldlM _ _ keeps_copyCompositeField
  · exact keeps_copyLikeRelation _ _

theorem keeps_copyPartitionColumn (sources : TableSources) (column : Column) :
    Keeps R (copyPartitionColumn sources column) :=
  Keeps.ite (fun _ => keeps_refuse _) fun _ => Keeps.pure _

theorem keeps_copyPartitionParent (sources : TableSources) (parentId : ObjectRef) :
    Keeps R (copyPartitionParent sources parentId) := by
  refine Keeps.bind (keeps_ensureRelationTarget _ _ _ _) fun _ => Keeps.bind Keeps.get fun s => ?_
  split
  · exact keeps_leaveUnresolved _
  · exact Keeps.bind (keeps_refuseIf _ _) fun _ =>
      Keeps.bind (Keeps.foldlM _ _ keeps_copyPartitionColumn) fun _ =>
        Keeps.bind (Keeps.foldlM _ _ (keeps_copyCheck _)) fun _ => Keeps.pure _

theorem keeps_sources : Keeps R (create.sources text) := by
  refine Keeps.bind (Keeps.foldlM _ _ keeps_inheritFrom) fun _ =>
    Keeps.bind (Keeps.foldlM _ _ keeps_copyLike) fun _ => ?_
  split
  · exact Keeps.pure _
  · exact keeps_copyPartitionParent _ _

theorem keeps_checkColumn (inherited : List Column) (names : List String)
    (column : ColumnMutation) : Keeps R (checkColumn inherited names column) := by
  unfold checkColumn
  split
  · dsimp only
    split
    · exact Keeps.ite (fun _ => Keeps.pure _) fun _ => keeps_refuse _
    · exact keeps_refuse _
  · exact Keeps.pure _

theorem keeps_checkGeneratedColumn (names : List String) (column : ColumnMutation) :
    Keeps R (create.checkGeneratedColumn names column) := by
  unfold checkGeneratedColumn
  split
  · exact Keeps.pure _
  · split
    · exact keeps_leaveUnresolvedStatement _
    · split
      · exact keeps_refuse _
      · exact Keeps.pure _

theorem keeps_checkKeyColumns (names columns seen : List String) :
    Keeps R (create.checkKeyColumns names seen columns) := by
  induction columns generalizing seen with
  | nil => exact Keeps.pure _
  | cons column columns ih =>
    exact Keeps.ite (fun _ => keeps_refuse _) fun _ =>
      Keeps.ite (fun _ => keeps_refuse _) fun _ => ih _

theorem keeps_checkKeyConstraint (names : List String) (constraint : TableConstraintFact) :
    Keeps R (create.checkKeyConstraint names constraint) := by
  cases constraint with
  | primaryKey _ columns | unique _ columns =>
    exact Keeps.ite (fun _ => keeps_refuse _) fun _ => keeps_checkKeyColumns _ _ _
  | check _ _ _ _ _ | exclude _ _ _ => exact Keeps.pure _

theorem keeps_checkForeignKeyColumns (names : List String) (fk : FkMutation) :
    Keeps R (create.checkForeignKeyColumns names fk) :=
  Keeps.bind (keeps_refuseIf _ _) fun _ => Keeps.bind (keeps_refuseIf _ _) fun _ =>
    Keeps.bind (keeps_refuseFound _ _) fun _ => Keeps.bind (keeps_refuseFound _ _) fun _ =>
      keeps_refuseFound _ _

theorem keeps_foreignKeyTargetColumns (names : List String) (fk : FkMutation) :
    Keeps R (create.foreignKeyTargetColumns names fk) := by
  refine Keeps.ite (fun _ => Keeps.pure _) fun _ =>
    Keeps.bind (keeps_ensureRelationTarget _ _ _ _) fun _ => Keeps.bind Keeps.get fun s => ?_
  split
  · exact Keeps.pure _
  · exact keeps_leaveUnresolved _

theorem keeps_referencedKeyColumns (fk : FkMutation) (keys : Option (List (List String × Bool))) :
    Keeps R (create.referencedKeyColumns fk keys) :=
  Keeps.ite (fun _ => Keeps.ite (fun _ => keeps_refuse _) fun _ => Keeps.pure _)
    fun _ => Keeps.pure _

theorem keeps_planForeignKey (inherited : List Column) (names : List String) (fk : FkMutation) :
    Keeps R (create.planForeignKey text inherited names fk) :=
  Keeps.bind (keeps_checkForeignKeyColumns _ _) fun _ =>
    Keeps.bind (keeps_foreignKeyTargetColumns _ _) fun _ => Keeps.bind Keeps.get fun _ =>
      Keeps.bind (keeps_refuseFound _ _) fun _ =>
        Keeps.bind (keeps_referencedKeyColumns _ _) fun _ =>
          Keeps.bind (keeps_refuseIf _ _) fun _ => Keeps.bind (keeps_taintIf _ _ _) fun _ =>
            Keeps.bind (keeps_leaveUnresolvedIf _ _) fun _ =>
              Keeps.bind (keeps_taintIf _ _ _) fun _ => Keeps.pure _

theorem keeps_planSequence (planned : List ImplicitSequence) (column : ColumnMutation) :
    Keeps R (create.planSequence planned column) := by
  unfold planSequence
  split
  · exact Keeps.pure _
  · refine Keeps.bind Keeps.get fun s => Keeps.bind (keeps_refuseIf _ _) fun _ => ?_
    dsimp only
    split
    · exact keeps_refuse _
    · exact Keeps.pure _

theorem keeps_reserveConstraintName (verb : String) (names : TableNames) (name : String) :
    Keeps R (reserveConstraintName verb names name) :=
  Keeps.ite (fun _ => keeps_refuse _) fun _ => Keeps.pure _

theorem keeps_reserveIndexId (names : TableNames) (name : String) :
    Keeps R (create.reserveIndexId names name) :=
  Keeps.bind Keeps.get fun _ => Keeps.ite (fun _ => keeps_refuse _) fun _ => Keeps.pure _

theorem keeps_planPrimaryKey (names : TableNames) : Keeps R (create.planPrimaryKey names) := by
  unfold planPrimaryKey
  split
  · exact Keeps.pure _
  · exact Keeps.bind Keeps.get fun _ => Keeps.bind (keeps_reserveConstraintName _ _ _) fun _ =>
      Keeps.bind (keeps_reserveIndexId _ _) fun _ => Keeps.pure _

theorem keeps_planUniqueKey (names : TableNames) (key : Option String × List String) :
    Keeps R (create.planUniqueKey names key) :=
  Keeps.bind Keeps.get fun _ => Keeps.bind (keeps_reserveConstraintName _ _ _) fun _ =>
    Keeps.bind (keeps_reserveIndexId _ _) fun _ => Keeps.pure _

theorem keeps_planForeignKeyName (names : TableNames) (fk : FkMutation) :
    Keeps R (create.planForeignKeyName names fk) :=
  Keeps.bind Keeps.get fun _ => Keeps.bind (keeps_reserveConstraintName _ _ _) fun _ =>
    Keeps.pure _

theorem keeps_planInlineConstraint (sources : TableSources) (names : TableNames)
    (constraint : TableConstraintFact) :
    Keeps R (create.planInlineConstraint text sources names constraint) := by
  refine Keeps.bind Keeps.get fun s => ?_
  cases constraint with
  | primaryKey _ _ | unique _ _ => exact Keeps.pure _
  | check _ _ _ _ _ =>
    exact Keeps.ite (fun _ => Keeps.pure _) fun _ =>
      Keeps.bind (keeps_reserveConstraintName _ _ _) fun _ => Keeps.pure _
  | exclude _ _ _ =>
    exact Keeps.bind (keeps_reserveConstraintName _ _ _) fun _ =>
      Keeps.bind (keeps_reserveIndexId _ _) fun _ => Keeps.pure _

theorem keeps_planNames (sources : TableSources) : Keeps R (create.planNames text sources) :=
  Keeps.bind (Keeps.foldlM _ _ (keeps_reserveConstraintName _)) fun _ =>
    Keeps.bind (Keeps.foldlM _ _ (keeps_reserveConstraintName _)) fun _ =>
      Keeps.bind (keeps_planPrimaryKey _) fun _ =>
        Keeps.bind (Keeps.foldlM _ _ keeps_planUniqueKey) fun _ =>
          Keeps.bind (Keeps.foldlM _ _ keeps_planForeignKeyName) fun _ =>
            Keeps.bind (Keeps.foldlM _ _ (keeps_planInlineConstraint sources)) fun _ =>
              Keeps.bind Keeps.get fun _ => Keeps.pure _

/-- Planning leaves the catalog as it is. -/
theorem keeps_plan : Keeps R (create.plan text) :=
  Keeps.bind keeps_sources fun _ =>
    Keeps.bind (Keeps.foldlM _ _ (keeps_checkColumn _)) fun _ =>
      Keeps.bind (Keeps.forM _ (keeps_checkGeneratedColumn _)) fun _ =>
        Keeps.bind (keeps_refuseIf _ _) fun _ =>
          Keeps.bind (Keeps.forM _ (keeps_checkKeyConstraint _)) fun _ =>
            Keeps.bind (Keeps.mapM _ (keeps_planForeignKey _ _)) fun _ =>
              Keeps.bind (Keeps.foldlM _ _ keeps_planSequence) fun _ =>
                Keeps.bind Keeps.get fun _ =>
                  Keeps.bind (keeps_planNames _) fun _ => Keeps.pure _

theorem keeps_declareColumn (declared : RelationState × List String) (column : ColumnMutation) :
    Keeps R (create.declareColumn text declared column) :=
  Keeps.bind (Keeps.forM _ (keeps_checkDeclaredType text)) fun _ =>
    Keeps.bind Keeps.get fun _ => Keeps.pure _

theorem keeps_checkNamespace : Keeps R create.checkNamespace :=
  Keeps.bind Keeps.get fun _ => Keeps.ite
    (fun _ => Keeps.ite (fun _ => Keeps.throw _) fun _ => keeps_refuse _) fun _ => Keeps.pure _

theorem keeps_checkOfType : Keeps R create.checkOfType := by
  unfold checkOfType
  split
  · exact Keeps.pure _
  · refine Keeps.bind Keeps.get fun s => ?_
    split
    · exact Keeps.pure _
    · exact keeps_refuse _
    · exact keeps_refuse _
    · exact keeps_leaveUnresolved _

end Plan

section Execute

theorem isRenameTo_constraintColumnsKind (name : String) (kind : ConstraintKind)
    (columns : List String) : (constraintColumnsKind name kind columns).isRenameTo = false := by
  unfold constraintColumnsKind
  split <;> rfl

theorem isPartitionOf_constraintColumnsKind (name : String) (kind : ConstraintKind)
    (columns : List String) : (constraintColumnsKind name kind columns).isPartitionOf = false := by
  unfold constraintColumnsKind
  split <;> rfl

theorem isForeignKey_inheritedForeignKeyKind (name : String) (generation : Nat)
    {kind : DependencyKind} (h : kind.isForeignKey = true) :
    (inheritedForeignKeyKind name generation kind).isForeignKey = true := by
  cases kind <;> simp_all [inheritedForeignKeyKind, DependencyKind.isForeignKey]

variable {R : AnalysisState → AnalysisState → Prop} [KeepsEvidence R]

section Objects

theorem keeps_addImplicitSequence
    (hR : KeepsObjectWrites create.id.id (create.partitionOf.map (·.id)) R) (s : AnalysisState)
    (sequence : ImplicitSequence) : R s (create.addImplicitSequence s sequence) :=
  IsTrans.trans _ _ _ (hR.putSequence s _ _) (hR.addGraphEdge _ (.of_kind rfl rfl))

variable (hR : KeepsDependentWrites create.id.id (create.partitionOf.map (·.id)) R)
include hR

theorem keeps_addGeneratedEdges (s : AnalysisState) (column : ColumnMutation) :
    R s (create.addGeneratedEdges s column) := by
  unfold addGeneratedEdges
  split
  · exact Std.Refl.refl s
  · split
    · exact KeepsEvidence.taint _ _ _
    · refine hR.addGraphEdges s fun edge hedge => ?_
      obtain ⟨reference, -, rfl⟩ := List.mem_map.mp hedge
      exact .of_kind rfl rfl

theorem keeps_addCopiedCheck (s : AnalysisState) (check : String × List String × String) :
    R s (create.addCopiedCheck s check) :=
  IsTrans.trans _ _ _ (hR.putConstraint s _) (hR.addGraphEdge _ (.of_kind rfl rfl))

theorem keeps_addCopiedIndex (s : AnalysisState)
    (index : ObjectId × IndexKind × Option (ConstraintKind × List String)) :
    R s (create.addCopiedIndex s index) := by
  have hedge : (⟨index.1, create.id.id, index.2.1.val⟩ : DependencyEdge).RecordedFor create.id.id
      (create.partitionOf.map (·.id)) :=
    .of_kind (DependencyKind.isRenameTo_of_index index.2.1.2)
      (DependencyKind.isPartitionOf_of_index index.2.1.2)
  have hindex := hR.addGraphEdge s hedge
  unfold addCopiedIndex
  dsimp only
  split
  · exact hindex
  · exact IsTrans.trans _ _ _ hindex <| IsTrans.trans _ _ _ (hR.putConstraint _ _)
      (hR.addGraphEdge _ (.of_kind (isRenameTo_constraintColumnsKind _ _ _)
        (isPartitionOf_constraintColumnsKind _ _ _)))

theorem keeps_addPrimaryKey (plan : TablePlan) (s : AnalysisState) :
    R s (create.addPrimaryKey plan s) := by
  unfold addPrimaryKey
  split
  · exact Std.Refl.refl s
  · exact IsTrans.trans _ _ _ (hR.putConstraint s _) (hR.addGraphEdge _ (.of_kind rfl rfl))

theorem keeps_addUniqueKey (s : AnalysisState) (key : String × List String) :
    R s (create.addUniqueKey s key) := by
  refine IsTrans.trans _ _ _ (hR.putConstraint s _) (hR.addGraphEdges _ fun edge hedge => ?_)
  simp only [List.mem_cons, List.not_mem_nil, or_false] at hedge
  rcases hedge with rfl | rfl <;> exact .of_kind rfl rfl

theorem keeps_addParentEdges (s : AnalysisState) : R s (create.addParentEdges s) := by
  unfold addParentEdges
  dsimp only
  have hinherits (t : AnalysisState) : R t (create.inherits.foldl (fun s parent =>
      s.addGraphEdge ⟨create.id.id, parent.id, .inheritanceOf⟩) t) :=
    keeps_foldl _ (fun _ _ s => hR.addGraphEdge s (.of_kind rfl rfl)) t
  split
  · rename_i parent hparent
    refine IsTrans.trans _ _ _ (hR.addGraphEdge s ⟨rfl, fun _ => ⟨rfl, ?_⟩⟩) (hinherits _)
    rw [hparent, Option.map_some]
  · exact hinherits s

theorem keeps_addForeignKeys (plan : TablePlan) (generation : Nat) (s : AnalysisState) :
    R s (create.addForeignKeys plan s generation) := by
  unfold addForeignKeys
  split
  · exact Std.Refl.refl s
  · refine hR.putConstraintEdges s fun write hwrite => ?_
    obtain ⟨fk, -, rfl⟩ := List.mem_map.mp hwrite
    exact .of_kind rfl rfl

theorem keeps_addInheritedForeignKey (generation : Nat) (s : AnalysisState)
    (fk : String × ForeignKeyEdge) : R s (create.addInheritedForeignKey generation s fk) := by
  have hkind := isForeignKey_inheritedForeignKeyKind fk.1 generation fk.2.2
  exact IsTrans.trans _ _ _ (hR.putConstraint s _) (hR.addGraphEdge _
    (.of_kind (DependencyKind.isRenameTo_of_foreignKey hkind)
      (DependencyKind.isPartitionOf_of_foreignKey hkind)))

theorem keeps_addExclusionIndex (s : AnalysisState) (constraint : InlineConstraint) :
    R s (create.addExclusionIndex s constraint) := by
  unfold addExclusionIndex
  split
  · exact hR.addGraphEdge s (.of_kind rfl rfl)
  · exact Std.Refl.refl s

theorem keeps_addInlineConstraint (s : AnalysisState) (constraint : InlineConstraint) :
    R s (create.addInlineConstraint s constraint) := by
  have hindexed : R s _ := IsTrans.trans _ _ _ (hR.putConstraint s (create.newConstraint
    constraint.name constraint.kind constraint.definition constraint.backingIndex))
    (keeps_addExclusionIndex hR _ constraint)
  unfold addInlineConstraint
  dsimp only
  split
  · exact IsTrans.trans _ _ _ hindexed (hR.addGraphEdge _ (.of_kind rfl rfl))
  · exact IsTrans.trans _ _ _ hindexed (KeepsEvidence.taint _ _ _)

theorem keeps_addPrimaryKeyColumns (plan : TablePlan) (s : AnalysisState) :
    R s (create.addPrimaryKeyColumns plan s) := by
  unfold addPrimaryKeyColumns
  split
  · exact Std.Refl.refl s
  · exact hR.addGraphEdge s (.of_kind rfl rfl)

theorem keeps_addObjects_of (plan : TablePlan)
    (hsequence : ∀ q ∈ plan.sequences, ∀ s, R s (create.addImplicitSequence s q))
    (generation : Nat) (notNullColumns : List String) (s : AnalysisState) :
    R s (create.addObjects plan generation notNullColumns s) := by
  unfold addObjects
  dsimp only
  have hdependencies : R s (if plan.sources.dependencyEdges.isEmpty then s
      else s.addGraphEdges (plan.sources.dependencyEdges.map (·.val))) := by
    split
    · exact Std.Refl.refl s
    · refine hR.addGraphEdges s fun edge hedge => ?_
      obtain ⟨dependency, -, rfl⟩ := List.mem_map.mp hedge
      exact .of_kind (DependencyKind.isRenameTo_of_columnDependency dependency.2)
        (DependencyKind.isPartitionOf_of_columnDependency dependency.2)
  refine IsTrans.trans _ _ _ ?_ (keeps_addPrimaryKeyColumns hR plan _)
  refine IsTrans.trans _ _ _ ?_ (keeps_foldl _ (fun c _ s => keeps_addInlineConstraint hR s c) _)
  refine IsTrans.trans _ _ _ ?_
    (keeps_foldl _ (fun fk _ s => keeps_addInheritedForeignKey hR generation s fk) _)
  refine IsTrans.trans _ _ _ ?_ (keeps_addForeignKeys hR plan generation _)
  refine IsTrans.trans _ _ _ ?_ (keeps_addParentEdges hR _)
  refine IsTrans.trans _ _ _ ?_ (keeps_foldl _ (fun k _ s => keeps_addUniqueKey hR s k) _)
  refine IsTrans.trans _ _ _ ?_ (keeps_addPrimaryKey hR plan _)
  refine IsTrans.trans _ _ _ ?_ (keeps_foldl _ hsequence _)
  refine IsTrans.trans _ _ _ ?_ (keeps_foldl _ (fun i _ s => keeps_addCopiedIndex hR s i) _)
  refine IsTrans.trans _ _ _ ?_ (keeps_foldl _ (fun c _ s => keeps_addCopiedCheck hR s c) _)
  refine IsTrans.trans _ _ _ ?_
    (keeps_foldl _ (fun c _ s => hR.registerNotNullConstraint s _ c) _)
  exact IsTrans.trans _ _ _ hdependencies
    (keeps_foldl _ (fun c _ s => keeps_addGeneratedEdges hR s c) _)

omit hR in
theorem keeps_addObjects (hR : KeepsObjectWrites create.id.id (create.partitionOf.map (·.id)) R)
    (plan : TablePlan) (generation : Nat) (notNullColumns : List String) (s : AnalysisState) :
    R s (create.addObjects plan generation notNullColumns s) :=
  keeps_addObjects_of hR.toKeepsDependentWrites plan
    (fun q _ s => keeps_addImplicitSequence hR s q) generation notNullColumns s

end Objects

variable (hR : KeepsRelationWrites create.id.id (create.partitionOf.map (·.id)) R)
include hR

theorem keeps_setPartitionConstraint (s : AnalysisState) (parent : ObjectId) :
    R s (create.setPartitionConstraint text s parent) := by
  unfold setPartitionConstraint
  split
  · exact hR.modifyRelation s _
  · exact Std.Refl.refl s

theorem keeps_attachToParent : Keeps R (create.attachToParent text) := by
  unfold attachToParent
  split
  · exact Keeps.pure _
  · exact Keeps.bind (Keeps.modify fun s => keeps_setPartitionConstraint hR s _) fun _ =>
      Keeps.bind (hR.cloneRowTriggersToPartition _ rfl) fun _ =>
        Keeps.modify fun s => hR.ensurePartitionIndexesAndConstraints s _ _

theorem keeps_execute (hnote : ∀ s, R s (create.noteIfTemporary s)) (plan : TablePlan)
    (hsequence : ∀ q ∈ plan.sequences, ∀ s, R s (create.addImplicitSequence s q)) :
    Keeps R (create.execute text plan) :=
  Keeps.bind (Keeps.modify hR.openTable) fun _ => Keeps.bind Keeps.get fun _ =>
    Keeps.bind (Keeps.modify hnote) fun _ => Keeps.bind (keeps_taintIf _ _ _) fun _ =>
      Keeps.bind (Keeps.foldlM _ _ keeps_declareColumn) fun _ =>
        Keeps.bind (Keeps.modify fun s => hR.putRelation s _) fun _ =>
          Keeps.bind (Keeps.modify fun s => keeps_addObjects_of hR.toKeepsDependentWrites plan hsequence _ _ s) fun _ =>
            Keeps.bind (keeps_attachToParent hR) fun _ => Keeps.pure _

omit hR in
/-- A relation that recording evidence and writes to the new table keep holds
between the states before and after `CREATE TABLE`, whatever its outcome. -/
theorem keeps_command (hR : KeepsTableWrites create.id.id (create.partitionOf.map (·.id)) R)
    (hnote : ∀ s, R s (create.noteIfTemporary s)) : Keeps R (create.command text) :=
  Keeps.bind (keeps_refuseFound _ _) fun _ => Keeps.bind (keeps_refuseIf _ _) fun _ =>
    Keeps.bind (keeps_ensureCreationTarget _) fun _ =>
      Keeps.bind keeps_checkNamespace fun _ => Keeps.bind keeps_checkOfType fun _ =>
        Keeps.bind keeps_plan fun plan => keeps_execute hR.toKeepsRelationWrites hnote plan
          fun q _ s => keeps_addImplicitSequence hR.toKeepsObjectWrites s q

end Execute

end CreateTable

end SafeMigrate
