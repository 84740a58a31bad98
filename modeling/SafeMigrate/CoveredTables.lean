import SafeMigrate.ColumnCommands
import SafeMigrate.CoveredWrites
import SafeMigrate.CreateTableWrites
import SafeMigrate.DefaultPartitions
import SafeMigrate.NotNullConstraints
import SafeMigrate.RelationFamily

/-! Statements on tables push the entries that restore what they change: the
creation of a table, changes of its columns, and its partitions. -/

namespace SafeMigrate

open Command AnalysisState

variable {cells : List Cell} {s : AnalysisState}

namespace CreateTable

variable {text : SqlText} {create : CreateTable}

/-- A table that is not temporary leaves the search path alone. -/
theorem logged_execute (hkind : create.persistence ≠ .temporary) (plan : TablePlan) :
    Keeps Logged (create.execute text plan) := by
  have hR : KeepsTableWrites create.id.id (create.partitionOf.map (·.id))
      (StaysCovered [.relation create.id.id]) :=
    keepsTableWrites_staysCovered (List.mem_singleton_self _)
  have hnote (s : AnalysisState) :
      StaysCovered [.relation create.id.id] s (create.noteIfTemporary s) := by
    rw [noteIfTemporary, if_neg hkind]
    exact Std.Refl.refl s
  have hopen (s : AnalysisState) : LoggedCovering [.relation create.id.id] s
      (s.snapshotRelation create.id.id).bumpGeneration :=
    (s.covering_snapshotRelation create.id.id).then (logged_bumpGeneration _)
  refine logged_opened hopen ?_
  refine Keeps.bind Keeps.get fun _ => Keeps.bind (Keeps.modify hnote) fun _ => ?_
  refine Keeps.bind (keeps_taintIf _ _ _) fun _ => ?_
  refine Keeps.bind (Keeps.foldlM _ _ keeps_declareColumn) fun _ => ?_
  refine Keeps.bind (Keeps.modify fun s => hR.putRelation s _) fun _ => ?_
  refine Keeps.bind (Keeps.modify fun s => keeps_addObjects hR.toKeepsObjectWrites _ _ _ s) fun _ => ?_
  exact Keeps.bind (keeps_attachToParent hR.toKeepsRelationWrites) fun _ => Keeps.pure _

theorem logged_command (hkind : create.persistence ≠ .temporary) :
    Keeps Logged (create.command text) :=
  Keeps.bind (keeps_refuseFound _ _) fun _ => Keeps.bind (keeps_refuseIf _ _) fun _ =>
    Keeps.bind (keeps_ensureCreationTarget _) fun _ =>
      Keeps.bind keeps_checkNamespace fun _ => Keeps.bind keeps_checkOfType fun _ =>
        Keeps.bind keeps_plan fun plan => logged_execute hkind plan

end CreateTable

namespace AnalysisState

variable (s : AnalysisState)

theorem logged_registerNotNullConstraint (table : ObjectId) (column : String) :
    Logged s (registerNotNullConstraint table s column) :=
  have hwrites : KeepsTriggerWrites table none Logged := keepsTriggerWrites_logged
  hwrites.registerNotNullConstraint s table column

theorem logged_dropNotNullConstraint (table : ObjectId) (column : String) :
    Logged s (s.dropNotNullConstraint table column) := by
  unfold dropNotNullConstraint
  split
  · exact Logged.refl s
  · exact (s.logged_removeConstraint _).trans (logged_retainGraphEdges _ _)

section Families

theorem logged_dropFamily (closure : CascadeResult) : Logged s (s.dropFamily closure) := by
  unfold dropFamily
  refine Logged.trans ?_ (logged_retainGraphEdges _ _)
  refine Logged.trans ?_ (logged_removeDroppedConstraints _ _ _)
  refine Logged.trans ?_ (Logged.foldl logged_tombstoneTrigger _ _)
  exact Logged.foldl logged_tombstoneRelation _ s

theorem logged_applyDropRelationFamily (present : List ObjectRef) (cascade : Bool)
    (kindName : String) : Logged s (s.applyDropRelationFamily present cascade kindName).2 := by
  unfold applyDropRelationFamily
  dsimp only
  generalize hincomplete : List.any _ _ = incomplete
  refine Logged.trans (s.logged_taintIncomplete incomplete) ?_
  split
  · exact Logged.refl _
  · split
    · exact (logged_taintIncomplete _ _).trans (logged_dropFamily _ _)
    · exact logged_dropFamily _ _

end Families

section Columns

theorem logged_dropOwnedSequence (sequence : ObjectId) : Logged s (s.dropOwnedSequence sequence) :=
  (s.logged_tombstoneSequence sequence).trans (logged_retainGraphEdges _ _)

theorem logged_removeColumnConstraints (constraints : List (ObjectId × String)) :
    Logged s (s.removeColumnConstraints constraints) := by
  unfold removeColumnConstraints
  refine Logged.ite (fun _ => Logged.refl s) fun _ => ?_
  exact (logged_removeDroppedConstraints _ _ _).trans (logged_retainGraphEdges _ _)

theorem logged_dropDependentViews (views : List ObjectId) : Logged s (s.dropDependentViews views) :=
  Logged.ite (fun _ => Logged.refl s) fun _ => s.logged_applyDropRelationFamily _ _ _

theorem logged_removeColumnDefinitions (table : ObjectId) (columns : List String) :
    Logged s (s.removeColumnDefinitions table columns) :=
  Logged.ite (fun _ => s.logged_retainGraphEdges _) fun _ => Logged.refl s

theorem logged_removeColumnIndexes (indexes : List ObjectId) :
    Logged s (s.removeColumnIndexes indexes) :=
  Logged.ite (fun _ => Logged.refl s) fun _ => s.logged_retainGraphEdges _

theorem logged_renameInCheck (text : SqlText) (table : ObjectId) (oldName newName : String)
    (check : String × String) : Logged s (renameInCheck text table oldName newName s check) := by
  have h : LoggedCovering [.constraint (table, check.1)] s (s.snapshotConstraint table check.1) :=
    logged_of_records (.constraint table check.1)
  unfold renameInCheck
  dsimp only
  split
  · exact (h.setConstraints (by simp) fun k hk => AList.lookup_insert_ne hk).logged
  · exact h.logged

theorem logged_renameSequenceOwner (newName : String) (sequence : ObjectId) :
    Logged s (renameSequenceOwner newName s sequence) := by
  have h : LoggedCovering [.sequence sequence] s (s.snapshotSequence sequence) :=
    logged_of_records (.sequence sequence)
  unfold renameSequenceOwner
  dsimp only
  split
  · exact (h.setSequences (by simp) fun k hk => AList.lookup_insert_ne hk).logged
  · exact h.logged

theorem logged_updatePublicationColumns (oldName newName : String) (update : String × List Nat) :
    Logged s (updatePublicationColumns oldName newName s update) := by
  have h : LoggedCovering [.publication update.1] s (s.snapshotPublication update.1) :=
    logged_of_records (.publication update.1)
  unfold updatePublicationColumns
  dsimp only
  split
  · split
    · exact (h.setPublications (by simp) fun k hk => AList.lookup_insert_ne hk).logged
    · exact h.logged
  · exact h.logged

/-- One snapshot of the graph covers the edges of all owned sequences. -/
theorem logged_renameRelationColumnMetadata (text : SqlText) (table : ObjectId)
    (oldName newName : String) :
    Logged s (renameRelationColumnMetadata text table oldName newName s) := by
  unfold renameRelationColumnMetadata
  dsimp only
  have hrelation : Logged s (s.updateRelation table fun relation =>
      relation.applyColumnAction text (.rename oldName newName)) := s.logged_updateRelation table _
  generalize s.updateRelation table _ = t at hrelation ⊢
  have hchecks := hrelation.trans (Logged.foldl (fun s check =>
    s.logged_renameInCheck text table oldName newName check) (t.checkSources table) t)
  generalize List.foldl (renameInCheck text table oldName newName) t _ = u at hchecks ⊢
  have hgraph := u.covering_snapshotGraphFull.setGraph (List.mem_singleton_self _)
    ((u.snapshotGraphFull.graph.renameColumnDependencies table oldName newName).renameIndexColumn
      table oldName newName)
  refine hchecks.trans (hgraph.close (keeps_foldl _ (fun sequence _ v => ?_) _))
  refine IsTrans.trans _ _ _ (v.logged_renameSequenceOwner newName sequence).staysCovered ?_
  exact fun _ hr => hr.setGraph (List.mem_singleton_self _) _

end Columns

end AnalysisState

namespace AlterColumn

variable {text : ColumnText} {alter : AlterColumn}

theorem logged_dropDependents (name : String) (scan : ColumnScan) (sequences : List ObjectId) :
    Logged s (alter.dropDependents name scan sequences s) := by
  unfold dropDependents
  refine Logged.trans ?_ (Logged.foldl logged_dropOwnedSequence _ _)
  refine Logged.trans ?_ (logged_dropNotNullConstraint _ _ _)
  refine Logged.trans ?_ (logged_removeColumnIndexes _ _)
  refine Logged.trans ?_ (logged_removeColumnDefinitions _ _ _)
  refine Logged.trans ?_ (logged_dropDependentViews _ _)
  exact s.logged_removeColumnConstraints _

theorem logged_renameEverywhere (oldName newName : String) (descendants sequences : List ObjectId) :
    Logged s (alter.renameEverywhere text oldName newName descendants sequences s) := by
  unfold renameEverywhere
  refine Logged.trans ?_ (Logged.foldl (fun s sequence =>
    (s.logged_renameSequenceOwner newName sequence).trans (logged_replaceGraph _ _)) _ _)
  refine Logged.trans ?_ (logged_replaceGraph _ _)
  refine Logged.trans ?_ (Logged.foldl (fun s update =>
    s.logged_updatePublicationColumns oldName newName update) _ _)
  refine Logged.trans ?_ (Logged.foldl (fun s descendant =>
    s.logged_renameRelationColumnMetadata _ descendant oldName newName) _ _)
  exact (s.logged_updateRelation _ _).trans (logged_renameRelationColumnMetadata _ _ _ _ _)

theorem covered_addImplicitSequence (column : AddedColumn) (sequence : ObjectId) :
    Keeps (StaysCovered cells) (alter.addImplicitSequence column sequence) := by
  refine Keeps.bind Keeps.get fun s => ?_
  dsimp only
  split
  · exact keeps_refuse _
  · refine Keeps.bind (Keeps.modify fun s => (s.logged_putSequence sequence _).staysCovered) fun _ => ?_
    exact Keeps.modify fun s => (s.logged_addGraphEdge _).staysCovered

theorem logged_addColumn (column : AddedColumn) : Keeps Logged (alter.addColumn text column) := by
  have hR : KeepsTableWrites alter.id.id none (StaysCovered [.relation alter.id.id]) :=
    keepsTableWrites_staysCovered (List.mem_singleton_self _)
  refine Keeps.bind Keeps.get fun s => Keeps.bind (keeps_refuseFound _ _) fun _ => ?_
  refine logged_opened (fun s => s.covering_snapshotRelation alter.id.id) ?_
  refine Keeps.bind (Keeps.modify fun s => hR.modifyRelation s _) fun _ => ?_
  refine Keeps.bind (Keeps.modify fun s => keeps_addColumnEdges hR.toKeepsDependentWrites s column)
    fun _ => ?_
  refine Keeps.ite (fun _ => Keeps.bind (Keeps.modify fun s => hR.registerNotNullConstraint s _ _)
    fun _ => ?_) fun _ => ?_
  all_goals
    split
    · exact covered_addImplicitSequence column _
    · exact Keeps.pure _

theorem logged_dropColumn (relation : RelationState) (name : String) (cascade : Bool) :
    Keeps Logged (alter.dropColumn text relation name cascade) := by
  refine Keeps.bind Keeps.get fun s => Keeps.bind (keeps_taintIf _ _ _) fun _ => ?_
  refine Keeps.bind (keeps_refuseIf _ _) fun _ => Keeps.bind (keeps_taintIf _ _ _) fun _ => ?_
  refine logged_opened (fun s => s.covering_snapshotRelation alter.id.id) ?_
  refine Keeps.bind (Keeps.modify fun s _ hr => hr.modifyRelation (List.mem_singleton_self _) _)
    fun _ => Keeps.modify fun s => (logged_dropDependents name _ _).staysCovered

theorem logged_setType (column ty : String) : Keeps Logged (alter.setType text column ty) := by
  refine logged_opened (fun s => s.covering_snapshotRelation alter.id.id) ?_
  exact Keeps.bind (keeps_checkDeclaredType _ _) fun _ =>
    Keeps.modify fun s _ hr => hr.modifyRelation (List.mem_singleton_self _) _

theorem logged_command : Keeps Logged (alter.command text) := by
  refine Keeps.bind Keeps.get fun s => Keeps.bind keeps_checkRecursion fun _ => ?_
  refine Keeps.bind keeps_checkTarget fun relation => ?_
  refine Keeps.bind (keeps_checkColumn relation) fun _ => Keeps.bind ?_ fun _ => Keeps.pure _
  unfold execute
  split
  · exact logged_addColumn _
  · exact logged_dropColumn relation _ _
  · exact Keeps.bind Keeps.get fun _ => Keeps.modify fun s => logged_renameEverywhere _ _ _ _
  · exact logged_setType _ _

end AlterColumn

theorem AlterNotNull.logged_command {text : SqlText} {alter : AlterNotNull} :
    Keeps Logged (alter.command text) := by
  refine Keeps.bind keeps_checkTarget fun relation => ?_
  refine Keeps.bind (keeps_checkColumn relation) fun _ => ?_
  refine Keeps.bind (Keeps.modify fun s => ?_) fun _ => Keeps.pure _
  refine Logged.trans ?_ (Logged.ite (fun _ => logged_registerNotNullConstraint _ _ _)
    fun _ => logged_dropNotNullConstraint _ _ _)
  exact s.logged_updateRelation alter.id.id _

namespace AnalysisState

variable (s : AnalysisState) {text : PartitionText}

theorem logged_invalidateDescendantPartitionPredicates (root : ObjectId) :
    Logged s (s.invalidateDescendantPartitionPredicates root) :=
  Logged.foldl (fun s id => s.logged_updateRelation id _) _ s

theorem logged_detachIndexPartitionsOfTable (table : ObjectId) :
    Logged s (s.detachIndexPartitionsOfTable table) :=
  Logged.ite (fun _ => Logged.refl s) fun _ => s.logged_retainGraphEdges _

theorem logged_retainCheck (parent child : ObjectId) : Logged s (s.retainCheck text parent child) := by
  unfold retainCheck
  split
  · exact Logged.refl s
  · exact s.logged_taint _ _
  · unfold registerRetainedPartitionCheck
    split
    · exact s.logged_taint _ _
    · exact (s.logged_putConstraint _).trans (logged_addGraphEdge _ _)

/-- The clones go under one snapshot of the table and one of the graph. -/
theorem logged_removePartitionTriggerClones (parent child : ObjectId) :
    Logged s (s.removePartitionTriggerClones parent child) := by
  refine Logged.ite (fun _ => Logged.refl s) fun _ => ?_
  have hopen := (s.covering_snapshotRelation child).trans
    (covering_snapshotGraphFull (s.snapshotRelation child))
  refine hopen.close (keeps_foldl _ (fun clone _ t => ?_) _)
  refine IsTrans.trans _ _ _ (t.logged_tombstoneTrigger clone.1).staysCovered fun r hr => ?_
  exact (hr.modifyRelation (by simp) _).setGraph (by simp) _

theorem logged_detachPartition (parent child : ObjectId) (mode : DetachPartitionMode) :
    Logged s (s.detachPartition text parent child mode) := by
  unfold detachPartition
  dsimp only
  refine Logged.trans ?_ (logged_removePartitionTriggerClones _ parent child)
  refine Logged.trans ?_ (logged_updateRelation _ child _)
  refine Logged.trans ?_ (logged_invalidateDescendantPartitionPredicates _ child)
  refine Logged.trans ?_ (Logged.ite (fun _ => logged_retainCheck _ parent child) fun _ => Logged.refl _)
  exact s.logged_retainGraphEdges _

/-- No table but `child` is a default partition of `parent`. -/
def OnlyDefault (parent child : ObjectId) : Prop := ∀ d ∈ s.defaultPartitions parent, d = child

/-- Attaching refreshes the default partitions of the parent without entries of
their own, so there may be none beside the partition itself. -/
theorem logged_attachPartition (text : PartitionText) {parent child : ObjectId}
    (hdefaults : s.OnlyDefault parent child) (bound : Option String) :
    Logged s (s.attachPartition text parent child bound) := by
  let linked := s.addGraphEdge ⟨child, parent, .partitionOf⟩
  let forgotten := linked.invalidateDescendantPartitionPredicates child
  let canonical := bound.map text.canonicalPartitionBound
  let constraint := forgotten.attachedPartitionConstraint text parent child canonical
  let bounded := forgotten.updateRelation child (setPartitionBound canonical constraint ⟨1, false⟩)
  have hlinks : KeepsObjectWrites child (some parent) (LinksGrow child (some parent)) :=
    keepsObjectWrites_linksGrow
  have hlinked : LinksGrow child (some parent) s linked :=
    hlinks.addGraphEdge s ⟨rfl, fun _ => ⟨rfl, rfl⟩⟩
  have hforgotten : ForgetsPredicates linked forgotten := forgetsPredicates_invalidate linked child
  obtain ⟨hlinks, hshape, -⟩ :=
    setPartitionBound_partitions forgotten child canonical constraint ⟨1, false⟩
  obtain ⟨extra, hextra, hnew⟩ := hlinked.links
  have hchild (d : ObjectId) (hd : d ∈ bounded.defaultPartitions parent) : d = child := by
    by_contra hne
    obtain ⟨hlink, hdefault⟩ := mem_defaultPartitions.mp hd
    rw [hlinks, hforgotten.links, hextra] at hlink
    rw [hshape, Function.update_of_ne hne, hforgotten.shape, hlinked.shape] at hdefault
    rcases List.mem_append.mp hlink with hold | hadded
    · exact hne (hdefaults d (mem_defaultPartitions.mpr ⟨hold, hdefault⟩))
    · exact hne (hnew _ hadded).1
  have hstart : Logged s forgotten :=
    (s.logged_addGraphEdge _).trans (logged_invalidateDescendantPartitionPredicates _ child)
  have hbounded : LoggedCovering [.relation child] forgotten bounded :=
    (forgotten.covering_snapshotRelation child).modifyRelation (List.mem_singleton_self _) _
  have hrefresh : StaysCovered [.relation child] bounded
      (bounded.refreshDefaultPartitionConstraints text parent) := by
    refine keeps_foldl _ (fun d hd t => ?_) bounded
    obtain rfl := hchild d hd
    exact fun r hr => hr.modifyRelation (List.mem_singleton_self _) _
  have hwrites : KeepsTriggerWrites child none Logged := keepsTriggerWrites_logged
  exact (hstart.trans (hbounded.close hrefresh)).trans
    (hwrites.ensurePartitionIndexesAndConstraints _ parent child)

end AnalysisState

/-- Evidence is recorded, and the families of partitions stay as they are. -/
def LoggedBeside (s t : AnalysisState) : Prop := Logged s t ∧ SamePartitions s t

instance : KeepsEvidence LoggedBeside where
  refl s := ⟨Logged.refl s, rfl⟩
  trans _ _ _ h h' := ⟨h.1.trans h'.1, Eq.trans h'.2 h.2⟩
  taint s code scope := ⟨s.logged_taint code scope, KeepsEvidence.taint s code scope⟩

namespace AnalysisState.OnlyDefault

variable {parent child : ObjectId} {t : AnalysisState}

theorem congr (h : s.OnlyDefault parent child) (hsame : SamePartitions s t) :
    t.OnlyDefault parent child :=
  fun d hd => h d (mem_defaultPartitions.mpr (hsame ▸ mem_defaultPartitions.mp hd))

theorem bind {α β : Type} {c : Statement α} {k : α → Statement β} (hc : Keeps LoggedBeside c)
    (hk : ∀ a, Keeps (fun s t => s.OnlyDefault parent child → Logged s t) (k a)) :
    Keeps (fun s t => s.OnlyDefault parent child → Logged s t) (c >>= k) := by
  intro s hs
  have h : LoggedBeside s (c.run.run s).2 := hc s
  rw [after_bind]
  rcases hrun : c.run.run s with ⟨e | a, t⟩
  · rw [hrun] at h
    exact h.1
  · rw [hrun] at h
    exact h.1.trans (hk a t (hs.congr h.2))

end AnalysisState.OnlyDefault

namespace AlterPartition

variable {text : PartitionText} {alter : AlterPartition}

theorem logged_attach (child : ObjectRef) (bound : Option String) :
    Keeps (fun s t => s.OnlyDefault alter.id.id child.id → Logged s t)
      (alter.attach text child bound) := by
  have hwrites : KeepsTriggerWrites child.id (some alter.id.id) Logged := keepsTriggerWrites_logged
  refine OnlyDefault.bind (Keeps.modify fun s =>
    ⟨(s.covering_snapshotRelation alter.id.id).logged, samePartitions_pushUndo s _⟩) fun _ => ?_
  refine OnlyDefault.bind Keeps.get fun _ => OnlyDefault.bind (keeps_refuseIf _ _) fun _ => ?_
  intro s hdefaults
  rw [after_modify_bind]
  have hattached := s.logged_attachPartition text hdefaults bound
  exact hattached.trans (Keeps.bind (hwrites.cloneRowTriggersToPartition alter.id.id rfl)
    (fun _ => Keeps.pure _) _)

theorem logged_detach (child : ObjectRef) (mode : DetachPartitionMode) :
    Keeps Logged (alter.detach text child mode) := by
  refine Keeps.bind (Keeps.modify fun s => s.logged_detachIndexPartitionsOfTable child.id) fun _ => ?_
  refine Keeps.bind (Keeps.modify fun s => (s.covering_snapshotRelation alter.id.id).logged) fun _ => ?_
  exact Keeps.bind (Keeps.modify fun s => s.logged_detachPartition _ _ _) fun _ => Keeps.pure _

/-- Nothing but the attached partition is a default partition of its parent. -/
def RefreshesOnlyItself (alter : AlterPartition) (s : AnalysisState) : Prop :=
  match alter.action with
  | .attachPartition child .. => s.OnlyDefault alter.id.id child.id
  | .detachPartition .. => True

theorem logged_command :
    Keeps (fun s t => alter.RefreshesOnlyItself s → Logged s t) (alter.command text) := by
  unfold RefreshesOnlyItself command
  cases alter.action with
  | attachPartition child strategy bound =>
    refine OnlyDefault.bind Keeps.get fun _ => OnlyDefault.bind (keeps_refuseIf _ _) fun _ => ?_
    refine OnlyDefault.bind keeps_checkTarget fun _ => ?_
    exact OnlyDefault.bind (keeps_checkAttach child strategy) fun _ => logged_attach child bound
  | detachPartition child mode =>
    refine Keeps.mono (R := Logged) ?_ fun _ _ h _ => h
    refine Keeps.bind Keeps.get fun _ => Keeps.bind (keeps_refuseIf _ _) fun _ => ?_
    refine Keeps.bind keeps_checkTarget fun _ => ?_
    exact Keeps.bind (keeps_checkDetach child mode) fun _ => logged_detach child mode

end AlterPartition

end SafeMigrate
