import SafeMigrate.MirroredColumns

/-! The actions on columns against the order of partitioned tables: checks
leave it alone, removals shrink it, and a rename keeps it where it reaches both
ends of a partition edge. -/

namespace SafeMigrate

open Command AnalysisState MirroredLinks

namespace AnalysisState

/-- What a run keeps of partitioned tables and their columns. -/
structure ColumnsInOrder (text : PartitionText) (s : AnalysisState) : Prop where
  aliases : s.NoAliases
  placed : Placed s.columnNet
  distinct : ∀ k table, s.columnNet.objects k = some table → table.Distinct
  mirrored : Mirrored (TableColumns.Mirrors text) s.columnNet

/-- The columns are in order as long as nothing was tainted. -/
def Settled (text : PartitionText) (s : AnalysisState) : Prop :=
  s.confidence = .tainted ∨ s.evidence.records = [] ∧ s.ColumnsInOrder text

variable {text : PartitionText} {s t u : AnalysisState}

theorem Settled.of_keeps (h : s.Settled text) (hcertain : KeepsCertainty s t)
    (horder : s.ColumnsInOrder text → t.ColumnsInOrder text) : t.Settled text := by
  rcases hcertain with htainted | ⟨hevidence, hconfidence⟩
  · exact Or.inl htainted
  · rcases h with htainted | ⟨hrecords, hs⟩
    · exact Or.inl (hconfidence.trans htainted)
    · exact Or.inr ⟨by rw [hevidence, hrecords], horder hs⟩

/-- Objects may go, with the links that touch them. -/
structure Loses (s t : AnalysisState) : Prop where
  net : s.NoAliases → Shrinks s.columnNet t.columnNet
  aliases : s.NoAliases → t.NoAliases
  certainty : KeepsCertainty s t

theorem Records.links {id : ObjectId} (h : Records id none s t) :
    t.columnNet.links ⊆ s.columnNet.links := by
  intro link hlink
  obtain ⟨e, he, hkind, rfl⟩ := mem_columnLinks.mp hlink
  rcases h.edges e he with hold | hnew
  · exact mem_columnLinks.mpr ⟨e, hold, hkind, rfl⟩
  · cases (hnew.2 hkind).2

theorem Records.loses {id : ObjectId} (h : Records id none s t) : Loses s t where
  net _ := .of_objects h.objects h.links
  aliases hs e he := by
    rcases h.edges e he with hold | hnew
    · exact hs e hold
    · exact hnew.1
  certainty := h.certainty

instance : KeepsEvidence Loses where
  refl _ := ⟨fun _ => .refl _, fun h => h, Or.inr ⟨rfl, rfl⟩⟩
  trans _ _ _ h h' := ⟨fun hs => (h.net hs).trans (h'.net (h.aliases hs)),
    fun hs => h'.aliases (h.aliases hs), h.certainty.trans h'.certainty⟩
  taint s code scope :=
    (KeepsEvidence.taint (R := Records ⟨"", ""⟩ none) s code scope).loses

theorem ColumnsInOrder.loses (hs : s.ColumnsInOrder text) (h : Loses s t) :
    t.ColumnsInOrder text where
  aliases := h.aliases hs.aliases
  placed := (h.net hs.aliases).placed hs.placed
  distinct k table hk := hs.distinct k table ((h.net hs.aliases).objects k table hk)
  mirrored := hs.mirrored.shrink (h.net hs.aliases)

theorem Settled.loses (hs : s.Settled text) (h : Loses s t) : t.Settled text :=
  hs.of_keeps h.certainty fun horder => horder.loses h

section Removals

/-- No partition edge is new at all. -/
abbrev Quiet (s t : AnalysisState) : Prop := Records ⟨"", ""⟩ none s t

/-- A step that neither moves a column nor links a partition, and what follows it. -/
theorem Settled.bind {α β : Type} {c : Statement α} {k : α → Statement β} (hs : s.Settled text)
    (hc : Keeps Quiet c) (hk : ∀ a t, c.run.run s = (.ok a, t) → Quiet s t → t.Settled text →
      ((k a).after t).Settled text) : ((c >>= k).after s).Settled text := by
  have hquiet : Quiet s (c.run.run s).2 := hc s
  rw [after_bind]
  rcases hrun : c.run.run s with ⟨e | a, t⟩
  · rw [hrun] at hquiet
    exact hs.loses hquiet.loses
  · rw [hrun] at hquiet
    exact hk a t hrun hquiet (hs.loses hquiet.loses)

theorem Settled.keeps {α : Type} {c : Statement α} (hs : s.Settled text) (hc : Keeps Loses c) :
    (c.after s).Settled text :=
  hs.loses (hc s)

theorem quiet_write (s : AnalysisState) (change : StateChange) (hr : t.relations = s.relations)
    (hg : t.graph = s.graph) (hevidence : t.evidence = (s.pushUndo change).evidence)
    (hconfidence : t.confidence = (s.pushUndo change).confidence) : Quiet s t :=
  .write s change hr hg hevidence hconfidence

theorem quiet_retainGraphEdges (s : AnalysisState) (keep : DependencyEdge → Bool) :
    Quiet s (s.retainGraphEdges keep) :=
  IsTrans.trans _ _ _ (Records.pushUndo s _) (.retainEdges _ keep)

theorem quiet_removeConstraint (s : AnalysisState) (key : ObjectId × String) :
    Quiet s (s.removeConstraint key) :=
  quiet_write s _ (s.pushUndo_relations _) (s.pushUndo_graph _) rfl rfl

theorem quiet_tombstoneSequence (s : AnalysisState) (id : ObjectId) :
    Quiet s (s.tombstoneSequence id) :=
  quiet_write s _ (s.pushUndo_relations _) (s.pushUndo_graph _) rfl rfl

theorem quiet_tombstoneTrigger (s : AnalysisState) (id : ObjectId) :
    Quiet s (s.tombstoneTrigger id) :=
  quiet_write s _ (s.pushUndo_relations _) (s.pushUndo_graph _) rfl rfl

theorem quiet_removeDroppedConstraints (s : AnalysisState) (droppedRelations : List ObjectId)
    (droppedConstraints : List (ObjectId × String)) :
    Quiet s (s.removeDroppedConstraints droppedRelations droppedConstraints) := by
  unfold removeDroppedConstraints
  refine IsTrans.trans _ _ _ (keeps_foldl _ (fun key _ s => ?_) s)
    (IsTrans.trans _ _ _ (keeps_ite (fun _ => ?_) fun _ => Std.Refl.refl _)
      (keeps_ite (fun _ => ?_) fun _ => Std.Refl.refl _))
  · exact quiet_removeConstraint s key
  · exact quiet_write _ _ (pushUndo_relations _ _) (pushUndo_graph _ _) rfl rfl
  · exact quiet_write _ _ (pushUndo_relations _ _) (pushUndo_graph _ _) rfl rfl

theorem resolveRename_of_noAliases (h : s.NoAliases) (id : ObjectId) :
    s.graph.resolveRename id = id :=
  DependencyGraph.resolveRename_of_none (DependencyGraph.renameBySource_eq_none.mpr
    fun e he halias => by simp [h e he] at halias)

theorem keepsCertainty_tombstones (dropped : List ObjectId) (s : AnalysisState) :
    KeepsCertainty s (dropped.foldl tombstoneRelation s) := by
  induction dropped generalizing s with
  | nil => exact Or.inr ⟨rfl, rfl⟩
  | cons id dropped ih =>
    have hfirst : KeepsCertainty s (s.tombstoneRelation id) := keepsCertainty_pushUndo s _
    exact hfirst.trans (ih _)

theorem mem_removeDroppedRelationEdges (hs : s.NoAliases) {droppedRelations droppedIndexes : List ObjectId}
    {e : DependencyEdge}
    (he : e ∈ (s.removeDroppedRelationEdges droppedRelations droppedIndexes).graph.edges) :
    e ∈ s.graph.edges ∧ e.dependent ∉ droppedRelations ∧ e.referenced ∉ droppedRelations := by
  obtain ⟨hmem, hkeep⟩ := DependencyGraph.mem_retainEdges.mp he
  have hgraph : s.snapshotGraphFull.graph = s.graph := s.pushUndo_graph _
  rw [hgraph] at hmem
  rw [resolveRename_of_noAliases hs, resolveRename_of_noAliases hs] at hkeep
  refine ⟨hmem, fun hdependent => ?_, fun hreferenced => ?_⟩
  · simp [hdependent] at hkeep
  · simp [hreferenced] at hkeep

/-- Relations go with the edges that touch them, where no alias misleads these. -/
theorem loses_removeRelations {gone : AnalysisState} {dropped closure indexes : List ObjectId}
    (hgraph : gone.graph = s.graph) (hcertain : KeepsCertainty s gone)
    (hgone : ∀ k, gone.columnNet.objects k = if k ∈ dropped then none else s.columnNet.objects k)
    (hdropped : dropped ⊆ closure) (hquiet : Quiet gone t) :
    Loses s (t.removeDroppedRelationEdges closure indexes) := by
  have hremoved : Quiet t (t.removeDroppedRelationEdges closure indexes) :=
    quiet_retainGraphEdges t _
  have hobjects (k : ObjectId) : (t.removeDroppedRelationEdges closure indexes).columnNet.objects k =
      if k ∈ dropped then none else s.columnNet.objects k := by
    rw [hremoved.objects, hquiet.objects, hgone]
  have haliases : s.NoAliases → t.NoAliases := fun hs =>
    hquiet.loses.aliases fun e he => hs e (hgraph ▸ he)
  -- an edge that is left was there, and touches no dropped relation
  have hedges (hs : s.NoAliases) {e : DependencyEdge}
      (he : e ∈ (t.removeDroppedRelationEdges closure indexes).graph.edges)
      (hkind : e.kind.isPartitionOf = true) :
      e ∈ s.graph.edges ∧ e.dependent ∉ dropped ∧ e.referenced ∉ dropped := by
    obtain ⟨hmem, hdependent, hreferenced⟩ := mem_removeDroppedRelationEdges (haliases hs) he
    refine ⟨?_, fun h => hdependent (hdropped h), fun h => hreferenced (hdropped h)⟩
    rcases hquiet.edges e hmem with hold | hnew
    · rwa [hgraph] at hold
    · cases (hnew.2 hkind).2
  refine ⟨fun hs => ⟨fun k table hk => ?_, fun link hlink => ?_, fun hplaced link hlink => ?_⟩,
    fun hs => hremoved.loses.aliases (haliases hs),
    (hcertain.trans hquiet.certainty).trans hremoved.certainty⟩
  · rw [hobjects] at hk
    by_cases hd : k ∈ dropped
    · rw [if_pos hd] at hk
      cases hk
    · rwa [if_neg hd] at hk
  · obtain ⟨e, he, hkind, rfl⟩ := mem_columnLinks.mp hlink
    exact mem_columnLinks.mpr ⟨e, (hedges hs he hkind).1, hkind, rfl⟩
  · obtain ⟨e, he, hkind, rfl⟩ := mem_columnLinks.mp hlink
    obtain ⟨hold, hdependent, hreferenced⟩ := hedges hs he hkind
    rw [hobjects, hobjects, if_neg hdependent, if_neg hreferenced]
    exact hplaced _ (mem_columnLinks.mpr ⟨e, hold, hkind, rfl⟩)

theorem loses_dropFamily (s : AnalysisState) (closure : CascadeResult) :
    Loses s (s.dropFamily closure) := by
  unfold dropFamily
  dsimp only
  generalize hd : closure.droppedRelations.filter s.relationIsPresent = dropped
  obtain ⟨hgraph, hlookup⟩ := foldl_tombstoneRelation s dropped
  have hcertain := keepsCertainty_tombstones dropped s
  generalize dropped.foldl tombstoneRelation s = gone at hgraph hlookup hcertain ⊢
  refine loses_removeRelations hgraph hcertain (fun k => ?_) (hd ▸ List.filter_subset_self _)
    (IsTrans.trans _ _ _ (keeps_foldl _ (fun id _ s => quiet_tombstoneTrigger s id) gone)
      (quiet_removeDroppedConstraints _ _ _))
  by_cases hk : k ∈ dropped
  · simp [columnNet, presentRelation, hlookup, hk]
  · have hsame : gone.presentRelation k = s.presentRelation k :=
      presentRelation_congr (by rw [hlookup, if_neg hk])
    simp [columnNet, hsame, hk]

theorem loses_taintIncomplete (s : AnalysisState) (incomplete : Bool) :
    Loses s (s.taintIncomplete incomplete) :=
  keeps_ite (fun _ => KeepsEvidence.taint s _ _) fun _ => Std.Refl.refl _

theorem loses_dropDependentViews (s : AnalysisState) (views : List ObjectId) :
    Loses s (s.dropDependentViews views) := by
  unfold dropDependentViews
  refine keeps_ite (fun _ => Std.Refl.refl _) fun _ => ?_
  exact IsTrans.trans _ _ _ (loses_taintIncomplete s _)
    (IsTrans.trans _ _ _ (loses_taintIncomplete _ _) (loses_dropFamily _ _))

theorem loses_dropNotNullConstraint (s : AnalysisState) (table : ObjectId) (column : String) :
    Loses s (s.dropNotNullConstraint table column) := by
  unfold dropNotNullConstraint
  split
  · exact Std.Refl.refl s
  · exact IsTrans.trans _ _ _ (quiet_removeConstraint s _).loses (quiet_retainGraphEdges _ _).loses

/-- Everything that goes with a dropped column. -/
theorem loses_dropDependents (alter : AlterColumn) (name : String) (scan : ColumnScan)
    (sequences : List ObjectId) (s : AnalysisState) :
    Loses s (alter.dropDependents name scan sequences s) := by
  have hconstraints : Loses s (s.removeColumnConstraints scan.constraints) :=
    keeps_ite (fun _ => Std.Refl.refl _) fun _ =>
      IsTrans.trans _ _ _ (quiet_removeDroppedConstraints s _ _).loses
        (quiet_retainGraphEdges _ _).loses
  unfold AlterColumn.dropDependents
  dsimp only
  refine IsTrans.trans _ _ _ ?_ (keeps_foldl _ (fun sequence _ s =>
    IsTrans.trans _ _ _ (quiet_tombstoneSequence s sequence).loses
      (quiet_retainGraphEdges _ _).loses) _)
  refine IsTrans.trans _ _ _ ?_ (loses_dropNotNullConstraint _ _ _)
  refine IsTrans.trans _ _ _ ?_ (keeps_ite (fun _ => Std.Refl.refl _) fun _ =>
    (quiet_retainGraphEdges _ _).loses)
  refine IsTrans.trans _ _ _ ?_ (keeps_ite (fun _ => (quiet_retainGraphEdges _ _).loses)
    fun _ => Std.Refl.refl _)
  exact IsTrans.trans _ _ _ hconstraints (loses_dropDependentViews _ _)

end Removals

section Rename

variable {oldName newName : String}

/-- The relations within `reach` have the column renamed. -/
structure Renames (oldName newName : String) (reach : ObjectId → Prop) (s t : AnalysisState) :
    Prop where
  maps : Maps reach (TableColumns.rename oldName newName) s.columnNet t.columnNet
  aliases : s.NoAliases → t.NoAliases
  certainty : KeepsCertainty s t

theorem Renames.of_quiet (h : Quiet s t) : Renames oldName newName (fun _ => False) s t :=
  ⟨.of_same h.objects h.links, h.loses.aliases, h.certainty⟩

theorem Renames.trans {reach reach' : ObjectId → Prop} (h : Renames oldName newName reach s t)
    (h' : Renames oldName newName reach' t u) :
    Renames oldName newName (fun k => reach k ∨ reach' k) s u :=
  ⟨h.maps.trans h'.maps (TableColumns.rename_idem oldName newName),
    fun hs => h'.aliases (h.aliases hs), h.certainty.trans h'.certainty⟩

theorem Renames.then_quiet {reach : ObjectId → Prop} (h : Renames oldName newName reach s t)
    (h' : Quiet t u) : Renames oldName newName reach s u := by
  have htrans := h.trans (Renames.of_quiet h')
  exact ⟨htrans.maps.congr fun _ => Iff.of_eq (or_false _), htrans.aliases, htrans.certainty⟩

/-- A rename that reaches both ends of every partition edge, or neither. -/
theorem ColumnsInOrder.renames {reach : ObjectId → Prop} (hs : s.ColumnsInOrder text)
    (h : Renames oldName newName reach s t) (hclosed : Closed reach s.columnNet) :
    t.ColumnsInOrder text where
  aliases := h.aliases hs.aliases
  placed := h.maps.placed hs.placed
  distinct k table hk := by
    by_cases hreach : reach k
    · rw [h.maps.inside k hreach] at hk
      obtain ⟨before, hbefore, rfl⟩ := Option.map_eq_some_iff.mp hk
      intro hcomplete
      exact (hs.distinct k before hbefore hcomplete).rename oldName newName
    · rw [h.maps.outside k hreach] at hk
      exact hs.distinct k table hk
  mirrored := hs.mirrored.map hs.distinct (fun _ _ => TableColumns.Mirrors.rename) hclosed h.maps

theorem tableColumns_rename (text : SqlText) (relation : RelationState) :
    (relation.applyColumnAction text (.rename oldName newName)).tableColumns =
      relation.tableColumns.rename oldName newName := by
  show (relation.renameColumn text oldName newName).tableColumns = _
  unfold RelationState.renameColumn
  dsimp only
  by_cases hkept : (!relation.hasColumn oldName || relation.hasColumn newName) = true
  · rw [if_pos hkept]
    exact congrArg (TableColumns.mk · relation.columnsComplete) (if_pos hkept).symm
  · rw [if_neg hkept]
    exact congrArg (TableColumns.mk · relation.columnsComplete) (if_neg hkept).symm

theorem renames_updateRelation (text : SqlText) (s : AnalysisState) (table : ObjectId) :
    Renames oldName newName (· = table) s (s.updateRelation table fun relation =>
      relation.applyColumnAction text (.rename oldName newName)) := by
  have hsnapshot : Quiet s (s.snapshotRelation table) := .pushUndo s _
  have hobjects (k : ObjectId) : (s.updateRelation table fun relation =>
      relation.applyColumnAction text (.rename oldName newName)).columnNet.objects k =
        if k = table then (s.columnNet.objects k).map (TableColumns.rename oldName newName)
        else s.columnNet.objects k := by
    rw [← hsnapshot.objects]
    show ((AnalysisState.modifyRelation _ table _).presentRelation k).map _ = _
    rw [presentRelation_modifyRelation]
    by_cases hk : k = table
    · rw [if_pos hk, if_pos hk, hk]
      simp only [columnNet, Option.map_map]
      exact congrArg (Option.map · _) (funext fun r => tableColumns_rename text r)
    · rw [if_neg hk, if_neg hk]
      rfl
  have hgraph : (s.updateRelation table fun relation =>
      relation.applyColumnAction text (.rename oldName newName)).graph = s.graph := by
    rw [updateRelation, modifyRelation_graph]
    exact s.pushUndo_graph _
  refine ⟨⟨fun k hk => ?_, fun k hk => ?_, fun link hlink => ?_⟩, fun hs e he => ?_, ?_⟩
  · rw [hobjects, if_pos hk]
  · rw [hobjects, if_neg hk]
  · rwa [columnNet, hgraph] at hlink
  · exact hs e (hgraph ▸ he)
  · refine hsnapshot.certainty.trans ?_
    unfold updateRelation modifyRelation
    split
    · exact Or.inr ⟨rfl, rfl⟩
    · exact Or.inr ⟨rfl, rfl⟩

theorem quiet_renameInCheck (text : SqlText) (table : ObjectId) (s : AnalysisState)
    (check : String × String) : Quiet s (renameInCheck text table oldName newName s check) := by
  unfold renameInCheck
  dsimp only
  split
  · exact quiet_write s _ (s.pushUndo_relations _) (s.pushUndo_graph _) rfl rfl
  · exact .pushUndo s _

theorem quiet_renameSequenceOwner (s : AnalysisState) (sequence : ObjectId) :
    Quiet s (s.renameSequenceOwner newName sequence) := by
  unfold renameSequenceOwner
  dsimp only
  split
  · exact quiet_write s _ (s.pushUndo_relations _) (s.pushUndo_graph _) rfl rfl
  · exact .pushUndo s _

theorem quiet_renameColumnDependencies (s : AnalysisState) (table : ObjectId) :
    Quiet s (s.setGraph (s.graph.renameColumnDependencies table oldName newName)) := by
  refine .mapEdges s fun e => ?_
  cases hkind : e.kind with
  | renameTo | partitionOf =>
    refine Or.inl ?_
    rw [DependencyGraph.renamedDependency, hkind]
    dsimp only
    rw [← hkind]
  | _ => exact Or.inr (by simp [DependencyGraph.renamedDependency, hkind, DependencyKind.isRenameTo,
      DependencyKind.isPartitionOf])

theorem renamedIndex_plain (kind : DependencyKind) :
    DependencyGraph.renamedIndex oldName newName kind = kind ∨
      (DependencyGraph.renamedIndex oldName newName kind).isRenameTo = false ∧
        (DependencyGraph.renamedIndex oldName newName kind).isPartitionOf = false := by
  cases kind with
  | indexOnRelation => exact Or.inr ⟨rfl, rfl⟩
  | _ => exact Or.inl rfl

theorem quiet_renameIndexColumn (s : AnalysisState) (table : ObjectId) :
    Quiet s (s.setGraph (s.graph.renameIndexColumn table oldName newName)) := by
  refine .mapEdges s fun e => ?_
  by_cases htable : e.referenced = table
  · rw [if_pos htable]
    rcases renamedIndex_plain e.kind with hsame | hplain
    · exact Or.inl (by rw [hsame])
    · exact Or.inr hplain
  · exact Or.inl (if_neg htable)

theorem quiet_renameOwnedSequenceColumn (s : AnalysisState) (sequence : ObjectId) :
    Quiet s (s.setGraph (s.graph.renameOwnedSequenceColumn sequence oldName newName)) := by
  refine .mapEdges s fun e => ?_
  cases hkind : e.kind with
  | sequenceOwnedBy column =>
    by_cases hsequence : e.dependent = sequence
    · exact Or.inr (by simp [hsequence, DependencyKind.isRenameTo, DependencyKind.isPartitionOf])
    · exact Or.inl (by simp [hsequence])
  | _ => exact Or.inl rfl

theorem renames_metadata (text : SqlText) (s : AnalysisState) (table : ObjectId) :
    Renames oldName newName (· = table) s
      (s.renameRelationColumnMetadata text table oldName newName) := by
  unfold renameRelationColumnMetadata
  dsimp only
  refine (renames_updateRelation text s table).then_quiet ?_
  generalize s.updateRelation table _ = renamed
  have hchecks : Quiet renamed ((renamed.checkSources table).foldl
      (renameInCheck text table oldName newName) renamed) :=
    keeps_foldl _ (fun check _ s => quiet_renameInCheck text table s check) renamed
  refine IsTrans.trans _ _ _ hchecks ?_
  generalize List.foldl _ renamed _ = checked
  have hsnapshot : Quiet checked checked.snapshotGraphFull := .pushUndo checked _
  have hedges : Quiet checked.snapshotGraphFull (checked.snapshotGraphFull.setGraph
      ((checked.snapshotGraphFull.graph.renameColumnDependencies table oldName newName).renameIndexColumn
        table oldName newName)) :=
    IsTrans.trans _ _ _ (quiet_renameColumnDependencies _ table) (quiet_renameIndexColumn _ table)
  refine IsTrans.trans _ _ _ hsnapshot (IsTrans.trans _ _ _ hedges ?_)
  generalize checked.snapshotGraphFull.setGraph _ = linked
  have hsequence (s : AnalysisState) (sequence : ObjectId) :
      Quiet s (renameOwnedSequence oldName newName s sequence) :=
    IsTrans.trans _ _ _ (quiet_renameSequenceOwner s sequence)
      (quiet_renameOwnedSequenceColumn _ sequence)
  exact keeps_foldl _ (fun sequence _ s => hsequence s sequence) linked

theorem quiet_updatePublicationColumns (s : AnalysisState) (update : String × List Nat) :
    Quiet s (updatePublicationColumns oldName newName s update) := by
  unfold updatePublicationColumns
  dsimp only
  split
  · split
    · exact quiet_write s _ (s.pushUndo_relations _) (s.pushUndo_graph _) rfl rfl
    · exact .pushUndo s _
  · exact .pushUndo s _

theorem renames_descendants (text : SqlText) (descendants : List ObjectId) (s : AnalysisState) :
    Renames oldName newName (· ∈ descendants) s (descendants.foldl (fun s descendant =>
      s.renameRelationColumnMetadata text descendant oldName newName) s) := by
  induction descendants generalizing s with
  | nil =>
    have hrefl : Renames oldName newName (fun _ => False) s s := .of_quiet (Std.Refl.refl s)
    exact ⟨hrefl.maps.congr fun _ => by simp, hrefl.aliases, hrefl.certainty⟩
  | cons descendant descendants ih =>
    have hall := (renames_metadata text s descendant).trans (ih _)
    exact ⟨hall.maps.congr fun _ => List.mem_cons.symm, hall.aliases, hall.certainty⟩

/-- A rename changes its target and the relations below it, and no other. -/
theorem renames_everywhere (text : ColumnText) (alter : AlterColumn)
    (descendants sequences : List ObjectId) (s : AnalysisState) :
    Renames oldName newName (fun k => k = alter.id.id ∨ k ∈ descendants) s
      (alter.renameEverywhere text oldName newName descendants sequences s) := by
  unfold AlterColumn.renameEverywhere
  dsimp only
  have htarget : Renames oldName newName (fun k => k = alter.id.id ∨ k = alter.id.id) s _ :=
    (renames_updateRelation text.toSqlText s alter.id.id).trans
      (renames_metadata text.toSqlText _ alter.id.id)
  have hall := htarget.trans (renames_descendants text.toSqlText descendants _)
  have hreach : Renames oldName newName (fun k => k = alter.id.id ∨ k ∈ descendants) s _ :=
    ⟨hall.maps.congr fun _ => or_congr_left (or_self_iff), hall.aliases, hall.certainty⟩
  refine hreach.then_quiet ?_
  generalize List.foldl _ (AnalysisState.renameRelationColumnMetadata _ _ _ _ _) _ = below
  have hlisted : Quiet below ((below.columnPublicationUpdates alter.id.id oldName).foldl
      (updatePublicationColumns oldName newName) below) :=
    keeps_foldl _ (fun update _ s => quiet_updatePublicationColumns s update) below
  refine IsTrans.trans _ _ _ hlisted ?_
  generalize List.foldl (updatePublicationColumns oldName newName) below _ = listed
  have hsnapshot (s : AnalysisState) : Quiet s s.snapshotGraphFull := .pushUndo s _
  refine IsTrans.trans _ _ _ (hsnapshot listed) (IsTrans.trans _ _ _
    (quiet_renameIndexColumn _ _) (keeps_foldl _ (fun sequence _ s => ?_) _))
  exact IsTrans.trans _ _ _ (quiet_renameSequenceOwner s sequence) (IsTrans.trans _ _ _
    (hsnapshot _) (quiet_renameOwnedSequenceColumn _ sequence))

end Rename

end AnalysisState

end SafeMigrate
