import SafeMigrate.ColumnCommands
import SafeMigrate.ColumnSources
import SafeMigrate.PartitionCreation

/-! `CREATE TABLE` against the order of partitioned tables: the new table has
distinct columns, and a partition those of its parent. -/

namespace SafeMigrate

open Command AnalysisState MirroredLinks

namespace CreateTable

variable {text : PartitionText} {create : CreateTable} {s t : AnalysisState}

section Made

variable {relation : RelationState}

theorem distinct_declareColumn {declared : RelationState × List String}
    (h : DistinctNames declared.1.columns) (column : ColumnMutation) :
    Returns (fun declared => DistinctNames declared.1.columns)
      (create.declareColumn text.toSqlText declared column) := by
  refine Returns.then fun _ => Returns.then fun s => Returns.pure ?_
  dsimp only
  have hdeclared : DistinctNames ((declared.1.addColumn column.name column.ty
      (column.notNull || create.isPrimaryKeyColumn column) column.default).updateColumn column.name
        (declareOver text.toSqlText s column
          (column.notNull || create.isPrimaryKeyColumn column))).columns :=
    RelationState.distinct_updateColumn (RelationState.distinct_addColumn h _ _ _ _) _ fun _ => rfl
  cases generatedColumnKind column.generation <;> cases identityGeneration column.generation <;>
    exact hdeclared

/-- Implicit sequences become defaults, which no declaration mentions. -/
theorem declared_finishRelation (plan : TablePlan) (s : AnalysisState) (relation : RelationState) :
    (create.finishRelation plan s relation).columns.map Column.declared =
      relation.columns.map Column.declared := by
  unfold finishRelation
  dsimp only
  generalize hstart : ({ relation with columnInheritance := _ } : RelationState) = start
  have hcolumns : start.columns = relation.columns := by rw [← hstart]
  rw [← hcolumns]
  clear hstart hcolumns
  induction plan.sequences generalizing start with
  | nil => rfl
  | cons sequence sequences ih =>
    rw [List.foldl_cons, ih]
    exact map_updateFirst (f := (·.withSequenceDefault sequence.id)) (g := Column.declared)
      (fun _ _ => rfl) start.columns

theorem distinct_of_declared {left right : List Column}
    (h : left.map Column.declared = right.map Column.declared) (hright : DistinctNames right) :
    DistinctNames left := by
  rw [DistinctNames, map_name_of_declared h]
  exact hright

end Made

section Build

/-- The relation that is inserted, beside the parent that the statement names. -/
structure Fits (text : PartitionText) (create : CreateTable) (s : AnalysisState)
    (relation : RelationState) : Prop where
  distinct : DistinctNames relation.columns
  mirrors : ∀ parent, create.partitionOf = some parent → ∃ source,
    s.columnNet.objects parent.id = some source ∧ source.Mirrors text relation.tableColumns

theorem Fits.of_quiet {relation : RelationState} (h : create.Fits text s relation)
    (hquiet : Quiet s t) : create.Fits text t relation := by
  refine ⟨h.distinct, fun parent hparent => ?_⟩
  rw [hquiet.objects]
  exact h.mirrors parent hparent

theorem records_attachToParent {declared : Option ObjectId} :
    Keeps (AnalysisState.Records create.id.id declared) (create.attachToParent text.toSqlText) := by
  have hwrites : KeepsObjectWrites create.id.id declared (AnalysisState.Records create.id.id declared) :=
    keepsObjectWrites_records
  unfold attachToParent
  split
  · exact Keeps.pure _
  · refine Keeps.bind (Keeps.modify fun s => ?_) fun _ =>
      Keeps.bind (hwrites.cloneRowTriggersToPartition _ rfl) fun _ =>
        Keeps.modify fun s => hwrites.ensurePartitionIndexesAndConstraints s _ _
    unfold setPartitionConstraint
    split
    · exact AnalysisState.Records.modifyRelation s _ fun _ => rfl
    · exact Std.Refl.refl s

/-- A new table, and its edge to the parent, are in order with the rest. -/
theorem settled_insert {relation : RelationState} (hs : s.Settled text)
    (hfree : s.columnNet.objects create.id.id = none) (hfits : create.Fits text s relation)
    (h : AnalysisState.Records create.id.id (create.partitionOf.map (·.id))
      (s.setRelations (s.relations.insert create.id.id (.present relation))) t) :
    t.Settled text := by
  have hobjects (k : ObjectId) : t.columnNet.objects k =
      if k = create.id.id then some relation.tableColumns else s.columnNet.objects k := by
    rw [h.objects]
    show ((s.setRelations _).presentRelation k).map _ = _
    rw [presentRelation_insert]
    exact apply_ite _ _ _ _
  have hmade : t.columnNet.objects create.id.id = some relation.tableColumns := by
    rw [hobjects, if_pos rfl]
  have hothers (k : ObjectId) (hk : k ≠ create.id.id) :
      t.columnNet.objects k = s.columnNet.objects k := by
    rw [hobjects, if_neg hk]
  -- a new link leads from the new table to the parent it names
  have hlinks (link : ObjectId × ObjectId) (hlink : link ∈ t.columnNet.links) :
      link ∈ s.columnNet.links ∨ link.1 = create.id.id ∧ ∃ source,
        t.columnNet.objects link.2 = some source ∧ source.Mirrors text relation.tableColumns := by
    obtain ⟨e, he, hkind, rfl⟩ := mem_columnLinks.mp hlink
    rcases h.edges e he with hold | hnew
    · exact Or.inl (mem_columnLinks.mpr ⟨e, hold, hkind, rfl⟩)
    · obtain ⟨hdependent, hreferenced⟩ := hnew.2 hkind
      obtain ⟨parent, hparent, hid⟩ := Option.map_eq_some_iff.mp hreferenced.symm
      obtain ⟨source, hsource, hmirrors⟩ := hfits.mirrors parent hparent
      refine Or.inr ⟨hdependent, source, ?_, hmirrors⟩
      have hne : parent.id ≠ create.id.id := by
        intro heq
        rw [heq, hfree] at hsource
        cases hsource
      rw [← hid, hothers _ hne]
      exact hsource
  refine hs.of_keeps h.certainty fun horder => ⟨fun e he => ?_, ?_, fun k table hk => ?_, ?_⟩
  · rcases h.edges e he with hold | hnew
    · exact horder.aliases e hold
    · exact hnew.1
  · refine horder.placed.insert hfree hmade hothers fun link hlink => ?_
    rcases hlinks link hlink with hold | ⟨hk, source, hsource, -⟩
    · exact Or.inl hold
    · exact Or.inr ⟨hk, by rw [hsource]; rfl⟩
  · by_cases hid : k = create.id.id
    · rw [hid, hmade] at hk
      cases hk
      exact fun _ => hfits.distinct
    · exact horder.distinct k table (hothers k hid ▸ hk)
  · refine horder.mirrored.insert horder.placed hfree hmade hothers fun link hlink => ?_
    rcases hlinks link hlink with hold | ⟨hk, source, hsource, hmirrors⟩
    · exact Or.inl hold
    · refine Or.inr ⟨hk, fun source' hsource' => ?_⟩
      rw [hsource] at hsource'
      cases hsource'
      exact hmirrors

theorem settled_build {plan : TablePlan} {generation : Nat}
    (relation : AnalysisState → RelationState) {notNullColumns : List String}
    (hs : s.Settled text) (hfree : s.columnNet.objects create.id.id = none)
    (hfits : create.Fits text s (relation s)) :
    ((create.build text.toSqlText plan generation relation notNullColumns).after s).Settled text := by
  unfold build
  rw [after_modify_bind, after_modify_bind, after_bind_pure]
  refine settled_insert hs hfree hfits ?_
  exact IsTrans.trans _ _ _ (keeps_addObjects keepsObjectWrites_records plan generation notNullColumns _)
    (records_attachToParent _)

end Build

theorem DeclaresWithinParent.of_quiet (h : create.DeclaresWithinParent s) (hquiet : Quiet s t) :
    create.DeclaresWithinParent t := by
  intro parent hparent
  obtain ⟨hinherits, hlike, hcolumns⟩ := h parent hparent
  refine ⟨hinherits, hlike, fun column hcolumn => ?_⟩
  obtain ⟨hty, hhas⟩ := hcolumns column hcolumn
  obtain ⟨relation, hrelation, hname⟩ := (Option.any_eq_true _ _).mp hhas
  have hobject : t.columnNet.objects parent.id = some relation.tableColumns := by
    rw [hquiet.objects]
    exact congrArg (Option.map RelationState.tableColumns) hrelation
  obtain ⟨relation', hrelation', hsame⟩ := Option.map_eq_some_iff.mp hobject
  have hsameColumns : relation'.columns = relation.columns := congrArg TableColumns.columns hsame
  refine ⟨hty, (Option.any_eq_true _ _).mpr ⟨relation', hrelation', ?_⟩⟩
  rwa [RelationState.hasColumn, hsameColumns]

theorem quiet_noteIfTemporary (s : AnalysisState) : Quiet s (create.noteIfTemporary s) := by
  unfold noteIfTemporary
  split
  · exact .of_same rfl rfl (Or.inr ⟨rfl, rfl⟩)
  · exact Std.Refl.refl s

/-- What the plan has found of the columns. -/
structure Planned (create : CreateTable) (s : AnalysisState) (plan : TablePlan) : Prop where
  distinct : DistinctNames plan.sources.columns
  partition : ∀ parent, create.partitionOf = some parent → create.columns = [] ∧ ∃ source,
    s.columnNet.objects parent.id = some source ∧ plan.sources.columns = source.columns

theorem settled_execute {plan : TablePlan} (hs : s.Settled text)
    (hfree : s.columnNet.objects create.id.id = none) (hplan : create.Planned s plan) :
    ((create.execute text.toSqlText plan).after s).Settled text := by
  have hwrites : KeepsObjectWrites ⟨"", ""⟩ none Quiet := keepsObjectWrites_records
  have hopen (s : AnalysisState) : Quiet s (s.snapshotRelation create.id.id).bumpGeneration :=
    IsTrans.trans _ _ _ (.pushUndo s _) (hwrites.bumpGeneration _)
  refine hs.bind (Keeps.modify hopen) fun _ u _ hu hsettled => ?_
  refine hsettled.bind Keeps.get fun start v hget _ hsettled => ?_
  cases hget
  refine hsettled.bind (Keeps.modify quiet_noteIfTemporary) fun _ w _ hw hsettled => ?_
  refine hsettled.bind (keeps_taintIf _ _ _) fun _ x _ hx hsettled => ?_
  refine hsettled.bind (Keeps.foldlM _ _ keeps_declareColumn) fun declared y hrun hy hsettled => ?_
  have hquiet : Quiet s y :=
    IsTrans.trans _ _ _ hu (IsTrans.trans _ _ _ hw (IsTrans.trans _ _ _ hx hy))
  have hdistinct : DistinctNames declared.1.columns := by
    refine (?_ : Returns (fun declared : RelationState × List String =>
      DistinctNames declared.1.columns) _) x declared y hrun
    exact Returns.foldlM _ (fun _ column h => distinct_declareColumn h column) hplan.distinct
  refine settled_build (fun s => create.finishRelation plan s declared.1) hsettled ?_
    ⟨distinct_of_declared (declared_finishRelation plan y declared.1) hdistinct,
      fun parent hparent => ?_⟩
  · rw [hquiet.objects]
    exact hfree
  · obtain ⟨hcolumns, source, hsource, hcopied⟩ := hplan.partition parent hparent
    refine ⟨source, by rw [hquiet.objects]; exact hsource, fun _ _ => ?_⟩
    have hinitial : declared.1.columns = source.columns := by
      rw [hcolumns] at hrun
      cases hrun
      exact hcopied
    refine SameColumns.of_declared ?_ (hinitial ▸ hdistinct)
    exact (declared_finishRelation plan y declared.1).trans (congrArg _ hinitial)

/-- `CREATE TABLE` keeps partitioned tables in order, where a partition
declares no columns of its own. -/
theorem settled_command (hs : s.Settled text) (hdeclares : create.DeclaresWithinParent s) :
    ((create.command text.toSqlText).after s).Settled text := by
  refine hs.bind (keeps_refuseFound _ _) fun _ u _ hu hsettled => ?_
  refine hsettled.bind (keeps_refuseIf _ _) fun _ v _ hv hsettled => ?_
  refine hsettled.bind (keeps_ensureCreationTarget _) fun _ w _ hw hsettled => ?_
  refine hsettled.bind keeps_checkNamespace fun _ x hnamespace _ hsettled => ?_
  obtain ⟨rfl, hfree⟩ := checkNamespace_free hnamespace
  refine hsettled.bind keeps_checkOfType fun _ y _ hy hsettled => ?_
  refine hsettled.bind keeps_plan fun plan z hrun hz hsettled => ?_
  obtain ⟨hdistinct, hpartition⟩ := plan_ok hrun
  have hbefore : Quiet s x := IsTrans.trans _ _ _ hu (IsTrans.trans _ _ _ hv hw)
  have hafter : Quiet x z := IsTrans.trans _ _ _ hy hz
  refine settled_execute hsettled ?_ ⟨hdistinct, fun parent hparent => ?_⟩
  · rw [hafter.objects]
    exact congrArg (Option.map RelationState.tableColumns) hfree
  · obtain ⟨hcolumns, source, hsource, hcopied⟩ :=
      hpartition parent hparent (hdeclares.of_quiet (IsTrans.trans _ _ _ hbefore hy))
    exact ⟨hcolumns, source, by rw [hz.objects]; exact hsource, hcopied⟩

end CreateTable

end SafeMigrate
