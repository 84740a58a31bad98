import SafeMigrate.ColumnAlterations

/-! `ALTER TABLE` on a column as a whole: its checks leave the order alone, and
its writes keep it where they reach both ends of a partition edge or neither. -/

namespace SafeMigrate

open Command AnalysisState MirroredLinks

theorem Command.IsCheck.forM {ε σ α : Type} (l : List α) {f : α → Command ε σ PUnit}
    (hf : ∀ a, IsCheck (f a)) : IsCheck (l.forM f) := by
  induction l with
  | nil => exact IsCheck.pure _
  | cons a l ih => exact IsCheck.bind (hf a) fun _ => ih

namespace RelationState

variable {relation : RelationState}

theorem distinct_updateColumn (h : DistinctNames relation.columns) (name : String)
    {f : Column → Column} (hf : ∀ c, (f c).name = c.name) :
    DistinctNames (relation.updateColumn name f).columns := by
  show ((updateFirst (fun c => c.name == name) f relation.columns).map (·.name)).Nodup
  rw [map_updateFirst fun c _ => hf c]
  exact h

theorem distinct_addColumn (h : DistinctNames relation.columns) (name : String)
    (dataType : Option String) (notNull : Bool) (default : Option ExprIr) :
    DistinctNames (relation.addColumn name dataType notNull default).columns := by
  unfold addColumn
  by_cases hhas : relation.hasColumn name = true
  · rwa [if_pos hhas]
  · rw [if_neg hhas]
    have hfresh : name ∉ relation.columns.map (·.name) := fun hmem => hhas (any_name.mpr hmem)
    rw [DistinctNames, List.map_append]
    refine List.nodup_append.mpr ⟨h, List.nodup_singleton _, fun a ha b hb => ?_⟩
    have hname : b = name := List.mem_singleton.mp hb
    rw [hname]
    exact fun heq => hfresh (heq ▸ ha)

theorem distinct_dropColumn (h : DistinctNames relation.columns) (name : String) :
    DistinctNames (relation.dropColumn name).columns :=
  h.sublist (List.filter_sublist.map _)

@[simp] theorem addColumn_complete (name : String) (dataType : Option String) (notNull : Bool)
    (default : Option ExprIr) :
    (relation.addColumn name dataType notNull default).columnsComplete = relation.columnsComplete := by
  unfold addColumn
  split <;> rfl

end RelationState

namespace AlterColumn

variable {text : ColumnText} {alter : AlterColumn} {s t : AnalysisState}

section Relations

variable {relation : RelationState}

theorem distinct_withAddedColumn (s : AnalysisState) (column : AddedColumn)
    (sequence : Option ObjectId) (h : relation.tableColumns.Distinct) :
    (withAddedColumn text s column sequence relation).tableColumns.Distinct := by
  have hadded (f : Column → Column) (hf : ∀ c, (f c).name = c.name) :
      ((relation.addColumn column.name column.ty column.notNull column.default).updateColumn
        column.name f).tableColumns.Distinct := by
    intro hcomplete
    have hbefore : relation.columnsComplete = true := by
      rw [← hcomplete]
      exact (RelationState.addColumn_complete _ _ _ _).symm
    exact RelationState.distinct_updateColumn
      (RelationState.distinct_addColumn (h hbefore) _ _ _ _) _ hf
  have hsequence (r : RelationState) (hr : r.tableColumns.Distinct) (sequence : ObjectId) :
      (r.updateColumn column.name (·.withSequenceDefault sequence)).tableColumns.Distinct :=
    fun hcomplete => RelationState.distinct_updateColumn (hr hcomplete) _ fun _ => rfl
  unfold withAddedColumn
  dsimp only
  cases sequence with
  | none =>
    cases CreateTable.generatedColumnKind column.generation <;>
      cases CreateTable.identityGeneration column.generation <;> exact hadded _ fun _ => rfl
  | some sequence =>
    refine hsequence _ ?_ sequence
    cases CreateTable.generatedColumnKind column.generation <;>
      cases CreateTable.identityGeneration column.generation <;> exact hadded _ fun _ => rfl

theorem distinct_withoutColumn (name : String) (scan : ColumnScan)
    (h : relation.tableColumns.Distinct) :
    (withoutColumn text name scan relation).tableColumns.Distinct := by
  unfold withoutColumn
  dsimp only
  generalize hstart : ({ relation.applyColumnAction text.toSqlText (.drop name) with
    extendedStatistics := _ } : RelationState) = start
  have hs : start.tableColumns.Distinct := by
    rw [← hstart]
    exact fun hcomplete => RelationState.distinct_dropColumn (h hcomplete) name
  clear hstart
  induction scan.generated generalizing start with
  | nil => exact hs
  | cons generated rest ih =>
    rw [List.foldl_cons]
    refine ih _ ?_
    by_cases hhas : start.hasColumn generated = true
    · rw [if_pos hhas]
      exact fun hcomplete => RelationState.distinct_dropColumn (hs hcomplete) generated
    · rwa [if_neg hhas]

theorem distinct_withColumnType (s : AnalysisState) (column ty : String)
    (h : relation.tableColumns.Distinct) :
    (withColumnType text s column ty relation).tableColumns.Distinct := by
  intro hcomplete
  have htyped : DistinctNames
      (relation.applyColumnAction text.toSqlText (.setType column ty)).columns :=
    RelationState.distinct_updateColumn (h hcomplete) column fun _ => rfl
  exact RelationState.distinct_updateColumn htyped column fun _ => rfl

end Relations

section Checks

theorem isCheck_checkDescendant (oldName newName : String) (id : ObjectId) :
    IsCheck (alter.checkDescendant text oldName newName id) := by
  refine IsCheck.bind IsCheck.get fun s => ?_
  split
  · exact isCheck_leaveUnresolved _
  · refine IsCheck.bind (isCheck_refuseIf _ _) fun _ =>
      IsCheck.bind (isCheck_leaveUnresolvedIf _ _) fun _ => ?_
    split
    · exact isCheck_leaveUnresolved _
    · exact isCheck_refuseIf _ _

theorem isCheck_checkRecursion : IsCheck (alter.checkRecursion text) := by
  unfold checkRecursion
  split
  · exact IsCheck.bind IsCheck.get fun s =>
      IsCheck.bind (IsCheck.forM _ (isCheck_checkDescendant _ _)) fun _ => isCheck_refuseIf _ _
  · exact IsCheck.pure _

variable {R : AnalysisState → AnalysisState → Prop} [KeepsEvidence R]

theorem keeps_checkDescendant (oldName newName : String) (id : ObjectId) :
    Keeps R (alter.checkDescendant text oldName newName id) := by
  refine Keeps.bind Keeps.get fun s => ?_
  split
  · exact keeps_leaveUnresolved _
  · refine Keeps.bind (keeps_refuseIf _ _) fun _ =>
      Keeps.bind (keeps_leaveUnresolvedIf _ _) fun _ => ?_
    split
    · exact keeps_leaveUnresolved _
    · exact keeps_refuseIf _ _

theorem keeps_checkRecursion : Keeps R (alter.checkRecursion text) := by
  unfold checkRecursion
  split
  · exact Keeps.bind Keeps.get fun s =>
      Keeps.bind (Keeps.forM _ (keeps_checkDescendant _ _)) fun _ => keeps_refuseIf _ _
  · exact Keeps.pure _

theorem keeps_checkTarget : Keeps R alter.checkTarget := by
  refine Keeps.bind Keeps.get fun s => ?_
  split
  · exact keeps_refuse _
  · exact keeps_refuse _
  · exact keeps_refuse _
  · exact keeps_leaveUnresolved _
  · split
    · exact keeps_leaveUnresolved _
    · exact Keeps.bind (keeps_refuseIf _ _) fun _ => Keeps.pure _

theorem keeps_checkColumn (relation : RelationState) : Keeps R (alter.checkColumn text relation) := by
  unfold checkColumn
  dsimp only
  split
  · exact Keeps.ite (fun _ => Keeps.ite (fun _ => Keeps.throw _) fun _ => keeps_refuse _)
      fun _ => Keeps.pure _
  · exact Keeps.bind (keeps_leaveUnresolvedIf _ _) fun _ => Keeps.ite (fun _ => Keeps.pure _)
      fun _ => Keeps.ite (fun _ => Keeps.throw _) fun _ => keeps_refuse _
  · exact Keeps.bind (keeps_leaveUnresolvedIf _ _) fun _ => Keeps.bind (keeps_refuseIf _ _) fun _ =>
      Keeps.bind (keeps_refuseIf _ _) fun _ => keeps_leaveUnresolvedIf _ _
  · exact Keeps.bind (keeps_leaveUnresolvedIf _ _) fun _ => keeps_refuseIf _ _

section Declines

theorem declines_checkDescendant (oldName newName : String) (id : ObjectId) :
    Declines (alter.checkDescendant text oldName newName id) := by
  refine Declines.bind declines_get fun s => ?_
  split
  · exact declines_leaveUnresolved _
  · refine Declines.bind (declines_refuseIf _ _) fun _ =>
      Declines.bind (declines_leaveUnresolvedIf _ _) fun _ => ?_
    split
    · exact declines_leaveUnresolved _
    · exact declines_refuseIf _ _

theorem declines_checkRecursion : Declines (alter.checkRecursion text) := by
  unfold checkRecursion
  split
  · exact Declines.bind declines_get fun s =>
      Declines.bind (Throws.forM _ (declines_checkDescendant _ _)) fun _ => declines_refuseIf _ _
  · exact declines_pure _

theorem declines_checkTarget : Declines alter.checkTarget := by
  refine Declines.bind declines_get fun s => ?_
  split
  · exact declines_refuse _
  · exact declines_refuse _
  · exact declines_refuse _
  · exact declines_leaveUnresolved _
  · split
    · exact declines_leaveUnresolved _
    · exact Declines.bind (declines_refuseIf _ _) fun _ => declines_pure _

theorem declines_noOp {α : Type} : Declines (throw .noOp : Statement α) := Throws.throw (by simp)

theorem declines_checkColumn (relation : RelationState) :
    Declines (alter.checkColumn text relation) := by
  unfold checkColumn
  dsimp only
  split
  · exact Throws.ite (fun _ => Throws.ite (fun _ => declines_noOp) fun _ => declines_refuse _)
      fun _ => declines_pure _
  · exact Declines.bind (declines_leaveUnresolvedIf _ _) fun _ =>
      Throws.ite (fun _ => declines_pure _) fun _ =>
        Throws.ite (fun _ => declines_noOp) fun _ => declines_refuse _
  · exact Declines.bind (declines_leaveUnresolvedIf _ _) fun _ =>
      Declines.bind (declines_refuseIf _ _) fun _ =>
        Declines.bind (declines_refuseIf _ _) fun _ => declines_leaveUnresolvedIf _ _
  · exact Declines.bind (declines_leaveUnresolvedIf _ _) fun _ => declines_refuseIf _ _

theorem declines_addImplicitSequence (column : AddedColumn) (sequence : ObjectId) :
    Declines (alter.addImplicitSequence column sequence) := by
  refine Declines.bind declines_get fun s => ?_
  dsimp only
  split
  · exact declines_refuse _
  · exact Declines.bind (declines_modify _) fun _ => declines_modify _

theorem declines_execute (descendants : List ObjectId) (relation : RelationState) :
    Declines (alter.execute text descendants relation) := by
  unfold execute
  split
  · refine Declines.bind declines_get fun s => Declines.bind (declines_refuseFound _ _) fun _ =>
      Declines.bind (declines_modify _) fun _ => Declines.bind (declines_modify _) fun _ =>
        Declines.bind (declines_modify _) fun _ => ?_
    refine Throws.ite (fun _ => Declines.bind (declines_modify _) fun _ => ?_) fun _ => ?_
    all_goals
      split
      · exact declines_addImplicitSequence _ _
      · exact declines_pure _
  · exact Declines.bind declines_get fun s => Declines.bind (declines_taintIf _ _ _) fun _ =>
      Declines.bind (declines_refuseIf _ _) fun _ => Declines.bind (declines_taintIf _ _ _) fun _ =>
        Declines.bind (declines_modify _) fun _ => Declines.bind (declines_modify _) fun _ =>
          declines_modify _
  · exact Declines.bind declines_get fun s => declines_modify _
  · exact Declines.bind (declines_modify _) fun _ =>
      Declines.bind (declines_checkDeclaredType _ _) fun _ => declines_modify _

theorem declines_command : Declines (alter.command text) :=
  Declines.bind declines_get fun _ => Declines.bind declines_checkRecursion fun _ =>
    Declines.bind declines_checkTarget fun relation =>
      Declines.bind (declines_checkColumn relation) fun _ =>
        Declines.bind (declines_execute _ relation) fun _ => declines_pure _

end Declines

/-- The target is present, and its checks have changed nothing. -/
theorem checkTarget_ok {relation : RelationState}
    (h : alter.checkTarget.run.run s = (.ok relation, t)) :
    t = s ∧ s.presentRelation alter.id.id = some relation := by
  unfold checkTarget at h
  obtain ⟨start, u, hget, h⟩ := exists_run_of_bind h
  cases hget
  cases hlookup : s.relationLookup alter.id fun _ => true with
  | wrongKind | authoritativelyAbsent | tombstone | unknown =>
    rw [hlookup] at h
    cases h
  | present =>
    rw [hlookup] at h
    dsimp only at h
    cases hpresent : s.presentRelation alter.id.id with
    | none =>
      rw [hpresent] at h
      cases h
    | some found =>
      rw [hpresent] at h
      dsimp only at h
      by_cases hrefused : alter.permits found.kind = false
      · rw [refuseIf, if_pos hrefused] at h
        cases h
      · rw [refuseIf, if_neg hrefused] at h
        cases h
        exact ⟨rfl, rfl⟩

/-- What a statement that has a column to change finds in its target. -/
def Finds (alter : AlterColumn) (relation : RelationState) : Prop :=
  match alter.action with
  | .addColumn column => relation.hasColumn column.name = false
  | .dropColumn name _ _ => relation.hasColumn name = true
  | .renameColumn oldName _ => relation.hasColumn oldName = true
  | .setType column _ => relation.hasColumn column = true

theorem checkColumn_ok {relation : RelationState} {a : Unit}
    (h : (alter.checkColumn text relation).run.run s = (.ok a, t)) :
    t = s ∧ alter.Finds relation := by
  unfold Finds
  unfold checkColumn at h
  dsimp only at h
  cases haction : alter.action with
  | addColumn column =>
    rw [haction] at h
    dsimp only at h ⊢
    by_cases hhas : relation.hasColumn column.name = true
    · rw [if_pos hhas] at h
      by_cases hexists : column.ifNotExists = true
      · rw [if_pos hexists] at h
        cases h
      · rw [if_neg hexists] at h
        cases h
    · rw [if_neg hhas] at h
      cases h
      exact ⟨rfl, Bool.not_eq_true _ ▸ hhas⟩
  | dropColumn name ifExists cascade =>
    rw [haction] at h
    dsimp only at h ⊢
    obtain ⟨_, u, hknown, hfound⟩ := exists_run_of_bind h
    obtain rfl := isCheck_leaveUnresolvedIf _ _ s _ u hknown
    by_cases hhas : relation.hasColumn name = true
    · rw [if_pos hhas] at hfound
      cases hfound
      exact ⟨rfl, hhas⟩
    · rw [if_neg hhas] at hfound
      by_cases hexists : ifExists = true
      · rw [if_pos hexists] at hfound
        cases hfound
      · rw [if_neg hexists] at hfound
        cases hfound
  | renameColumn oldName newName =>
    rw [haction] at h
    dsimp only at h ⊢
    obtain ⟨_, u, hknown, hfound⟩ := exists_run_of_bind h
    obtain rfl := isCheck_leaveUnresolvedIf _ _ s _ u hknown
    obtain ⟨_, v, hold, hfree⟩ := exists_run_of_bind hfound
    obtain ⟨rfl, hhas⟩ := refuseIf_ok hold
    have hrest : IsCheck (do
        refuseIf (relation.hasColumn newName = true)
          ("column '" ++ newName ++ "' already exists on relation '" ++ alter.id.display ++ "'")
        leaveUnresolvedIf (generatedFollow text alter.id.id.name oldName newName relation = false)
          .catalogCoverageIncomplete : Statement Unit) :=
      IsCheck.bind (isCheck_refuseIf _ _) fun _ => isCheck_leaveUnresolvedIf _ _
    exact ⟨hrest _ _ _ hfree, by simpa using hhas⟩
  | setType column ty =>
    rw [haction] at h
    dsimp only at h ⊢
    obtain ⟨_, u, hknown, hfound⟩ := exists_run_of_bind h
    obtain rfl := isCheck_leaveUnresolvedIf _ _ s _ u hknown
    obtain ⟨rfl, hhas⟩ := refuseIf_ok hfound
    exact ⟨rfl, by simpa using hhas⟩

/-- An applied statement has found its target and its column, and executed. -/
theorem executed_of_applied (h : s.applyAlterColumn text alter = (.applied, t)) :
    ∃ relation u, s.presentRelation alter.id.id = some relation ∧
      (alter.checkColumn text relation).run.run s = (.ok (), s) ∧ alter.Finds relation ∧
        (alter.execute text (alter.descendants s) relation).run.run s = (.ok u, t) := by
  obtain ⟨_, _, hget, hrun⟩ := exists_run_of_bind (ran_of_outcome declines_command h)
  cases hget
  obtain ⟨_, u, hrecursion, hrun⟩ := exists_run_of_bind hrun
  obtain rfl := isCheck_checkRecursion s _ u hrecursion
  obtain ⟨relation, v, htarget, hrun⟩ := exists_run_of_bind hrun
  obtain ⟨rfl, hrelation⟩ := checkTarget_ok htarget
  obtain ⟨_, w, hcolumn, hrun⟩ := exists_run_of_bind hrun
  obtain ⟨rfl, hfinds⟩ := checkColumn_ok hcolumn
  obtain ⟨u, x, hexecute, hdone⟩ := exists_run_of_bind hrun
  cases hdone
  exact ⟨relation, u, hrelation, hcolumn, hfinds, hexecute⟩

end Checks

/-- The statement has no column to change, and its checks refuse it. -/
def IsIdle (alter : AlterColumn) (s : AnalysisState) : Prop :=
  ∀ relation, s.presentRelation alter.id.id = some relation → ¬alter.Finds relation

/-- The relations in which a rename changes a column. -/
def Reaches (alter : AlterColumn) (s : AnalysisState) (id : ObjectId) : Prop :=
  id = alter.id.id ∨ id ∈ alter.descendants s

/-- A rename reaches both ends of every partition edge, or neither; the other
actions, which do not recurse, have no partition edge at their relation. -/
def SparesPartitions (alter : AlterColumn) (s : AnalysisState) : Prop :=
  alter.IsIdle s ∨ match alter.action with
    | .renameColumn .. => ∀ e ∈ s.graph.edges, e.kind = .partitionOf →
        (alter.Reaches s e.dependent ↔ alter.Reaches s e.referenced)
    | _ => ∀ e ∈ s.graph.edges, e.kind = .partitionOf →
        e.dependent ≠ alter.id.id ∧ e.referenced ≠ alter.id.id

section Execution

/-- No partition edge touches the relation. -/
def Apart (s : AnalysisState) (id : ObjectId) : Prop :=
  ∀ link ∈ s.columnNet.links, link.1 ≠ id ∧ link.2 ≠ id

theorem Apart.quiet {id : ObjectId} (h : Apart s id) (hquiet : Quiet s t) : Apart t id :=
  fun link hlink => h link (hquiet.links hlink)

/-- A change of one relation that no partition edge touches. -/
theorem settled_modifyRelation {text : PartitionText} {id : ObjectId}
    {f : RelationState → RelationState} (hs : s.Settled text) (hapart : Apart s id)
    (hf : ∀ r, r.tableColumns.Distinct → (f r).tableColumns.Distinct) :
    (s.modifyRelation id f).Settled text := by
  have hobjects (k : ObjectId) : (s.modifyRelation id f).columnNet.objects k =
      if k = id then ((s.presentRelation id).map f).map RelationState.tableColumns
      else s.columnNet.objects k := by
    simp only [columnNet, presentRelation_modifyRelation]
    exact apply_ite _ _ _ _
  have hothers (k : ObjectId) (hk : k ≠ id) :
      (s.modifyRelation id f).columnNet.objects k = s.columnNet.objects k := by
    rw [hobjects, if_neg hk]
  have hgraph : (s.modifyRelation id f).graph = s.graph := modifyRelation_graph s id f
  have hlinks : (s.modifyRelation id f).columnNet.links ⊆ s.columnNet.links := by
    rw [columnNet, columnNet, hgraph]
    exact List.Subset.refl _
  have hcertain : KeepsCertainty s (s.modifyRelation id f) := by
    unfold AnalysisState.modifyRelation
    split
    · exact Or.inr ⟨rfl, rfl⟩
    · exact Or.inr ⟨rfl, rfl⟩
  refine hs.of_keeps hcertain fun horder => ?_
  refine ⟨fun e he => horder.aliases e (hgraph ▸ he), horder.placed.apart hapart hothers hlinks,
    fun k table hk => ?_, horder.mirrored.apart hapart hothers hlinks⟩
  by_cases hid : k = id
  · rw [hobjects, if_pos hid] at hk
    obtain ⟨changed, hchanged, rfl⟩ := Option.map_eq_some_iff.mp hk
    obtain ⟨relation, hrelation, rfl⟩ := Option.map_eq_some_iff.mp hchanged
    refine hf relation (horder.distinct id relation.tableColumns ?_)
    exact congrArg (Option.map RelationState.tableColumns) hrelation
  · exact horder.distinct k table (hothers k hid ▸ hk)

theorem keeps_addColumnEdges {R : AnalysisState → AnalysisState → Prop} [KeepsEvidence R]
    {id : ObjectId} {declared : Option ObjectId} (hR : KeepsDependentWrites id declared R)
    (s : AnalysisState) (column : AddedColumn) : R s (alter.addColumnEdges s column) := by
  unfold addColumnEdges
  dsimp only
  have hreads (s : AnalysisState) (references : List String) :
      R s (s.addGraphEdges ((references.insertionSort (· ≤ ·)).map fun reference =>
        ⟨alter.id.id, alter.id.id, .columnGeneratedFrom column.name reference⟩)) := by
    refine hR.addGraphEdges _ fun edge hedge => ?_
    obtain ⟨reference, -, rfl⟩ := List.mem_map.mp hedge
    exact .of_kind rfl rfl
  rcases column.dependsOn with _ | ⟨source, dependsOnColumn⟩
  · dsimp only
    split
    · exact hreads s _
    · exact Std.Refl.refl _
  · have hdefault : R s (s.addGraphEdge
        ⟨alter.id.id, source, .columnGeneratedFrom column.name dependsOnColumn⟩) :=
      hR.addGraphEdge s (.of_kind rfl rfl)
    refine IsTrans.trans _ _ _ hdefault ?_
    dsimp only
    split
    · exact hreads _ _
    · exact Std.Refl.refl _

theorem keeps_addImplicitSequence (column : AddedColumn) (sequence : ObjectId) :
    Keeps Quiet (alter.addImplicitSequence column sequence) := by
  have hwrites : KeepsObjectWrites ⟨"", ""⟩ none Quiet := keepsObjectWrites_records
  refine Keeps.bind Keeps.get fun s => ?_
  dsimp only
  split
  · exact keeps_refuse _
  · exact Keeps.bind (Keeps.modify fun s => hwrites.putSequence s _ _) fun _ =>
      Keeps.modify fun s => hwrites.addGraphEdge s (.of_kind rfl rfl)

theorem settled_addColumn {column : AddedColumn} (hs : s.Settled text.toPartitionText)
    (hapart : Apart s alter.id.id) :
    ((alter.addColumn text column).after s).Settled text.toPartitionText := by
  refine hs.bind Keeps.get fun start t hget _ ht => ?_
  cases hget
  refine ht.bind (keeps_refuseFound _ _) fun _ u hfree hu hsettled => ?_
  have hsnapshot : Quiet u (u.snapshotRelation alter.id.id) := .pushUndo u _
  rw [after_modify_bind, after_modify_bind]
  refine (settled_modifyRelation (hsettled.loses hsnapshot.loses)
    ((hapart.quiet hu).quiet hsnapshot) fun r hr => distinct_withAddedColumn _ column _ hr).keeps ?_
  refine Keeps.mono (R := Quiet) ?_ fun _ _ h => Records.loses h
  have hwrites : KeepsObjectWrites ⟨"", ""⟩ none Quiet := keepsObjectWrites_records
  refine Keeps.bind (Keeps.modify fun s =>
    keeps_addColumnEdges hwrites.toKeepsDependentWrites s column) fun _ =>
      Keeps.ite (fun _ => Keeps.bind (Keeps.modify fun s => hwrites.registerNotNullConstraint s _ _)
        fun _ => ?_) fun _ => ?_
  all_goals
    split
    · exact keeps_addImplicitSequence column _
    · exact Keeps.pure _

theorem settled_dropColumn {relation : RelationState} {name : String} {cascade : Bool}
    (hs : s.Settled text.toPartitionText) (hapart : Apart s alter.id.id) :
    ((alter.dropColumn text relation name cascade).after s).Settled text.toPartitionText := by
  refine hs.bind Keeps.get fun start t hget _ ht => ?_
  cases hget
  refine ht.bind (keeps_taintIf _ _ _) fun _ u _ hu hsettled => ?_
  refine hsettled.bind (keeps_refuseIf _ _) fun _ v _ hv hsettled => ?_
  refine hsettled.bind (keeps_taintIf _ _ _) fun _ w _ hw hsettled => ?_
  have hsnapshot : Quiet w (w.snapshotRelation alter.id.id) := .pushUndo w _
  rw [after_modify_bind, after_modify_bind]
  refine (settled_modifyRelation (hsettled.loses hsnapshot.loses)
    ((((hapart.quiet hu).quiet hv).quiet hw).quiet hsnapshot)
    fun r hr => distinct_withoutColumn name _ hr).keeps ?_
  exact Keeps.modify fun s => loses_dropDependents alter name _ _ s

theorem settled_setType {column ty : String} (hs : s.Settled text.toPartitionText)
    (hapart : Apart s alter.id.id) :
    ((alter.setType text column ty).after s).Settled text.toPartitionText := by
  have hsnapshot : Quiet s (s.snapshotRelation alter.id.id) := .pushUndo s _
  unfold setType
  rw [after_modify_bind]
  refine (hs.loses hsnapshot.loses).bind (keeps_checkDeclaredType _ _) fun _ t _ ht hsettled => ?_
  exact settled_modifyRelation hsettled ((hapart.quiet hsnapshot).quiet ht)
    fun r hr => distinct_withColumnType _ column ty hr

theorem settled_renameColumn {oldName newName : String} (hs : s.Settled text.toPartitionText)
    (hclosed : Closed (alter.Reaches s) s.columnNet) :
    ((alter.renameColumn text oldName newName (alter.descendants s)).after s).Settled
      text.toPartitionText := by
  have hrenames : Renames oldName newName (alter.Reaches s) s
      (alter.renameEverywhere text oldName newName (alter.descendants s)
        (s.columnSequences alter.id.id oldName) s) :=
    renames_everywhere text alter _ _ s
  exact hs.of_keeps hrenames.certainty fun horder => horder.renames hrenames hclosed

theorem settled_execute {relation : RelationState} (hs : s.Settled text.toPartitionText)
    (hspares : match alter.action with
      | .renameColumn .. => ∀ e ∈ s.graph.edges, e.kind = .partitionOf →
          (alter.Reaches s e.dependent ↔ alter.Reaches s e.referenced)
      | _ => ∀ e ∈ s.graph.edges, e.kind = .partitionOf →
          e.dependent ≠ alter.id.id ∧ e.referenced ≠ alter.id.id) :
    ((alter.execute text (alter.descendants s) relation).after s).Settled text.toPartitionText := by
  have hapart (h : ∀ e ∈ s.graph.edges, e.kind = .partitionOf →
      e.dependent ≠ alter.id.id ∧ e.referenced ≠ alter.id.id) : Apart s alter.id.id := by
    intro link hlink
    obtain ⟨e, he, hkind, rfl⟩ := mem_columnLinks.mp hlink
    exact h e he (isPartitionOf_iff.mp hkind)
  unfold execute
  cases haction : alter.action with
  | addColumn column =>
    rw [haction] at hspares
    exact settled_addColumn hs (hapart hspares)
  | dropColumn name ifExists cascade =>
    rw [haction] at hspares
    exact settled_dropColumn hs (hapart hspares)
  | renameColumn oldName newName =>
    rw [haction] at hspares
    refine settled_renameColumn hs fun link hlink => ?_
    obtain ⟨e, he, hkind, rfl⟩ := mem_columnLinks.mp hlink
    exact hspares e he (isPartitionOf_iff.mp hkind)
  | setType column ty =>
    rw [haction] at hspares
    exact settled_setType hs (hapart hspares)

end Execution

/-- A column action that spares the partitions keeps them in order. -/
theorem settled_command (hs : s.Settled text.toPartitionText) (hspares : alter.SparesPartitions s) :
    ((alter.command text).after s).Settled text.toPartitionText := by
  refine hs.bind Keeps.get fun start t hget _ ht => ?_
  cases hget
  refine ht.bind keeps_checkRecursion fun _ u hrecursion _ hu => ?_
  obtain rfl := isCheck_checkRecursion s _ u hrecursion
  refine hu.bind keeps_checkTarget fun relation v htarget _ hv => ?_
  obtain ⟨rfl, hrelation⟩ := checkTarget_ok htarget
  refine hv.bind (keeps_checkColumn relation) fun _ w hcolumn _ hw => ?_
  obtain ⟨rfl, hfinds⟩ := checkColumn_ok hcolumn
  rw [after_bind_pure]
  exact settled_execute hw (hspares.resolve_left fun hidle => hidle relation hrelation hfinds)

end AlterColumn

end SafeMigrate
