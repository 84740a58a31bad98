import SafeMigrate.ColumnAlterations
import SafeMigrate.CreateTableWrites

/-! The columns that `CREATE TABLE` takes over from its sources: no name twice,
and under `PARTITION OF` those of the parent. -/

namespace SafeMigrate

open Command AnalysisState

theorem returns_refuse {α : Type} {P : α → Prop} (reason : String) :
    Returns P (refuse reason : Statement α) := by
  rintro s a t ⟨⟩

theorem returns_leaveUnresolved {α : Type} {P : α → Prop} (code : EvidenceCode) :
    Returns P (leaveUnresolved code : Statement α) := by
  rintro s a t ⟨⟩

theorem Command.Returns.then {ε σ α β : Type} {P : α → Prop} {c : Command ε σ β}
    {k : β → Command ε σ α} (hk : ∀ b, Returns P (k b)) : Returns P (c >>= k) :=
  Returns.bind (Q := fun _ => True) (Returns.of_forall fun _ => trivial) fun b _ => hk b

theorem Command.Returns.ite {ε σ α : Type} {P : α → Prop} {p : Prop} [Decidable p]
    {c d : Command ε σ α} (hc : p → Returns P c) (hd : ¬p → Returns P d) :
    Returns P (if p then c else d) := by
  by_cases hp : p
  · simpa [hp] using hc hp
  · simpa [hp] using hd hp

/-- The sources have listed the names of their columns, each of them once. -/
structure TableSources.Named (sources : TableSources) : Prop where
  names : sources.names = sources.columns.map (·.name)
  distinct : DistinctNames sources.columns

namespace TableSources.Named

variable {sources sources' : TableSources}

theorem of_same (h : sources.Named) (hcolumns : sources'.columns = sources.columns)
    (hnames : sources'.names = sources.names) : sources'.Named := by
  refine ⟨?_, ?_⟩
  · rw [hcolumns, hnames]
    exact h.names
  · rw [hcolumns]
    exact h.distinct

theorem append (h : sources.Named) (column : Column) (hfresh : column.name ∉ sources.names)
    (hcolumns : sources'.columns = sources.columns ++ [column])
    (hnames : sources'.names = sources.names ++ [column.name]) : sources'.Named := by
  refine ⟨?_, ?_⟩
  · rw [hnames, hcolumns, List.map_append, h.names]
    rfl
  · rw [h.names] at hfresh
    rw [DistinctNames, hcolumns, List.map_append]
    refine List.nodup_append.mpr ⟨h.distinct, List.nodup_singleton _, fun a ha b hb => ?_⟩
    have hname : b = column.name := List.mem_singleton.mp hb
    rw [hname]
    exact fun heq => hfresh (heq ▸ ha)

end TableSources.Named

namespace CreateTable

variable {text : SqlText} {create : CreateTable} {sources : TableSources}

section Named

theorem mergeColumn_name (existing column : Column) :
    (mergeColumn existing column).name = existing.name := by
  unfold mergeColumn
  dsimp only
  split <;> rfl

theorem returns_mergeInheritedColumn (h : sources.Named) (column : Column) :
    Returns TableSources.Named (mergeInheritedColumn sources column) := by
  unfold mergeInheritedColumn
  cases hfind : sources.columns.find? fun c => c.name == column.name with
  | none =>
    have hfresh : column.name ∉ sources.names := by
      rw [h.names, ← any_name, Bool.not_eq_true, List.any_eq_false]
      exact List.find?_eq_none.mp hfind
    exact Returns.pure (h.append _ hfresh rfl rfl)
  | some existing =>
    refine Returns.ite (fun _ => returns_refuse _) fun _ => Returns.pure ?_
    have hmap : (updateFirst (fun c => c.name == column.name) (mergeColumn · column)
        sources.columns).map (·.name) = sources.columns.map (·.name) :=
      map_updateFirst (fun c _ => mergeColumn_name c column) _
    refine ⟨h.names.trans hmap.symm, ?_⟩
    rw [DistinctNames, hmap]
    exact h.distinct

theorem returns_mergeGeneratedColumn (h : sources.Named)
    (generated : String × GeneratedColumnState) :
    Returns TableSources.Named (mergeGeneratedColumn sources generated) :=
  Returns.ite (fun _ => returns_refuse _) fun _ => Returns.pure (h.of_same rfl rfl)

theorem returns_mergeInheritedCheck (h : sources.Named) (parent : ObjectId)
    (constraint : ConstraintState) :
    Returns TableSources.Named (mergeInheritedCheck text parent sources constraint) := by
  refine Returns.then fun s => ?_
  split
  · exact Returns.ite (fun _ => returns_refuse _) fun _ => Returns.pure (h.of_same rfl rfl)
  · exact returns_leaveUnresolved _

theorem returns_inheritFrom (h : sources.Named) (parentId : ObjectRef) :
    Returns TableSources.Named (create.inheritFrom text sources parentId) := by
  refine Returns.then fun _ => Returns.then fun s => Returns.then fun _ => ?_
  split
  · exact returns_leaveUnresolved _
  · refine Returns.bind (Returns.foldlM _ (fun _ column h => returns_mergeInheritedColumn h column)
      (h.of_same rfl rfl)) fun _ h => ?_
    refine Returns.bind (Returns.foldlM _ (fun _ generated h =>
      returns_mergeGeneratedColumn h generated) h) fun _ h => ?_
    exact Returns.foldlM _ (fun _ constraint h => returns_mergeInheritedCheck h _ constraint) h

theorem returns_copyCompositeField (h : sources.Named) (field : CompositeFieldState) :
    Returns TableSources.Named (copyCompositeField sources field) :=
  Returns.ite (fun _ => returns_refuse _) fun hfresh => Returns.pure (h.append _ hfresh rfl rfl)

theorem returns_copyLikeColumn (properties : LikeProperties) (h : sources.Named)
    (column : Column) : Returns TableSources.Named (copyLikeColumn properties sources column) :=
  Returns.ite (fun _ => returns_refuse _) fun hfresh => Returns.pure
    (h.append (likeColumn properties column) hfresh rfl rfl)

theorem returns_copyIdentityColumns (h : sources.Named) (source : ObjectId)
    (properties : LikeProperties) (relation : RelationState) :
    Returns TableSources.Named (copyIdentityColumns source properties relation sources) := by
  refine Returns.ite (fun _ => Returns.foldlM _ (fun sources identity h => ?_) h) fun _ =>
    Returns.pure h
  refine Returns.then fun s => ?_
  split
  · exact returns_leaveUnresolved _
  · exact Returns.pure (h.of_same rfl rfl)

theorem returns_copyCheck (h : sources.Named) (source : ObjectId) (constraint : ConstraintState) :
    Returns TableSources.Named (copyCheck source sources constraint) := by
  refine Returns.then fun s => ?_
  split
  · exact Returns.pure (h.of_same rfl rfl)
  · exact returns_leaveUnresolved _

theorem returns_copyChecks (h : sources.Named) (source : ObjectId) (properties : LikeProperties) :
    Returns TableSources.Named (copyChecks source properties sources) :=
  Returns.ite (fun _ => Returns.then fun _ => Returns.foldlM _ (fun _ constraint h =>
    returns_copyCheck h source constraint) h) fun _ => Returns.pure h

theorem returns_copyIndexes (h : sources.Named) (source : ObjectId) (properties : LikeProperties) :
    Returns TableSources.Named (copyIndexes source properties sources) := by
  refine Returns.ite (fun _ => Returns.then fun s => ?_) fun _ => Returns.pure h
  refine Returns.foldlM _ (fun sources constraint h => ?_) (h.of_same rfl rfl)
  refine Returns.then fun s => ?_
  split
  · exact returns_leaveUnresolved _
  · exact Returns.pure (h.of_same rfl rfl)

theorem named_copyStatistics (s : AnalysisState) (statistics : List ExtendedStatisticsState)
    (h : sources.Named) : (statistics.foldl (create.copyStatistics s) sources).Named := by
  induction statistics generalizing sources with
  | nil => exact h
  | cons first statistics ih => exact ih (h.of_same rfl rfl)

theorem returns_copyLikeRelation (h : sources.Named) (like : LikeSource) :
    Returns TableSources.Named (create.copyLikeRelation like sources) := by
  refine Returns.then fun _ => Returns.then fun s => ?_
  split
  · exact returns_leaveUnresolved _
  · rename_i source _
    have hstatistics : (if like.properties.statistics = true then
        (source.extendedStatistics.entries.map (·.2)).foldl (create.copyStatistics s)
          { sources with complete := sources.complete && source.columnsComplete }
        else { sources with complete := sources.complete && source.columnsComplete }).Named := by
      split
      · exact named_copyStatistics s _ (h.of_same rfl rfl)
      · exact h.of_same rfl rfl
    refine Returns.bind (Q := TableSources.Named) ?_ fun identified h => ?_
    · refine returns_copyIdentityColumns ?_ _ _ _
      exact hstatistics.of_same rfl rfl
    have hgenerated : (if like.properties.generated = true then
        { identified with
          likeGeneratedColumns := identified.likeGeneratedColumns ++
            source.generatedColumns.entries.map fun entry => (entry.1, entry.2) }
        else identified).Named := by
      split
      · exact h.of_same rfl rfl
      · exact h
    refine Returns.bind (returns_copyChecks hgenerated _ _) fun _ h => ?_
    refine Returns.bind (returns_copyIndexes h _ _) fun _ h => ?_
    exact Returns.foldlM _ (fun _ column h => returns_copyLikeColumn _ h column) h

theorem returns_copyLike (h : sources.Named) (like : LikeSource) :
    Returns TableSources.Named (create.copyLike sources like) := by
  refine Returns.then fun s => ?_
  dsimp only
  split
  · exact Returns.foldlM _ (fun _ field h => returns_copyCompositeField h field) h
  · exact returns_copyLikeRelation h like

theorem returns_copyPartitionColumn (h : sources.Named) (column : Column) :
    Returns TableSources.Named (copyPartitionColumn sources column) :=
  Returns.ite (fun _ => returns_refuse _) fun hfresh => Returns.pure (h.append _ hfresh rfl rfl)

theorem returns_copyPartitionParent (h : sources.Named) (parentId : ObjectRef) :
    Returns TableSources.Named (copyPartitionParent sources parentId) := by
  refine Returns.then fun _ => Returns.then fun s => ?_
  split
  · exact returns_leaveUnresolved _
  · refine Returns.then fun _ => ?_
    refine Returns.bind (Returns.foldlM _ (fun _ column h => returns_copyPartitionColumn h column)
      (h.of_same rfl rfl)) fun _ h => ?_
    refine Returns.bind (Returns.foldlM _ (fun _ constraint h => returns_copyCheck h _ constraint)
      (h.of_same rfl rfl)) fun _ h => Returns.pure (h.of_same rfl rfl)

/-- However a table comes by its columns, none of their names repeats. -/
theorem returns_sources : Returns TableSources.Named (create.sources text) := by
  refine Returns.bind (Returns.foldlM _ (fun _ parent h => returns_inheritFrom h parent)
    ⟨rfl, List.nodup_nil⟩) fun _ h => ?_
  refine Returns.bind (Returns.foldlM _ (fun _ like h => returns_copyLike h like)
    (h.of_same rfl rfl)) fun _ h => ?_
  split
  · exact Returns.pure h
  · exact returns_copyPartitionParent h _

/-- The names on the way through the declared columns. -/
theorem returns_checkColumns (inherited : List Column) (names : List String)
    (columns : List ColumnMutation) :
    Returns (fun all => ∀ name ∈ all, name ∈ names ∨ name ∈ columns.map (·.name))
      (columns.foldlM (checkColumn inherited) names) := by
  induction columns generalizing names with
  | nil => exact Returns.pure fun name h => Or.inl h
  | cons column columns ih =>
    rw [List.foldlM_cons]
    have hfirst : Returns (fun next => ∀ name ∈ next, name ∈ names ∨ name = column.name)
        (checkColumn inherited names column) := by
      unfold checkColumn
      split
      · dsimp only
        split
        · exact Returns.ite (fun _ => Returns.pure fun name h => Or.inl h) fun _ => returns_refuse _
        · exact returns_refuse _
      · exact Returns.pure fun name h => by simpa using h
    refine Returns.bind hfirst fun next hnext s all t hrun name hname => ?_
    rcases ih next s all t hrun name hname with hmem | hmem
    · exact (hnext name hmem).imp_right fun h => by simp [h]
    · exact Or.inr (by simp [hmem])

/-- Where no column is written twice the expectation of the source holds: a column
whose name is taken has it from a source. -/
theorem inherited_of_taken {s t : AnalysisState} (hnamed : sources.Named)
    (honce : create.WritesColumnsOnce) {before after : List ColumnMutation}
    {column : ColumnMutation} (hcolumns : create.columns = before ++ column :: after)
    {names : List String}
    (h : (before.foldlM (checkColumn sources.columns) sources.names).run.run s = (.ok names, t))
    (hmem : column.name ∈ names) : column.name ∈ sources.columns.map (·.name) := by
  refine ((returns_checkColumns _ _ _ s names t h _ hmem).resolve_right fun hbefore => ?_) |>
    (hnamed.names ▸ ·)
  unfold WritesColumnsOnce at honce
  rw [hcolumns, List.map_append, List.nodup_append] at honce
  exact honce.2.2 _ hbefore _ (by simp) rfl

end Named

section Partition

variable {s t : AnalysisState}

/-- A partition declares no column of its own: what it lists are options of
columns that its parent has. -/
def DeclaresWithinParent (create : CreateTable) (s : AnalysisState) : Prop :=
  ∀ parent, create.partitionOf = some parent → create.inherits = [] ∧ create.likeSources = [] ∧
    ∀ column ∈ create.columns, column.ty = none ∧
      (s.presentRelation parent.id).any (·.hasColumn column.name) = true

theorem returns_copyPartitionColumns (columns : List Column) (sources : TableSources) :
    Returns (fun copied => copied.columns = sources.columns ++ columns)
      (columns.foldlM copyPartitionColumn sources) := by
  induction columns generalizing sources with
  | nil => exact Returns.pure (List.append_nil _).symm
  | cons column columns ih =>
    rw [List.foldlM_cons]
    have hfirst : Returns (fun copied => copied.columns = sources.columns ++ [column])
        (copyPartitionColumn sources column) :=
      Returns.ite (fun _ => returns_refuse _) fun _ => Returns.pure rfl
    refine Returns.bind hfirst fun copied hcopied s result t hrun => ?_
    rw [ih copied s result t hrun, hcopied, List.append_assoc]
    rfl

theorem returns_copyChecks_columns (source : ObjectId) (constraints : List ConstraintState)
    (sources : TableSources) : Returns (fun copied => copied.columns = sources.columns)
      (constraints.foldlM (copyCheck source) sources) := by
  refine Returns.foldlM _ (fun copied constraint hcopied => ?_) rfl
  refine Returns.then fun s => ?_
  split
  · exact Returns.pure hcopied
  · exact returns_leaveUnresolved _

/-- The columns of a partition parent are copied as the statement finds them. -/
theorem copyPartitionParent_ok {sources copied : TableSources} {parentId : ObjectRef}
    (h : (copyPartitionParent sources parentId).run.run s = (.ok copied, t)) :
    ∃ parent, s.columnNet.objects parentId.id = some parent ∧
      copied.columns = sources.columns ++ parent.columns := by
  obtain ⟨_, u, htarget, hcopy⟩ := exists_run_of_bind h
  have hquiet : Quiet s u := by
    have hkeeps := keeps_ensureRelationTarget (R := Quiet) parentId (· == .table)
      ("partition parent relation '" ++ parentId.display ++ "' does not exist")
      ("partition parent '" ++ parentId.display ++ "' is not a table") s
    rwa [Command.after, htarget] at hkeeps
  obtain ⟨v, w, hget, hparent⟩ := exists_run_of_bind hcopy
  cases hget
  cases hfound : u.presentRelation parentId.id with
  | none =>
    rw [hfound] at hparent
    cases hparent
  | some parent =>
    rw [hfound] at hparent
    dsimp only at hparent
    refine ⟨parent.tableColumns, ?_, ?_⟩
    · rw [← hquiet.objects]
      exact congrArg (Option.map RelationState.tableColumns) hfound
    · obtain ⟨_, x, -, hcolumns⟩ := exists_run_of_bind hparent
      obtain ⟨withColumns, y, hrun, hrest⟩ := exists_run_of_bind hcolumns
      obtain ⟨withChecks, z, hchecks, hdone⟩ := exists_run_of_bind hrest
      have hfirst := returns_copyPartitionColumns _ _ x withColumns y hrun
      have hsecond := returns_copyChecks_columns _ _ _ y withChecks z hchecks
      cases hdone
      exact hsecond.trans hfirst

theorem sources_ok {parent : ObjectRef} (hparent : create.partitionOf = some parent)
    (hdeclares : create.DeclaresWithinParent s) {copied : TableSources}
    (h : (create.sources text).run.run s = (.ok copied, t)) :
    ∃ table, s.columnNet.objects parent.id = some table ∧ copied.columns = table.columns := by
  obtain ⟨hinherits, hlike, -⟩ := hdeclares parent hparent
  unfold CreateTable.sources at h
  rw [hinherits, hlike, hparent] at h
  exact copyPartitionParent_ok h

theorem not_hasColumn_of_checkColumn {inherited : List Column} {names : List String}
    {column : ColumnMutation} (hty : column.ty = none) {names' : List String}
    (h : (checkColumn inherited names column).run.run s = (.ok names', t)) :
    column.name ∉ names := by
  intro hmem
  unfold checkColumn at h
  rw [if_pos hmem, hty] at h
  dsimp only at h
  split at h
  · rename_i hright
    cases hright
  · cases h

/-- What a plan that stands says of the columns of its table. -/
theorem plan_ok {plan : TablePlan} (h : (create.plan text).run.run s = (.ok plan, t)) :
    DistinctNames plan.sources.columns ∧
      ∀ parent, create.partitionOf = some parent → create.DeclaresWithinParent s →
        create.columns = [] ∧ ∃ table, s.columnNet.objects parent.id = some table ∧
          plan.sources.columns = table.columns := by
  obtain ⟨sources, u, hsources, hplan⟩ := exists_run_of_bind h
  obtain ⟨names, v, hnames, hrest⟩ := exists_run_of_bind hplan
  have hnamed : sources.Named := returns_sources s sources u hsources
  have hplanned : plan.sources = sources := by
    refine (?_ : Returns (fun plan => plan.sources = sources) _) v plan t hrest
    refine Returns.then fun _ => Returns.then fun _ => Returns.then fun _ => Returns.then fun _ =>
      Returns.then fun _ => Returns.then fun _ => Returns.then fun _ => ?_
    exact Returns.pure rfl
  rw [hplanned]
  refine ⟨hnamed.distinct, fun parent hparent hdeclares => ?_⟩
  obtain ⟨table, htable, hcolumns⟩ := sources_ok hparent hdeclares hsources
  refine ⟨?_, table, htable, hcolumns⟩
  cases hdeclared : create.columns with
  | nil => rfl
  | cons column columns =>
    -- an option of a parent's column carries no type, which the check refuses
    rw [hdeclared, List.foldlM_cons] at hnames
    obtain ⟨_, w, hfirst, -⟩ := exists_run_of_bind hnames
    obtain ⟨hty, hhas⟩ := (hdeclares parent hparent).2.2 column (hdeclared ▸ List.mem_cons_self)
    refine absurd ?_ (not_hasColumn_of_checkColumn hty hfirst)
    obtain ⟨relation, hrelation, hname⟩ := Option.any_eq_true _ _ |>.mp hhas
    have htable' : some relation.tableColumns = some table := by
      rw [← htable]
      exact (congrArg (Option.map RelationState.tableColumns) hrelation).symm
    rw [hnamed.names, hcolumns, ← Option.some.inj htable']
    exact any_name.mp hname

end Partition

end CreateTable

end SafeMigrate
