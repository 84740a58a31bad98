import SafeMigrate.ColumnAttachment
import SafeMigrate.ColumnCreation
import SafeMigrate.DefaultPartitionRuns

/-! Runs of `CREATE TABLE`, `ATTACH` and `DETACH PARTITION` and the actions on
columns: which of them keep the columns of partitions those of their parents. -/

namespace SafeMigrate

open Command AnalysisState MirroredLinks

/-- The statements that create, link and change the columns of tables. -/
inductive ColumnStatement
  | createTable (create : CreateTable)
  | alterPartition (alter : AlterPartition)
  | alterColumn (alter : AlterColumn)

namespace AnalysisState

def applyColumnStatement (s : AnalysisState) (text : ColumnText) :
    ColumnStatement → MutationResult × AnalysisState
  | .createTable create => s.applyCreateTable text.toSqlText create
  | .alterPartition alter => s.applyAlterPartition text.toPartitionText alter
  | .alterColumn alter => s.applyAlterColumn text alter

/-- Along every partition edge between present relations whose columns are all
known, the columns have the same names, and the same declared types. -/
def PartitionsMirrorParents (text : PartitionText) (s : AnalysisState) : Prop :=
  ∀ e ∈ s.graph.edges, e.kind = .partitionOf → ∀ parent child,
    s.presentRelation e.referenced = some parent → s.presentRelation e.dependent = some child →
    parent.columnsComplete = true → child.columnsComplete = true →
    SameColumns text parent.columns child.columns

variable {text : PartitionText} {s t : AnalysisState}

theorem ColumnsInOrder.mirrors (h : s.ColumnsInOrder text) : s.PartitionsMirrorParents text := by
  intro e he hkind parent child hparent hchild
  refine h.mirrored _ (mem_columnLinks.mpr ⟨e, he, isPartitionOf_iff.mpr hkind, rfl⟩)
    parent.tableColumns child.tableColumns ?_ ?_
  · exact congrArg (Option.map RelationState.tableColumns) hparent
  · exact congrArg (Option.map RelationState.tableColumns) hchild

/-- Where there is no edge yet, nothing has to mirror anything. -/
theorem settled_of_empty (hgraph : s.graph = .empty) (hevidence : s.evidence.records = [])
    (hdistinct : ∀ k relation, s.presentRelation k = some relation →
      DistinctNames relation.columns) : s.Settled text := by
  have hnone (link : ObjectId × ObjectId) : link ∉ s.columnNet.links := by
    rw [mem_columnLinks, hgraph]
    rintro ⟨e, he, -⟩
    cases he
  refine Or.inr ⟨hevidence, fun e he => ?_, fun link hlink => absurd hlink (hnone link),
    fun k table hk => ?_, fun link hlink => absurd hlink (hnone link)⟩
  · rw [hgraph] at he
    cases he
  · obtain ⟨relation, hrelation, rfl⟩ := Option.map_eq_some_iff.mp hk
    exact fun _ => hdistinct k relation hrelation

end AnalysisState

/-- What a statement may do in the state it meets, for partitions to keep the
columns of their parents. -/
def ColumnStatement.SparesPartitions (s : AnalysisState) : ColumnStatement → Prop
  | .createTable create => create.DeclaresWithinParent s
  | .alterPartition _ => True
  | .alterColumn alter => alter.SparesPartitions s

/-- States reached by statements that are all `allowed` in the state they meet. -/
inductive ColumnRun (text : ColumnText) (allowed : AnalysisState → ColumnStatement → Prop)
    (s : AnalysisState) : AnalysisState → Prop
  | start : ColumnRun text allowed s s
  | step {t : AnalysisState} {statement : ColumnStatement} (before : ColumnRun text allowed s t)
      (here : allowed t statement) :
      ColumnRun text allowed s (t.applyColumnStatement text statement).2

theorem AnalysisState.Settled.step {text : ColumnText} {s : AnalysisState}
    (h : s.Settled text.toPartitionText) {statement : ColumnStatement}
    (hspares : statement.SparesPartitions s) :
    (s.applyColumnStatement text statement).2.Settled text.toPartitionText := by
  cases statement with
  | createTable create =>
    have hafter : ((create.command text.toSqlText).after s).Settled text.toPartitionText :=
      CreateTable.settled_command h hspares
    rwa [← outcome_snd] at hafter
  | alterPartition alter =>
    have hafter : ((alter.command text.toPartitionText).after s).Settled text.toPartitionText :=
      AlterPartition.settled_command h
    rwa [← outcome_snd] at hafter
  | alterColumn alter =>
    have hafter : ((alter.command text).after s).Settled text.toPartitionText :=
      AlterColumn.settled_command h hspares
    rwa [← outcome_snd] at hafter

/-- In a run of statements that spare the partitions, these mirror the columns
of their parents, as long as nothing is tainted. -/
theorem columnRun_mirrors {text : ColumnText} {s t : AnalysisState}
    (hs : s.Settled text.toPartitionText)
    (hrun : ColumnRun text (fun s statement => statement.SparesPartitions s) s t) :
    t.confidence = .tainted ∨ t.PartitionsMirrorParents text.toPartitionText := by
  have hsettled : t.Settled text.toPartitionText := by
    induction hrun with
    | start => exact hs
    | step _ hspared ih => exact ih.step hspared
  exact hsettled.imp_right fun h => h.2.mirrors

section ListedColumns

/-- The readings that the statements below ask for. -/
def columnText : ColumnText := { listText with typeModifier := fun _ => none }

def renameListed : ColumnStatement :=
  .alterColumn { id := publicTable "listed", action := .renameColumn "a" "b" }

def addToListed : ColumnStatement :=
  .alterColumn { id := publicTable "listed", action := .addColumn { name := "b", ty := some "integer" } }

/-- A table that is partitioned by its only column, and a partition of it. -/
def listedTable : CreateTable :=
  { id := publicTable "listed", columns := [integerColumn], partitionKeys := [("a", "a")],
    partitionStrategy := some "list", partitionBy := some "PARTITION BY LIST (a)" }

def firstPartition : CreateTable :=
  { id := publicTable "first", partitionOf := some (publicTable "listed"),
    partitionBound := some "FOR VALUES IN (1)" }

def listedOnly : AnalysisState :=
  (publicOnly.applyColumnStatement columnText (.createTable listedTable)).2

def withFirst : AnalysisState :=
  (listedOnly.applyColumnStatement columnText (.createTable firstPartition)).2

/-- Whether all the columns of a table are known, and their names. -/
def columnNames (s : AnalysisState) (name : String) : Option (Bool × List String) :=
  (s.presentRelation (publicTable name).id).map fun relation =>
    (relation.columnsComplete, relation.columns.map (·.name))

theorem publicOnly_settled {text : PartitionText} : publicOnly.Settled text := by
  refine settled_of_empty rfl rfl fun k relation hrelation => ?_
  cases hrelation

/-- A column renamed on the parent is renamed on the partition. -/
theorem renameListed_mirrors :
    ((withFirst.applyColumnStatement columnText renameListed).2.confidence = .tainted ∨
      (withFirst.applyColumnStatement columnText renameListed).2.PartitionsMirrorParents
        columnText.toPartitionText) ∧
    columnNames (withFirst.applyColumnStatement columnText renameListed).2 "first" =
      some (true, ["b"]) := by
  refine ⟨columnRun_mirrors publicOnly_settled (.step (.step (.step .start ?_) ?_) ?_),
    by decide +kernel⟩
  · rintro parent ⟨⟩
  · rintro parent ⟨⟩
    exact ⟨rfl, rfl, by simp [firstPartition]⟩
  · refine Or.inr ?_
    show ∀ e ∈ withFirst.graph.edges, e.kind = .partitionOf →
      ((e.dependent = _ ∨ e.dependent ∈ _) ↔ (e.referenced = _ ∨ e.referenced ∈ _))
    decide +kernel

/-- The statements as they are issued on a partitioned parent. -/
def ColumnStatement.IsOnParent (s : AnalysisState) : ColumnStatement → Prop
  | .alterColumn alter => alter.only = false ∧
      (s.presentRelation alter.id.id).any (·.partitionType.isSome) = true
  | _ => True

/-- A column added to the parent does not reach the partition. -/
theorem addToListed_unmirrored :
    ColumnRun columnText (fun s statement => statement.IsOnParent s) publicOnly
      (withFirst.applyColumnStatement columnText addToListed).2 ∧
    publicOnly.Settled columnText.toPartitionText ∧
    (withFirst.applyColumnStatement columnText addToListed).2.confidence = .exact ∧
    columnNames (withFirst.applyColumnStatement columnText addToListed).2 "listed" =
      some (true, ["a", "b"]) ∧
    columnNames (withFirst.applyColumnStatement columnText addToListed).2 "first" =
      some (true, ["a"]) ∧
    ¬(withFirst.applyColumnStatement columnText addToListed).2.PartitionsMirrorParents
      columnText.toPartitionText := by
  have hlisted : columnNames (withFirst.applyColumnStatement columnText addToListed).2 "listed" =
      some (true, ["a", "b"]) := by decide +kernel
  have hfirst : columnNames (withFirst.applyColumnStatement columnText addToListed).2 "first" =
      some (true, ["a"]) := by decide +kernel
  refine ⟨.step (.step (.step .start trivial) trivial) ⟨rfl, by decide +kernel⟩,
    publicOnly_settled, by decide +kernel, hlisted, hfirst, fun hmirrors => ?_⟩
  obtain ⟨parent, hparent, hparentNames⟩ := Option.map_eq_some_iff.mp hlisted
  obtain ⟨child, hchild, hchildNames⟩ := Option.map_eq_some_iff.mp hfirst
  obtain ⟨hcomplete, hnames⟩ := Prod.mk.inj hparentNames
  obtain ⟨hcomplete', hnames'⟩ := Prod.mk.inj hchildNames
  have hsame := hmirrors ⟨(publicTable "first").id, (publicTable "listed").id, .partitionOf⟩
    (by decide +kernel) rfl parent child hparent hchild hcomplete hcomplete'
  have hb := (hsame.names "b").mp
  rw [hnames, hnames'] at hb
  revert hb
  decide

end ListedColumns

end SafeMigrate
