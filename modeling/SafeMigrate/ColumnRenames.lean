import SafeMigrate.ColumnCommands
import SafeMigrate.ColumnSubstitution

/-! `ALTER TABLE ONLY ... RENAME COLUMN` on the dependency graph: the edges it leaves
are those there were, with the column substituted in some payloads. -/

namespace SafeMigrate

open Command AnalysisState DependencyEdge

namespace AnalysisState

variable {oldName newName : String}

/-- The sequences of a column, by their edges or by their own records. -/
def sequencesOf (s : AnalysisState) (table : ObjectId) (column : String) : List ObjectId :=
  s.ownedSequenceEdges table column ++ s.columnSequences table column

/-- The rename goes into what the edge says of its dependent. -/
def renamesDependent (table : ObjectId) (e : DependencyEdge) : Bool := decide (e.dependent = table)

/-- The rename goes into what the edge says of the relation it refers to. -/
def renamesReferenced (s : AnalysisState) (table : ObjectId) (oldName : String)
    (e : DependencyEdge) : Bool :=
  e.kind.isKeyOrGeneration && decide (e.referenced = table) ||
    e.kind.isIndexOnRelation &&
      (decide (e.referenced = table) || decide (e.referenced = s.graph.resolveRename table)) ||
        e.kind.isSequenceOwnedBy && decide (e.dependent ∈ s.sequencesOf table oldName)

section Graph

theorem updateRelation_graph (s : AnalysisState) (id : ObjectId)
    (f : RelationState → RelationState) : (s.updateRelation id f).graph = s.graph := by
  rw [updateRelation, modifyRelation_graph]
  exact s.pushUndo_graph _

theorem renameInCheck_graph (text : SqlText) (table : ObjectId) (s : AnalysisState)
    (check : String × String) : (renameInCheck text table oldName newName s check).graph = s.graph := by
  unfold renameInCheck
  dsimp only
  split
  · exact s.pushUndo_graph _
  · exact s.pushUndo_graph _

theorem renameSequenceOwner_graph (s : AnalysisState) (sequence : ObjectId) :
    (s.renameSequenceOwner newName sequence).graph = s.graph := by
  unfold renameSequenceOwner
  dsimp only
  split
  · exact s.pushUndo_graph _
  · exact s.pushUndo_graph _

theorem updatePublicationColumns_graph (s : AnalysisState) (update : String × List Nat) :
    (updatePublicationColumns oldName newName s update).graph = s.graph := by
  unfold updatePublicationColumns
  dsimp only
  split
  · split
    · exact s.pushUndo_graph _
    · exact s.pushUndo_graph _
  · exact s.pushUndo_graph _

/-- Steps that leave the graph alone. -/
theorem foldl_graph {α : Type} {f : AnalysisState → α → AnalysisState}
    (hf : ∀ s x, (f s x).graph = s.graph) (l : List α) (s : AnalysisState) :
    (l.foldl f s).graph = s.graph := by
  induction l generalizing s with
  | nil => rfl
  | cons x l ih => rw [List.foldl_cons, ih, hf]

/-- Steps that act on the graph as steps of their own. -/
theorem foldl_graph_map {α : Type} {f : AnalysisState → α → AnalysisState}
    {F : DependencyGraph → α → DependencyGraph} (hf : ∀ s x, (f s x).graph = F s.graph x)
    (l : List α) (s : AnalysisState) : (l.foldl f s).graph = l.foldl F s.graph := by
  induction l generalizing s with
  | nil => rfl
  | cons x l ih => rw [List.foldl_cons, List.foldl_cons, ih, hf]

/-- The sequence edges decide which sequences belong to a column. -/
theorem ownedSequenceEdges_congr {s t : AnalysisState} {table : ObjectId}
    (h : t.graph.edgesOf DependencyKind.isSequenceOwnedBy =
      s.graph.edgesOf DependencyKind.isSequenceOwnedBy) (column : String) :
    t.ownedSequenceEdges table column = s.ownedSequenceEdges table column := by
  have hkinds (u : AnalysisState) : u.ownedSequenceEdges table column =
      ((u.graph.edgesOf DependencyKind.isSequenceOwnedBy).filter fun e =>
        decide (e.kind = .sequenceOwnedBy column) && e.referenced == table).map (·.dependent) := by
    unfold ownedSequenceEdges DependencyGraph.edgesOf
    rw [List.filter_filter]
    congr 2
    funext e
    by_cases hkind : e.kind = .sequenceOwnedBy column
    · simp [hkind, DependencyKind.isSequenceOwnedBy]
    · simp [hkind]
  rw [hkinds, hkinds, h]

theorem renameRelationColumnMetadata_graph (text : SqlText) (table : ObjectId) (s : AnalysisState) :
    (s.renameRelationColumnMetadata text table oldName newName).graph =
      s.graph.mapEdges (substColumns oldName newName (renamesDependent table) fun e =>
        e.kind.isKeyOrGeneration && decide (e.referenced = table) ||
          e.kind.isIndexOnRelation && decide (e.referenced = table) ||
            e.kind.isSequenceOwnedBy && decide (e.dependent ∈ s.ownedSequenceEdges table oldName)) := by
  unfold renameRelationColumnMetadata
  dsimp only
  generalize hsweep : List.foldl (renameInCheck text table oldName newName) _ _ = checked
  have hchecked : checked.graph = s.graph := by
    rw [← hsweep, foldl_graph (renameInCheck_graph text table)]
    exact updateRelation_graph s table _
  have hlinked : (checked.snapshotGraphFull.setGraph
      ((checked.snapshotGraphFull.graph.renameColumnDependencies table oldName
        newName).renameIndexColumn table oldName newName)).graph =
      s.graph.mapEdges (substColumns oldName newName (renamesDependent table) fun e =>
        e.kind.isKeyOrGeneration && decide (e.referenced = table) ||
          e.kind.isIndexOnRelation && decide (e.referenced = table)) := by
    have hsnapshot : checked.snapshotGraphFull.graph = s.graph :=
      (checked.pushUndo_graph _).trans hchecked
    show DependencyGraph.renameIndexColumn _ table oldName newName = _
    rw [DependencyGraph.renameIndexColumn_eq, hsnapshot, DependencyGraph.renameColumnDependencies_eq,
      DependencyGraph.mapEdges_mapEdges]
    congr 1
    funext e
    rw [substColumns_substColumns (fun _ _ _ => rfl) fun e f g => by simp]
    congr 1
    funext e
    exact Bool.or_false _
  generalize checked.snapshotGraphFull.setGraph _ = linked at hlinked ⊢
  have hsequences : linked.ownedSequenceEdges table oldName = s.ownedSequenceEdges table oldName := by
    refine ownedSequenceEdges_congr ?_ oldName
    rw [hlinked]
    refine DependencyGraph.edgesOf_mapEdges (fun e he => ?_)
      fun e => DependencyKind.isSequenceOwnedBy_mapColumns
    obtain ⟨dependent, referenced, kind⟩ := e
    cases kind with
    | sequenceOwnedBy column => rfl
    | _ => cases he
  have hrename (u : AnalysisState) (sequence : ObjectId) :
      (renameOwnedSequence oldName newName u sequence).graph =
        u.graph.renameOwnedSequenceColumn sequence oldName newName :=
    congrArg (DependencyGraph.renameOwnedSequenceColumn · sequence oldName newName)
      (renameSequenceOwner_graph u sequence)
  rw [foldl_graph_map (F := fun g sequence => g.renameOwnedSequenceColumn sequence oldName newName)
    hrename, DependencyGraph.foldl_renameOwnedSequenceColumn, hlinked, hsequences,
    DependencyGraph.mapEdges_mapEdges]
  congr 1
  funext e
  rw [substColumns_substColumns (fun _ _ _ => rfl) fun e f g => by simp]
  congr 1
  funext e
  exact Bool.or_false _

/-- All the sweeps of a rename that reaches no other relation. -/
theorem renameEverywhere_graph (text : ColumnText) (alter : AlterColumn) (s : AnalysisState) :
    (alter.renameEverywhere text oldName newName [] (s.columnSequences alter.id.id oldName) s).graph =
      s.graph.mapEdges (substColumns oldName newName (renamesDependent alter.id.id)
        (s.renamesReferenced alter.id.id oldName)) := by
  unfold AlterColumn.renameEverywhere
  dsimp only [List.foldl_nil]
  have hupdated : (s.updateRelation alter.id.id fun relation =>
      relation.applyColumnAction text.toSqlText (.rename oldName newName)).graph = s.graph :=
    updateRelation_graph s _ _
  generalize s.updateRelation alter.id.id _ = updated at hupdated ⊢
  have hsequences : updated.ownedSequenceEdges alter.id.id oldName =
      s.ownedSequenceEdges alter.id.id oldName := by
    unfold ownedSequenceEdges
    rw [hupdated]
  have hbelow : (updated.renameRelationColumnMetadata text.toSqlText alter.id.id oldName
      newName).graph = s.graph.mapEdges (substColumns oldName newName _ _) :=
    (renameRelationColumnMetadata_graph text.toSqlText alter.id.id updated).trans
      (by rw [hupdated, hsequences])
  generalize updated.renameRelationColumnMetadata text.toSqlText alter.id.id oldName newName = below
    at hbelow ⊢
  generalize hsweep : List.foldl (updatePublicationColumns oldName newName) _ _ = listed
  have hlisted : listed.snapshotGraphFull.graph = below.graph := by
    rw [← hsweep]
    exact (pushUndo_graph _ _).trans (foldl_graph updatePublicationColumns_graph _ below)
  have hrename (u : AnalysisState) (sequence : ObjectId) :
      ((u.renameSequenceOwner newName sequence).snapshotGraphFull.setGraph
        ((u.renameSequenceOwner newName sequence).snapshotGraphFull.graph.renameOwnedSequenceColumn
          sequence oldName newName)).graph =
        u.graph.renameOwnedSequenceColumn sequence oldName newName :=
    congrArg (DependencyGraph.renameOwnedSequenceColumn · sequence oldName newName)
      ((pushUndo_graph _ _).trans (renameSequenceOwner_graph u sequence))
  rw [foldl_graph_map (F := fun g sequence => g.renameOwnedSequenceColumn sequence oldName newName)
    hrename, DependencyGraph.foldl_renameOwnedSequenceColumn]
  show ((DependencyGraph.renameIndexColumn _ _ oldName newName).mapEdges _) = _
  rw [hlisted, hbelow, DependencyGraph.resolveRename_substColumns,
    DependencyGraph.renameIndexColumn_eq, DependencyGraph.mapEdges_mapEdges,
    DependencyGraph.mapEdges_mapEdges]
  congr 1
  funext e
  rw [substColumns_substColumns (fun _ _ _ => rfl) fun e f g => by simp,
    substColumns_substColumns (fun _ _ _ => rfl) fun e f g => by simp]
  congr 1
  · funext e
    simp
  · funext e
    simp only [renamesReferenced, sequencesOf, List.mem_append, Bool.decide_or,
      Bool.and_or_distrib_left, Bool.or_assoc, Bool.or_left_comm, Bool.or_comm]

end Graph

section Substitution

variable (s : AnalysisState) (table : ObjectId) (oldName newName : String)

def standsFor (id : ObjectId) : Bool := decide (s.graph.resolveRename id = s.graph.resolveRename table)

/-- The edge, with the column of the table under its new name. -/
def substitutedEdge (e : DependencyEdge) : DependencyEdge :=
  e.substColumns oldName newName (fun e => s.standsFor table e.dependent)
    fun e => s.standsFor table e.referenced

/-- The edges are the former ones, with the column under its new name throughout. -/
def ColumnSubstituted (t : AnalysisState) : Prop :=
  ∀ e, e ∈ t.graph.edges ↔
    ∃ e' ∈ s.graph.edges, s.substitutedEdge table oldName newName e' = e

/-- Where an edge names the column of the table, a sweep of the rename goes into it:
it is no view dependency, it is at the table under its present name, and a sequence
of the column is owned through the table. -/
def FollowsColumn (e : DependencyEdge) : Prop :=
  (oldName ∈ e.kind.dependentColumns → s.standsFor table e.dependent = true → e.dependent = table) ∧
    (oldName ∈ e.kind.referencedColumns → match e.kind with
      | .viewDependency .. => s.standsFor table e.referenced = false
      | .sequenceOwnedBy _ =>
        s.standsFor table e.referenced = true ↔ e.dependent ∈ s.sequencesOf table oldName
      | .indexOnRelation .. => s.standsFor table e.referenced = true →
        e.referenced = table ∨ e.referenced = s.graph.resolveRename table
      | _ => s.standsFor table e.referenced = true → e.referenced = table)

variable {s table oldName newName}

theorem standsFor_table : s.standsFor table table = true := decide_eq_true rfl

theorem standsFor_resolved : s.standsFor table (s.graph.resolveRename table) = true :=
  decide_eq_true (DependencyGraph.resolveRename_resolveRename _ _)

theorem imp_iff_decide_eq {p : Prop} [Decidable p] {b : Bool} (h : p → b = true) :
    (b = true → p) ↔ decide p = b := by
  by_cases hp : p
  · simp [hp, h hp]
  · simp [hp]

/-- An edge follows the column if the sweeps go into it where they should, and there only. -/
theorem followsColumn_iff (e : DependencyEdge) : s.FollowsColumn table oldName e ↔
    (oldName ∈ e.kind.dependentColumns →
      renamesDependent table e = s.standsFor table e.dependent) ∧
    (oldName ∈ e.kind.referencedColumns →
      s.renamesReferenced table oldName e = s.standsFor table e.referenced) := by
  obtain ⟨dependent, referenced, kind⟩ := e
  unfold FollowsColumn
  refine and_congr ?_ ?_
  · refine imp_congr_right fun _ => ?_
    unfold renamesDependent
    by_cases hdependent : dependent = table
    · simp [hdependent, standsFor_table]
    · simp [hdependent]
  · refine imp_congr_right fun hmem => ?_
    -- the table, under either name, stands for itself
    have hat : referenced = table → s.standsFor table referenced = true := fun h =>
      h ▸ standsFor_table
    have hresolved : referenced = s.graph.resolveRename table → s.standsFor table referenced = true :=
      fun h => h ▸ standsFor_resolved
    unfold renamesReferenced
    cases kind with
    | foreignKey | columnGeneratedFrom =>
      simp only [DependencyKind.isKeyOrGeneration, DependencyKind.isIndexOnRelation,
        DependencyKind.isSequenceOwnedBy, Bool.true_and, Bool.false_and, Bool.or_false]
      exact imp_iff_decide_eq hat
    | indexOnRelation =>
      simp only [DependencyKind.isKeyOrGeneration, DependencyKind.isIndexOnRelation,
        DependencyKind.isSequenceOwnedBy, Bool.true_and, Bool.false_and, Bool.or_false,
        Bool.false_or, ← Bool.decide_or]
      exact imp_iff_decide_eq fun h => h.elim hat hresolved
    | sequenceOwnedBy =>
      simp only [DependencyKind.isKeyOrGeneration, DependencyKind.isIndexOnRelation,
        DependencyKind.isSequenceOwnedBy, Bool.true_and, Bool.false_and, Bool.false_or]
      by_cases hmember : dependent ∈ s.sequencesOf table oldName <;> simp [hmember]
    | viewDependency => exact eq_comm
    | _ => cases hmem

end Substitution

end AnalysisState

namespace AlterColumn

variable {text : ColumnText} {alter : AlterColumn} {s t : AnalysisState} {oldName newName : String}

theorem renamed_of_applied (honly : alter.only = true)
    (haction : alter.action = .renameColumn oldName newName)
    (h : s.applyAlterColumn text alter = (.applied, t)) :
    ∃ relation, s.presentRelation alter.id.id = some relation ∧ relation.hasColumn oldName = true ∧
      relation.hasColumn newName = false ∧ t = alter.renameEverywhere text oldName newName []
        (s.columnSequences alter.id.id oldName) s := by
  obtain ⟨relation, u, hrelation, hcolumn, hfinds, hexecute⟩ := executed_of_applied h
  have hdescendants : alter.descendants s = [] := by
    unfold descendants
    rw [honly]
  have hexecution : alter.execute text [] relation = alter.renameColumn text oldName newName [] := by
    unfold execute
    rw [haction]
  rw [hdescendants, hexecution] at hexecute
  cases hexecute
  unfold Finds at hfinds
  rw [haction] at hfinds
  refine ⟨relation, hrelation, hfinds, ?_, rfl⟩
  unfold checkColumn at hcolumn
  rw [haction] at hcolumn
  obtain ⟨_, u, hknown, hcolumn⟩ := exists_run_of_bind hcolumn
  obtain ⟨_, v, hold, hcolumn⟩ := exists_run_of_bind hcolumn
  obtain ⟨_, w, hfree, hcolumn⟩ := exists_run_of_bind hcolumn
  obtain ⟨-, hnew⟩ := refuseIf_ok hfree
  simpa using hnew

/-- An applied rename has substituted the column exactly if every edge that names it
is gone into. -/
theorem columnSubstituted_iff (honly : alter.only = true)
    (haction : alter.action = .renameColumn oldName newName)
    (h : s.applyAlterColumn text alter = (.applied, t)) :
    s.ColumnSubstituted alter.id.id oldName newName t ↔
      ∀ e ∈ s.graph.edges, s.FollowsColumn alter.id.id oldName e := by
  obtain ⟨relation, -, hold, hnew, rfl⟩ := renamed_of_applied honly haction h
  have hne : oldName ≠ newName := by
    rintro rfl
    rw [hold] at hnew
    cases hnew
  unfold ColumnSubstituted
  rw [renameEverywhere_graph]
  have hshape (e : DependencyEdge) : s.FollowsColumn alter.id.id oldName e ↔ _ := followsColumn_iff e
  simp only [hshape]
  have hcompare : (∀ e, e ∈ (s.graph.mapEdges (substColumns oldName newName
        (renamesDependent alter.id.id) (s.renamesReferenced alter.id.id oldName))).edges ↔
      e ∈ (s.graph.mapEdges (s.substitutedEdge alter.id.id oldName newName)).edges) ↔ _ :=
    DependencyGraph.mapEdges_substColumns_iff hne (fun _ _ _ => rfl)
      (fun e f g => by simp [renamesReferenced]) (fun _ _ _ => rfl) fun _ _ _ => rfl
  refine Iff.trans (forall_congr' fun e => ?_) hcompare
  exact iff_congr Iff.rfl DependencyGraph.mem_mapEdges.symm

end AlterColumn

end SafeMigrate
