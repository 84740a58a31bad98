import SafeMigrate.ColumnRuns
import SafeMigrate.RenamedDependents

/-! The scan of `DROP COLUMN` under the new name of a column: edge by edge it comes
to what it came to under the old one. -/

namespace SafeMigrate

open Command AnalysisState DependencyEdge

section Names

variable {oldName newName : String} {columns generated : List String}

theorem mem_map_renamedColumn (hnew : newName ∉ columns) :
    newName ∈ columns.map (renamedColumn oldName newName) ↔ oldName ∈ columns := by
  rw [List.mem_map]
  constructor
  · rintro ⟨name, hname, heq⟩
    by_cases hold : name = oldName
    · exact hold ▸ hname
    · rw [renamedColumn_of_ne hold] at heq
      exact absurd (heq ▸ hname) hnew
  · intro hold
    exact ⟨oldName, hold, if_pos rfl⟩

/-- A list that knows neither name does not tell them apart. -/
theorem renamedColumn_mem_iff (hold : oldName ∉ generated) (hnew : newName ∉ generated)
    (name : String) : renamedColumn oldName newName name ∈ generated ↔ name ∈ generated := by
  by_cases hname : name = oldName
  · rw [hname, renamedColumn, if_pos rfl]
    exact iff_of_false hnew hold
  · rw [renamedColumn_of_ne hname]

theorem any_map_renamedColumn (hold : oldName ∉ generated) (hnew : newName ∉ generated) :
    (columns.map (renamedColumn oldName newName)).any generated.contains =
      columns.any generated.contains := by
  rw [List.any_map]
  refine congrArg columns.any (funext fun name => ?_)
  have hname : renamedColumn oldName newName name ∈ generated ↔ name ∈ generated :=
    renamedColumn_mem_iff hold hnew name
  simp [hname]

theorem renamedColumn_inverse {name : String} (hnew : name ≠ newName) :
    renamedColumn newName oldName (renamedColumn oldName newName name) = name := by
  by_cases hname : name = oldName
  · rw [hname, renamedColumn, renamedColumn, if_pos rfl, if_pos rfl]
  · rw [renamedColumn_of_ne hname, renamedColumn_of_ne hnew]

end Names

theorem SameScanFrame.lookup {s t : AnalysisState} (h : SameScanFrame s t) (id : ObjectId) :
    (s.relations.lookup id = none ∧ t.relations.lookup id = none) ∨
      (s.relations.lookup id = some .dropped ∧ t.relations.lookup id = some .dropped) ∨
        ∃ relation relation' : RelationState, s.relations.lookup id = some (.present relation) ∧
          t.relations.lookup id = some (.present relation') ∧
            relation'.generation = relation.generation := by
  have hgeneration := h.generations id
  cases hs : s.relations.lookup id with
  | none =>
    rw [hs, Option.map_none, Option.map_eq_none_iff] at hgeneration
    exact Or.inl ⟨rfl, hgeneration⟩
  | some overlay =>
    rw [hs, Option.map_some, Option.map_eq_some_iff] at hgeneration
    obtain ⟨overlay', ht, heq⟩ := hgeneration
    cases overlay with
    | dropped =>
      cases overlay' with
      | dropped => exact Or.inr (Or.inl ⟨rfl, ht⟩)
      | present relation' => cases heq
    | present relation =>
      cases overlay' with
      | dropped => cases heq
      | present relation' => exact Or.inr (Or.inr ⟨relation, relation', rfl, ht, Option.some.inj heq⟩)

namespace AnalysisState

variable {s t : AnalysisState} {table : ObjectId} {oldName newName : String}

/-- Nothing of the table goes by the name. -/
structure FreshColumn (s : AnalysisState) (table : ObjectId) (column : String) : Prop where
  dependents : ∀ e ∈ s.graph.edges, s.standsFor table e.dependent = true →
    column ∉ e.kind.dependentColumns
  references : ∀ e ∈ s.graph.edges, s.standsFor table e.referenced = true →
    column ∉ e.kind.referencedColumns
  statistics : ∀ relation, s.presentRelation table = some relation →
    ∀ entry ∈ relation.extendedStatistics.entries, column ∉ entry.2.columns

/-- A column of the table is generated from columns of the table. -/
def GeneratesWithin (s : AnalysisState) (table : ObjectId) : Prop :=
  ∀ dependent referenced column dependsOnColumn,
    ⟨dependent, referenced, .columnGeneratedFrom column dependsOnColumn⟩ ∈ s.graph.edges →
      s.standsFor table dependent = s.standsFor table referenced

/-- What `DROP COLUMN` finds, relation by relation and before it has decided anything. -/
def SameDependents (s : AnalysisState) (table : ObjectId) (oldName newName : String)
    (t : AnalysisState) : Prop :=
  ∀ cascade relation relation', s.presentRelation table = some relation →
    t.presentRelation table = some relation' →
    ColumnScan.scanDropColumn t (t.graph.resolveRename table) newName cascade relation' =
      ColumnScan.scanDropColumn s (s.graph.resolveRename table) oldName cascade relation

/-- The edges of `t` are those of `s` one by one, with a column renamed to a name
that nothing of the table goes by. -/
structure EdgesSubstituted (s : AnalysisState) (table : ObjectId) (oldName newName : String)
    (t : AnalysisState) : Prop where
  ne : oldName ≠ newName
  frame : SameScanFrame s t
  resolve : ∀ id, t.graph.resolveRename id = s.graph.resolveRename id
  edges : t.graph.edges = s.graph.edges.map (s.substitutedEdge table oldName newName)
  fresh : s.FreshColumn table newName
  within : s.GeneratesWithin table

/-- Renaming back gives the edge again. -/
theorem substitutedEdge_inverse (hfresh : s.FreshColumn table newName) {e : DependencyEdge}
    (he : e ∈ s.graph.edges) :
    s.substitutedEdge table newName oldName (s.substitutedEdge table oldName newName e) = e := by
  have hback (b : Bool) (name : String) (hname : b = true → name ≠ newName) :
      (renamedIf newName oldName b ∘ renamedIf oldName newName b) name = id name := by
    cases b with
    | false => rfl
    | true => exact renamedColumn_inverse (hname rfl)
  have hkind : (e.kind.mapColumns (renamedIf oldName newName (s.standsFor table e.dependent))
        (renamedIf oldName newName (s.standsFor table e.referenced))).mapColumns
      (renamedIf newName oldName (s.standsFor table e.dependent))
      (renamedIf newName oldName (s.standsFor table e.referenced)) = e.kind := by
    rw [DependencyKind.mapColumns_mapColumns]
    refine Eq.trans (DependencyKind.mapColumns_congr (fun name hname => ?_) fun name hname => ?_)
      DependencyKind.mapColumns_id
    · exact hback _ name fun hstands hnew => hfresh.dependents e he hstands (hnew ▸ hname)
    · exact hback _ name fun hstands hnew => hfresh.references e he hstands (hnew ▸ hname)
  exact congrArg (DependencyEdge.mk e.dependent e.referenced) hkind

theorem edges_substituted (hfresh : s.FreshColumn table newName) :
    (s.graph.mapEdges (s.substitutedEdge table oldName newName)).edges =
      s.graph.edges.map (s.substitutedEdge table oldName newName) := by
  refine retainUnseen_eq_self ?_ (by simp)
  refine List.Nodup.map_on (fun e he e' he' heq => ?_) s.graph.nodup
  rw [← @substitutedEdge_inverse s table oldName newName hfresh e he, heq,
    substitutedEdge_inverse hfresh he']

namespace EdgesSubstituted

variable (h : EdgesSubstituted s table oldName newName t)

include h

theorem current {e : DependencyEdge} : t.dependencyEdgeIsCurrent
    (s.substitutedEdge table oldName newName e) = s.dependencyEdgeIsCurrent e := by
  obtain ⟨dependent, referenced, kind⟩ := e
  have hlookup := h.frame.lookup (s.graph.resolveRename dependent)
  unfold dependencyEdgeIsCurrent
  cases kind with
  | foreignKey | viewDependency =>
    simp only [substitutedEdge, substColumns, DependencyKind.mapColumns]
    rcases hlookup with ⟨hs, ht⟩ | ⟨hs, ht⟩ | ⟨relation, relation', hs, ht, hgeneration⟩
    · rw [h.resolve, hs, ht]
    · rw [h.resolve, hs, ht]
    · rw [h.resolve, hs, ht]
      simp only [hgeneration]
  | triggerOnTable =>
    simp only [substitutedEdge, substColumns, DependencyKind.mapColumns]
    rw [h.resolve, h.frame.triggers]
  | _ => rfl

theorem isNotNullConstraint (key : ObjectId × String) :
    ColumnScan.isNotNullConstraint t key = ColumnScan.isNotNullConstraint s key := by
  have hkind := h.frame.kinds key
  unfold ColumnScan.isNotNullConstraint
  cases hs : s.constraints.lookup key with
  | none =>
    rw [hs, Option.map_none, Option.map_eq_none_iff] at hkind
    rw [hkind]
  | some constraint =>
    rw [hs, Option.map_some, Option.map_eq_some_iff] at hkind
    obtain ⟨constraint', ht, heq⟩ := hkind
    rw [ht, Option.any_some, Option.any_some, heq]

/-- One edge, seen for the renamed column. -/
theorem scanEdge (cascade : Bool) (scan : ColumnScan) {e : DependencyEdge}
    (he : e ∈ s.graph.edges) :
    ColumnScan.scanEdge t (s.graph.resolveRename table) newName cascade scan
        (s.substitutedEdge table oldName newName e) =
      ColumnScan.scanEdge s (s.graph.resolveRename table) oldName cascade scan e := by
  have hdependents := h.fresh.dependents e he
  have hreferences := h.fresh.references e he
  obtain ⟨dependent, referenced, kind⟩ := e
  have hat (id : ObjectId) : s.standsFor table id = true ↔
      s.graph.resolveRename id = s.graph.resolveRename table := decide_eq_true_iff
  unfold ColumnScan.scanEdge
  cases kind with
  | foreignKey constraintName fromColumns toColumns =>
    simp only [DependencyKind.dependentColumns, DependencyKind.referencedColumns] at hdependents hreferences
    simp only [substitutedEdge, substColumns, DependencyKind.mapColumns, h.resolve]
    by_cases hdependent : s.graph.resolveRename dependent = s.graph.resolveRename table
    · have hstands := (hat dependent).mpr hdependent
      simp [hdependent, hstands, renamedIf, mem_map_renamedColumn (hdependents hstands)]
    · by_cases hreferenced : s.graph.resolveRename referenced = s.graph.resolveRename table
      · have hstands := (hat referenced).mpr hreferenced
        simp [hdependent, hreferenced, hstands, renamedIf,
          mem_map_renamedColumn (hreferences hstands)]
      · simp [hdependent, hreferenced]
  | constraintOnRelation constraintName columns =>
    simp only [DependencyKind.dependentColumns] at hdependents
    simp only [substitutedEdge, substColumns, DependencyKind.mapColumns, h.resolve,
      h.isNotNullConstraint]
    by_cases hdependent : s.graph.resolveRename dependent = s.graph.resolveRename table
    · have hstands := (hat dependent).mpr hdependent
      simp [hdependent, hstands, renamedIf, mem_map_renamedColumn (hdependents hstands)]
    · simp [hdependent]
  | indexOnRelation definition columns =>
    simp only [substitutedEdge, substColumns, DependencyKind.mapColumns, h.resolve]
    by_cases hreferenced : s.graph.resolveRename referenced = s.graph.resolveRename table
    · have hstands := (hat referenced).mpr hreferenced
      have hcolumns : newName ∉ columns := fun hmem =>
        hreferences hstands (List.mem_append_right _ hmem)
      simp [hreferenced, hstands, renamedIf, mem_map_renamedColumn hcolumns]
    · simp [hreferenced]
  | viewDependency generation column =>
    simp only [substitutedEdge, substColumns, DependencyKind.mapColumns, h.resolve]
    by_cases hreferenced : s.graph.resolveRename referenced = s.graph.resolveRename table
    · have hstands := (hat referenced).mpr hreferenced
      cases column with
      | none => simp [hreferenced]
      | some column =>
        have hcolumn : column ≠ newName := fun heq => hreferences hstands (by
          simp [DependencyKind.referencedColumns, heq])
        by_cases hold : column = oldName
        · simp [hreferenced, hstands, renamedIf, hold, renamedColumn]
        · simp [hreferenced, hstands, renamedIf, hold, renamedColumn, hcolumn]
    · simp [hreferenced]
  | constraintDependency constraintName columns =>
    simp only [DependencyKind.dependentColumns] at hdependents
    simp only [substitutedEdge, substColumns, DependencyKind.mapColumns, h.resolve]
    by_cases hdependent : s.graph.resolveRename dependent = s.graph.resolveRename table
    · have hstands := (hat dependent).mpr hdependent
      simp [hdependent, hstands, renamedIf, mem_map_renamedColumn (hdependents hstands)]
    · simp [hdependent]
  | columnGeneratedFrom column dependsOnColumn =>
    simp only [substitutedEdge, substColumns, DependencyKind.mapColumns, h.resolve]
    have hwithin := h.within dependent referenced column dependsOnColumn he
    by_cases hdependent : s.graph.resolveRename dependent = s.graph.resolveRename table
    · have hstands := (hat dependent).mpr hdependent
      have hstands' : s.standsFor table referenced = true := hwithin ▸ hstands
      have hcolumn : column ≠ newName := fun heq => hdependents hstands (by
        simp [DependencyKind.dependentColumns, heq])
      have hsource : dependsOnColumn ≠ newName := fun heq => hreferences hstands' (by
        simp [DependencyKind.referencedColumns, heq])
      by_cases hold : column = oldName <;> by_cases hold' : dependsOnColumn = oldName <;>
        simp [hdependent, hstands, hstands', renamedIf, hold, hold', renamedColumn, hcolumn, hsource]
    · have hreferenced : ¬s.graph.resolveRename referenced = s.graph.resolveRename table := by
        rw [← hat, ← hwithin, hat]
        exact hdependent
      simp [hdependent, hreferenced]
  | _ => rfl

/-- One round over the generated columns, none of which goes by either name. -/
theorem furtherGenerated {generated : List String} (hold : oldName ∉ generated)
    (hnew : newName ∉ generated) :
    ColumnScan.furtherGenerated t (s.graph.resolveRename table) newName generated =
      ColumnScan.furtherGenerated s (s.graph.resolveRename table) oldName generated := by
  unfold ColumnScan.furtherGenerated
  rw [h.edges, List.filterMap_map]
  refine List.filterMap_congr fun e he => ?_
  have hdependents := h.fresh.dependents e he
  obtain ⟨dependent, referenced, kind⟩ := e
  cases kind with
  | columnGeneratedFrom column dependsOnColumn =>
    simp only [Function.comp_apply, substitutedEdge, substColumns, DependencyKind.mapColumns,
      h.resolve]
    by_cases hdependent : s.graph.resolveRename dependent = s.graph.resolveRename table
    · by_cases hreferenced : s.graph.resolveRename referenced = s.graph.resolveRename table
      · have hstands : s.standsFor table dependent = true := decide_eq_true hdependent
        have hstands' : s.standsFor table referenced = true := decide_eq_true hreferenced
        have hcolumn : column ≠ newName := fun heq => hdependents hstands (by
          simp [DependencyKind.dependentColumns, heq])
        have hsource := renamedColumn_mem_iff hold hnew dependsOnColumn
        by_cases hname : column = oldName
        · simp [hdependent, hreferenced, hstands, hstands', renamedIf, hname, renamedColumn]
        · simp only [hdependent, hreferenced, hstands, hstands', renamedIf, if_true, hsource,
            renamedColumn_of_ne hname, ne_eq, hcolumn, hname]
      · simp [hreferenced]
    · simp [hdependent]
  | _ => rfl

theorem furtherGenerated_names {generated : List String} :
    oldName ∉ ColumnScan.furtherGenerated s (s.graph.resolveRename table) oldName generated ∧
      newName ∉ ColumnScan.furtherGenerated s (s.graph.resolveRename table) oldName generated := by
  unfold ColumnScan.furtherGenerated
  constructor
  · intro hmem
    obtain ⟨⟨dependent, referenced, kind⟩, -, hedge⟩ := List.mem_filterMap.mp hmem
    cases kind with
    | columnGeneratedFrom column dependsOnColumn =>
      simp only [Option.ite_none_right_eq_some, Option.some.injEq] at hedge
      obtain ⟨⟨-, -, -, hname, -⟩, rfl⟩ := hedge
      exact hname rfl
    | _ => cases hedge
  · intro hmem
    obtain ⟨⟨dependent, referenced, kind⟩, he, hedge⟩ := List.mem_filterMap.mp hmem
    cases kind with
    | columnGeneratedFrom column dependsOnColumn =>
      simp only [Option.ite_none_right_eq_some, Option.some.injEq] at hedge
      obtain ⟨⟨hdependent, -, -, -, -⟩, rfl⟩ := hedge
      exact h.fresh.dependents _ he (decide_eq_true hdependent) List.mem_cons_self
    | _ => cases hedge

theorem generatedClosure (fuel : Nat) {generated : List String} (hold : oldName ∉ generated)
    (hnew : newName ∉ generated) :
    ColumnScan.generatedClosure t (s.graph.resolveRename table) newName fuel generated =
        ColumnScan.generatedClosure s (s.graph.resolveRename table) oldName fuel generated ∧
      oldName ∉ ColumnScan.generatedClosure s (s.graph.resolveRename table) oldName fuel generated ∧
      newName ∉ ColumnScan.generatedClosure s (s.graph.resolveRename table) oldName fuel generated := by
  induction fuel generalizing generated with
  | zero => exact ⟨rfl, hold, hnew⟩
  | succ fuel ih =>
    unfold ColumnScan.generatedClosure
    dsimp only
    rw [h.furtherGenerated hold hnew]
    have hnames := @furtherGenerated_names _ _ _ _ _ h generated
    by_cases hempty : (ColumnScan.furtherGenerated s (s.graph.resolveRename table) oldName
        generated).isEmpty = true
    · rw [if_pos hempty, if_pos hempty]
      exact ⟨rfl, hold, hnew⟩
    · rw [if_neg hempty, if_neg hempty]
      apply ih
      · rw [List.mem_append, not_or]
        exact ⟨hold, hnames.1⟩
      · rw [List.mem_append, not_or]
        exact ⟨hnew, hnames.2⟩

theorem scanGeneratedEdge {scan : ColumnScan} (hold : oldName ∉ scan.generated)
    (hnew : newName ∉ scan.generated) (e : DependencyEdge) :
    ColumnScan.scanGeneratedEdge t (s.graph.resolveRename table) scan
        (s.substitutedEdge table oldName newName e) =
      ColumnScan.scanGeneratedEdge s (s.graph.resolveRename table) scan e := by
  obtain ⟨dependent, referenced, kind⟩ := e
  have hgoes (b : Bool) (columns : List String) :
      (columns.map (renamedIf oldName newName b)).any scan.generated.contains =
        columns.any scan.generated.contains := by
    cases b with
    | false => exact congrArg (·.any scan.generated.contains) (List.map_id columns)
    | true => exact any_map_renamedColumn hold hnew
  have hname (b : Bool) (name : String) :
      renamedIf oldName newName b name ∈ scan.generated ↔ name ∈ scan.generated := by
    cases b with
    | false => exact Iff.rfl
    | true => exact renamedColumn_mem_iff hold hnew name
  unfold ColumnScan.scanGeneratedEdge
  cases kind with
  | viewDependency generation column =>
    cases column with
    | none => simp only [substitutedEdge, substColumns, DependencyKind.mapColumns, h.resolve,
        Option.map_none]
    | some column => simp only [substitutedEdge, substColumns, DependencyKind.mapColumns, h.resolve,
        Option.map_some, hname]
  | foreignKey | constraintOnRelation | constraintDependency | indexOnRelation =>
    simp only [substitutedEdge, substColumns, DependencyKind.mapColumns, h.resolve, hgoes]
  | _ => rfl

theorem isRepresented (constraintName : String) :
    ColumnScan.isRepresented t (s.graph.resolveRename table) constraintName =
      ColumnScan.isRepresented s (s.graph.resolveRename table) constraintName := by
  unfold ColumnScan.isRepresented
  rw [h.edges, List.any_map]
  refine congrArg s.graph.edges.any (funext fun e => ?_)
  obtain ⟨dependent, referenced, kind⟩ := e
  cases kind with
  | foreignKey constraintName => cases constraintName <;> rfl
  | _ => rfl

theorem scanStatistics (text : SqlText) (cascade : Bool) {relation : RelationState}
    (hrelation : s.presentRelation table = some relation) (hold : relation.hasColumn oldName = true)
    (hnew : relation.hasColumn newName = false) :
    ColumnScan.scanStatistics newName cascade (relation.renameColumn text oldName newName) =
      ColumnScan.scanStatistics oldName cascade relation := by
  have hreading : (((relation.renameColumn text oldName newName).extendedStatistics.entries.map
        (·.2)).filter (·.columns.contains newName)).map (·.id) =
      ((relation.extendedStatistics.entries.map (·.2)).filter (·.columns.contains oldName)).map
        (·.id) := by
    have hfresh := h.fresh.statistics relation hrelation
    unfold RelationState.renameColumn
    simp only [hold, hnew, Bool.not_true, Bool.or_self, Bool.false_eq_true, if_false,
      MapRebuild.mapValues, List.map_map, List.filter_map]
    refine congrArg (List.map _) (List.filter_congr fun entry hentry => ?_)
    have hmem := @mem_map_renamedColumn oldName _ _ (hfresh entry hentry)
    simp only [Function.comp_apply, List.contains_eq_mem]
    exact decide_eq_decide.mpr hmem
  have hempty (l : List ExtendedStatisticsState) : l.isEmpty = (l.map (·.id)).isEmpty := by
    cases l <;> rfl
  unfold ColumnScan.scanStatistics
  dsimp only
  rw [hempty, hempty, hreading]

end EdgesSubstituted

theorem generated_scanEdge {name : String} {cascade : Bool} {scan : ColumnScan} {e : DependencyEdge}
    {column : String} (h : column ∈ (ColumnScan.scanEdge s table name cascade scan e).generated) :
    column ∈ scan.generated ∨ ∃ dependsOnColumn,
      e.kind = .columnGeneratedFrom column dependsOnColumn ∧ column ≠ name ∧
        (s.graph.resolveRename e.dependent = table ∨ s.graph.resolveRename e.referenced = table) := by
  obtain ⟨dependent, referenced, kind⟩ := e
  unfold ColumnScan.scanEdge at h
  cases kind with
  | columnGeneratedFrom generated dependsOnColumn =>
    simp only at h
    split at h
    · rename_i hends
      cases cascade with
      | false => exact Or.inl h
      | true =>
        rcases List.mem_append.mp h with hmem | hmem
        · exact Or.inl hmem
        · obtain rfl := List.mem_singleton.mp hmem
          exact Or.inr ⟨dependsOnColumn, rfl, hends.2.1, hends.1⟩
    · exact Or.inl h
  | foreignKey | constraintOnRelation | indexOnRelation | viewDependency | constraintDependency =>
    simp only at h
    repeat' split at h
    all_goals exact Or.inl h
  | _ => exact Or.inl h

theorem generated_scanGeneratedEdge (scan : ColumnScan)
    (e : DependencyEdge) : (ColumnScan.scanGeneratedEdge s table scan e).generated = scan.generated := by
  unfold ColumnScan.scanGeneratedEdge
  dsimp only
  repeat' split
  all_goals rfl

namespace EdgesSubstituted

variable (h : EdgesSubstituted s table oldName newName t)

include h

/-- The first pass over the edges, which meets no generated column of either name. -/
theorem foldl_scanEdge (cascade : Bool) (edges : List DependencyEdge) (scan : ColumnScan)
    (hedges : ∀ e ∈ edges, e ∈ s.graph.edges) (hold : oldName ∉ scan.generated)
    (hnew : newName ∉ scan.generated) :
    (edges.map (s.substitutedEdge table oldName newName)).foldl
        (ColumnScan.scanEdge t (s.graph.resolveRename table) newName cascade) scan =
      edges.foldl (ColumnScan.scanEdge s (s.graph.resolveRename table) oldName cascade) scan ∧
    oldName ∉ (edges.foldl (ColumnScan.scanEdge s (s.graph.resolveRename table) oldName cascade)
      scan).generated ∧
    newName ∉ (edges.foldl (ColumnScan.scanEdge s (s.graph.resolveRename table) oldName cascade)
      scan).generated := by
  induction edges generalizing scan with
  | nil => exact ⟨rfl, hold, hnew⟩
  | cons e edges ih =>
    have he : e ∈ s.graph.edges := hedges e List.mem_cons_self
    rw [List.map_cons, List.foldl_cons, List.foldl_cons, h.scanEdge cascade scan he]
    apply ih
    · exact fun e' he' => hedges e' (List.mem_cons_of_mem _ he')
    · intro hmem
      rcases generated_scanEdge hmem with hmem | ⟨dependsOnColumn, -, hname, -⟩
      · exact hold hmem
      · exact hname rfl
    · intro hmem
      rcases generated_scanEdge hmem with hmem | ⟨dependsOnColumn, hkind, -, hends⟩
      · exact hnew hmem
      · have hwithin := h.within e.dependent e.referenced newName dependsOnColumn (hkind ▸ he)
        have hstands : s.standsFor table e.dependent = true := by
          rcases hends with hend | hend
          · exact decide_eq_true hend
          · rw [hwithin]
            exact decide_eq_true hend
        refine h.fresh.dependents e he hstands ?_
        rw [hkind]
        exact List.mem_cons_self

theorem foldl_scanGeneratedEdge (edges : List DependencyEdge) (scan : ColumnScan)
    (hold : oldName ∉ scan.generated) (hnew : newName ∉ scan.generated) :
    (edges.map (s.substitutedEdge table oldName newName)).foldl
        (ColumnScan.scanGeneratedEdge t (s.graph.resolveRename table)) scan =
      edges.foldl (ColumnScan.scanGeneratedEdge s (s.graph.resolveRename table)) scan := by
  induction edges generalizing scan with
  | nil => rfl
  | cons e edges ih =>
    rw [List.map_cons, List.foldl_cons, List.foldl_cons, h.scanGeneratedEdge hold hnew]
    apply ih
    · rwa [AnalysisState.generated_scanGeneratedEdge]
    · rwa [AnalysisState.generated_scanGeneratedEdge]

theorem unrepresented : (t.constraints.keys.any fun key =>
      decide (t.graph.resolveRename key.1 = s.graph.resolveRename table) &&
        !ColumnScan.isRepresented t (s.graph.resolveRename table) key.2) =
    s.constraints.keys.any fun key =>
      decide (s.graph.resolveRename key.1 = s.graph.resolveRename table) &&
        !ColumnScan.isRepresented s (s.graph.resolveRename table) key.2 := by
  have hkeys (key : ObjectId × String) : key ∈ t.constraints.keys ↔ key ∈ s.constraints.keys := by
    have hkind := congrArg Option.isSome (h.frame.kinds key)
    rw [Option.isSome_map, Option.isSome_map] at hkind
    show key ∈ t.constraints ↔ key ∈ s.constraints
    rw [← AList.lookup_isSome, ← AList.lookup_isSome, hkind]
  simp only [h.resolve, h.isRepresented]
  refine Bool.eq_iff_iff.mpr ?_
  simp only [List.any_eq_true, hkeys]

theorem scanDropColumn (text : SqlText) (cascade : Bool) {relation : RelationState}
    (hrelation : s.presentRelation table = some relation) (hold : relation.hasColumn oldName = true)
    (hnew : relation.hasColumn newName = false) :
    ColumnScan.scanDropColumn t (t.graph.resolveRename table) newName cascade
        (relation.renameColumn text oldName newName) =
      ColumnScan.scanDropColumn s (s.graph.resolveRename table) oldName cascade relation := by
  have hcurrent : t.graph.edges.filter t.dependencyEdgeIsCurrent =
      (s.graph.edges.filter s.dependencyEdgeIsCurrent).map
        (s.substitutedEdge table oldName newName) := by
    rw [h.edges, List.filter_map]
    congr 2
    funext e
    exact h.current
  have hlength : t.graph.edges.length = s.graph.edges.length := by
    rw [h.edges, List.length_map]
  have hstart : (ColumnScan.scanStatistics oldName cascade relation).generated = [] := rfl
  obtain ⟨hfirst, holdFirst, hnewFirst⟩ := h.foldl_scanEdge cascade
    (s.graph.edges.filter s.dependencyEdgeIsCurrent)
    (ColumnScan.scanStatistics oldName cascade relation) (fun e he => (List.mem_filter.mp he).1)
    (by simp [hstart]) (by simp [hstart])
  unfold ColumnScan.scanDropColumn
  dsimp only
  rw [h.resolve, hcurrent, h.scanStatistics text cascade hrelation hold hnew, hfirst, hlength,
    h.unrepresented]
  generalize List.foldl (ColumnScan.scanEdge s _ oldName cascade) _ _ = first at holdFirst hnewFirst ⊢
  obtain ⟨hclosure, holdClosure, hnewClosure⟩ :=
    h.generatedClosure (s.graph.edges.length + 1) holdFirst hnewFirst
  rw [hclosure, h.foldl_scanGeneratedEdge _ _ holdClosure hnewClosure]

end EdgesSubstituted

end AnalysisState

namespace AlterColumn

variable {text : ColumnText} {alter : AlterColumn} {s t : AnalysisState} {oldName newName : String}

theorem sameDependents (honly : alter.only = true)
    (haction : alter.action = .renameColumn oldName newName)
    (h : s.applyAlterColumn text alter = (.applied, t))
    (hfollows : ∀ e ∈ s.graph.edges, s.FollowsColumn alter.id.id oldName e)
    (hfresh : s.FreshColumn alter.id.id newName) (hwithin : s.GeneratesWithin alter.id.id) :
    s.SameDependents alter.id.id oldName newName t := by
  obtain ⟨relation, hrelation, hold, hnew, rfl⟩ := renamed_of_applied honly haction h
  have hne : oldName ≠ newName := by
    rintro rfl
    rw [hold] at hnew
    cases hnew
  have hgraph : (alter.renameEverywhere text oldName newName []
      (s.columnSequences alter.id.id oldName) s).graph =
        s.graph.mapEdges (s.substitutedEdge alter.id.id oldName newName) := by
    rw [renameEverywhere_graph]
    apply DependencyGraph.mapEdges_congr
    intro e he
    obtain ⟨hdependent, hreferenced⟩ := (followsColumn_iff e).mp (hfollows e he)
    exact substColumns_congr (fun hother hmem => hother (hdependent hmem))
      fun hother hmem => hother (hreferenced hmem)
  have hsubstituted : s.EdgesSubstituted alter.id.id oldName newName
      (alter.renameEverywhere text oldName newName [] (s.columnSequences alter.id.id oldName) s) := by
    refine ⟨hne, SameScanFrame.renameEverywhere text alter _ s, fun id => ?_, ?_, hfresh, hwithin⟩
    · rw [hgraph]
      exact DependencyGraph.resolveRename_substColumns _ _ id
    · rw [hgraph]
      exact edges_substituted hfresh
  intro cascade relation₀ relation' hrelation₀ hrelation'
  rw [hrelation, Option.some.injEq] at hrelation₀
  rw [presentRelation_renameEverywhere text alter _ hrelation hold hnew, Option.some.injEq]
    at hrelation'
  subst hrelation₀ hrelation'
  exact hsubstituted.scanDropColumn text.toSqlText cascade hrelation hold hnew

/-- Exactly when the edges that name the column can be followed is a rename of the
column a substitution, and then a drop finds what it would have found before. -/
theorem renamesColumn_iff (honly : alter.only = true)
    (haction : alter.action = .renameColumn oldName newName)
    (h : s.applyAlterColumn text alter = (.applied, t)) :
    (s.ColumnSubstituted alter.id.id oldName newName t ↔
      ∀ e ∈ s.graph.edges, s.FollowsColumn alter.id.id oldName e) ∧
    (s.FreshColumn alter.id.id newName → s.GeneratesWithin alter.id.id →
      s.ColumnSubstituted alter.id.id oldName newName t →
        s.SameDependents alter.id.id oldName newName t) := by
  have hiff := columnSubstituted_iff honly haction h
  refine ⟨hiff, fun hfresh hwithin hsubstituted => ?_⟩
  exact sameDependents honly haction h (hiff.mp hsubstituted) hfresh hwithin

end AlterColumn

section Reported

def orders : ObjectId := (publicTable "orders").id

def renameOrdersColumn : AlterColumn :=
  { id := publicTable "orders", only := true, action := .renameColumn "a" "b" }

def ordersOnly : AnalysisState := (publicOnly.applyColumnStatement columnText
  (.createTable { id := publicTable "orders", columns := [integerColumn] })).2

def readsOrders : DependencyEdge := ⟨⟨"public", "report"⟩, orders, .viewDependency 0 (some "a")⟩

/-- With a view of the catalog that reads the column. -/
def reportedOrders : AnalysisState := ordersOnly.setGraph (ordersOnly.graph.addEdge readsOrders)

/-- The views that go with a column of the table. -/
def foundViews (s : AnalysisState) (column : String) : Option (List ObjectId) :=
  (s.presentRelation orders).map fun relation =>
    (ColumnScan.scanDropColumn s (s.graph.resolveRename orders) column true relation).views

/-- A primary key on the column, with its index, and a foreign key to it. -/
def keyedOrders : AnalysisState :=
  let s := (publicOnly.applyColumnStatement columnText (.createTable
    { id := publicTable "orders", columns := [{ integerColumn with isPrimaryKey := true }] })).2
  (s.applyColumnStatement columnText (.createTable
    { id := publicTable "items", columns := [{ name := "order", ty := some "integer" }],
      foreignKeys := [⟨none, publicTable "orders", ["order"], ["a"]⟩] })).2

/-- What the edges of the catalog say of the column and of its new name. -/
theorem keyedOrders_edges : keyedOrders.graph.edges.length = 3 ∧
    (∀ e ∈ keyedOrders.graph.edges,
      ("a" ∈ e.kind.dependentColumns →
        renamesDependent orders e = keyedOrders.standsFor orders e.dependent) ∧
      ("a" ∈ e.kind.referencedColumns →
        keyedOrders.renamesReferenced orders "a" e = keyedOrders.standsFor orders e.referenced)) ∧
    (∀ e ∈ keyedOrders.graph.edges, keyedOrders.standsFor orders e.dependent = true →
      "b" ∉ e.kind.dependentColumns) ∧
    (∀ e ∈ keyedOrders.graph.edges, keyedOrders.standsFor orders e.referenced = true →
      "b" ∉ e.kind.referencedColumns) ∧
    (keyedOrders.graph.edges.all fun e => match e.kind with
      | .columnGeneratedFrom .. => false
      | _ => true) = true ∧
    (keyedOrders.presentRelation orders).all (·.extendedStatistics.entries.isEmpty) = true ∧
    (keyedOrders.applyAlterColumn columnText renameOrdersColumn).1 = .applied := by
  decide +kernel

theorem keyedOrders_fresh : keyedOrders.FreshColumn orders "b" := by
  obtain ⟨-, -, hdependents, hreferences, -, hnone, -⟩ := keyedOrders_edges
  refine ⟨hdependents, hreferences, fun relation hrelation entry hentry => ?_⟩
  rw [hrelation, Option.all_some, List.isEmpty_iff] at hnone
  rw [hnone] at hentry
  cases hentry

theorem keyedOrders_within : keyedOrders.GeneratesWithin orders := by
  obtain ⟨-, -, -, -, hnone, -⟩ := keyedOrders_edges
  intro dependent referenced column dependsOnColumn hmem
  cases List.all_eq_true.mp hnone _ hmem

/-- The key, its index and the foreign key go by the new name of the column, and a drop
finds them there. -/
theorem renameOrdersColumn_renames :
    keyedOrders.graph.edges.length = 3 ∧
    keyedOrders.ColumnSubstituted orders "a" "b"
      (keyedOrders.applyAlterColumn columnText renameOrdersColumn).2 ∧
    keyedOrders.SameDependents orders "a" "b"
      (keyedOrders.applyAlterColumn columnText renameOrdersColumn).2 := by
  obtain ⟨hlength, hfollows, -, -, -, -, happlied⟩ := keyedOrders_edges
  have honly : renameOrdersColumn.only = true := rfl
  have haction : renameOrdersColumn.action = .renameColumn "a" "b" := rfl
  obtain ⟨hiff, hsame⟩ := AlterColumn.renamesColumn_iff honly haction (Prod.ext happlied rfl)
  have hsubstituted := hiff.mpr fun e he => (followsColumn_iff e).mpr (hfollows e he)
  exact ⟨hlength, hsubstituted, hsame keyedOrders_fresh keyedOrders_within hsubstituted⟩

/-- The view keeps the old name of the column, and the drop of the column misses it. -/
theorem reportedOrders_unfollowed :
    (reportedOrders.applyAlterColumn columnText renameOrdersColumn).1 = .applied ∧
    ¬reportedOrders.ColumnSubstituted orders "a" "b"
      (reportedOrders.applyAlterColumn columnText renameOrdersColumn).2 ∧
    ¬reportedOrders.SameDependents orders "a" "b"
      (reportedOrders.applyAlterColumn columnText renameOrdersColumn).2 := by
  refine ⟨by decide +kernel, fun hsubstituted => ?_, fun hsame => ?_⟩
  · have hmem := (hsubstituted _).mpr ⟨readsOrders, by decide +kernel, rfl⟩
    revert hmem
    decide +kernel
  · have hbefore : foundViews reportedOrders "a" = some [⟨"public", "report"⟩] := by decide +kernel
    have hafter : foundViews (reportedOrders.applyAlterColumn columnText renameOrdersColumn).2 "b" =
      some [] := by decide +kernel
    obtain ⟨relation, hrelation, hviews⟩ := Option.map_eq_some_iff.mp hbefore
    obtain ⟨relation', hrelation', hviews'⟩ := Option.map_eq_some_iff.mp hafter
    have hfound := congrArg ColumnScan.views (hsame true relation relation' hrelation hrelation')
    rw [hviews, hviews'] at hfound
    cases hfound

end Reported

end SafeMigrate
