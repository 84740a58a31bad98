import SafeMigrate.ColumnCommands
import SafeMigrate.ColumnSources
import SafeMigrate.NotNullConstraints
import SafeMigrate.PartitionCreation

/-! Columns defined as `NOT NULL`, by `ADD COLUMN` and by `CREATE TABLE`: what
registers their constraints, and which later write could take a name back. -/

namespace SafeMigrate

open Command AnalysisState

namespace AnalysisState

variable {s t : AnalysisState} {table : ObjectId} {column name : String}

section Names

/-- More candidates make no difference once one of them is free. -/
theorem firstFree_add {α : Type} {taken : α → Bool} {candidate : Nat → α} {fuel suffix : Nat}
    (hfree : taken (firstFree taken candidate fuel suffix) = false) (more : Nat) :
    firstFree taken candidate (fuel + more) suffix = firstFree taken candidate fuel suffix := by
  induction fuel generalizing suffix with
  | zero =>
    rw [firstFree] at hfree ⊢
    cases more with
    | zero => rfl
    | succ more => rw [Nat.zero_add, firstFree, if_neg (by simp [hfree])]
  | succ fuel ih =>
    rw [Nat.add_right_comm]
    by_cases htaken : taken (candidate suffix) = true
    · rw [firstFree, if_pos htaken] at hfree ⊢
      rw [firstFree, if_pos htaken]
      exact ih hfree
    · rw [firstFree, firstFree, if_neg htaken, if_neg htaken]

theorem constraintNameIsTaken_notNullName (s : AnalysisState) (table : ObjectId) (column : String) :
    s.constraintNameIsTaken table.schema (s.notNullName table column) = false :=
  (s.nextGeneratedConstraintName_fresh table table.name (some column) "not_null" []).2

/-- The name depends on the constraints alone. -/
theorem notNullName_congr (h : t.constraints = s.constraints) (table : ObjectId) (column : String) :
    t.notNullName table column = s.notNullName table column := by
  have hs := s.constraintNameIsTaken_notNullName table column
  have ht := t.constraintNameIsTaken_notNullName table column
  have htaken : t.constraintNameIsTaken = s.constraintNameIsTaken := by
    unfold constraintNameIsTaken
    rw [h]
  unfold notNullName nextGeneratedConstraintNameAvoiding at hs ht ⊢
  simp only [List.not_mem_nil, decide_false, Bool.false_or, List.length_nil, Nat.zero_add,
    htaken] at hs ht ⊢
  rcases Nat.le_total s.nameFuel t.nameFuel with hle | hle
  · obtain ⟨more, hmore⟩ := Nat.exists_eq_add_of_le hle
    rw [hmore]
    exact firstFree_add hs more
  · obtain ⟨more, hmore⟩ := Nat.exists_eq_add_of_le hle
    rw [hmore]
    exact (firstFree_add ht more).symm

/-- The name ends in its label, or in the number that tells it from others. -/
theorem getLast?_notNullName (s : AnalysisState) (table : ObjectId) (column : String) :
    (s.notNullName table column).toList.getLast? ≠ some 'y' := by
  obtain ⟨k, -, hk, -⟩ := firstFree_stops _ (fun suffix =>
    postgresObjectName table.name (some column) (suffixedLabel "not_null" suffix)) _ 0
  obtain ⟨start, hstart⟩ :=
    postgresObjectName_toList table.name (some column) (suffixedLabel "not_null" k)
  have hname : (s.notNullName table column).toList =
      (start ++ ['_']) ++ (suffixedLabel "not_null" k).toList := by
    rw [notNullName, nextGeneratedConstraintNameAvoiding, hk, hstart, List.append_assoc]
    rfl
  have hlabel : "not_null".toList = "not_nul".toList ++ ['l'] := rfl
  have hdigits := trailingDigits_suffixedLabel hlabel rfl k hname
  intro hlast
  obtain ⟨before, hbefore⟩ := List.getLast?_eq_some_iff.mp hlast
  have hnone : trailingDigits (s.notNullName table column) = [] := by
    rw [trailingDigits, hbefore]
    simp
  by_cases hzero : k = 0
  · subst hzero
    rw [hname, suffixedLabel, if_pos rfl, hlabel, ← List.append_assoc] at hbefore
    have hchars := List.append_inj_right' hbefore rfl
    simp at hchars
  · rw [hnone, if_neg hzero] at hdigits
    simp [toString, Nat.repr] at hdigits

end Names

section Guards

theorem GuardedBy.of_lookup (h : s.GuardedBy table column name)
    (hlookup : t.constraints.lookup (table, name) = s.constraints.lookup (table, name))
    (hedges : ∀ e ∈ s.graph.edges, e ∈ t.graph.edges) : t.GuardedBy table column name := by
  obtain ⟨⟨constraint, hconstraint, hkind⟩, e, he, hshows⟩ := h
  exact ⟨⟨constraint, hlookup.trans hconstraint, hkind⟩, e, hedges e he, hshows⟩

theorem GuardedBy.addGraphEdge (h : s.GuardedBy table column name) (edge : DependencyEdge) :
    (s.addGraphEdge edge).GuardedBy table column name := by
  refine h.of_lookup (by rw [addGraphEdge_constraints]) fun e he => ?_
  rw [addGraphEdge_graph]
  exact DependencyGraph.mem_addEdge.mpr (Or.inl he)

/-- A constraint under another name overwrites nothing of it. -/
theorem GuardedBy.putConstraint (h : s.GuardedBy table column name) {constraint : ConstraintState}
    (hne : constraint.name ≠ name) : (s.putConstraint constraint).GuardedBy table column name := by
  refine h.of_lookup ?_ fun e he => by rwa [putConstraint_graph]
  rw [putConstraint_constraints]
  refine AList.lookup_insert_ne fun heq => hne ?_
  exact (congrArg Prod.snd heq).symm

theorem GuardedBy.registerNotNull (h : s.GuardedBy table column name) (other : String) :
    (registerNotNullConstraint table s other).GuardedBy table column name := by
  by_cases hskip : s.conservativePgVersion < 180000 ∨ s.notNullConstraintForColumn table other ≠ none
  · rw [registerNotNullConstraint_of_some hskip]
    exact h
  · push Not at hskip
    rw [registerNotNullConstraint_of_none hskip.1 hskip.2]
    refine GuardedBy.addGraphEdge (h.putConstraint ?_) _
    intro heq
    obtain ⟨⟨constraint, hconstraint, -⟩, -⟩ := h
    have hnew : s.notNullName table other = name := heq
    rw [← hnew, lookup_notNullName] at hconstraint
    cases hconstraint

theorem registerNotNull_version (s : AnalysisState) (table : ObjectId) (other : String) :
    (registerNotNullConstraint table s other).conservativePgVersion = s.conservativePgVersion := by
  have hgraph (u : AnalysisState) (g : DependencyGraph) :
      (u.setGraph g).conservativePgVersion = u.conservativePgVersion := rfl
  have hconstraints (u : AnalysisState) (m : KeyedMap (ObjectId × String) ConstraintState) :
      (u.setConstraints m).conservativePgVersion = u.conservativePgVersion := rfl
  unfold registerNotNullConstraint
  split
  · rfl
  · simp only [AnalysisState.addGraphEdge, AnalysisState.putConstraint, hgraph, hconstraints,
      snapshotGraph, snapshotConstraint, pushUndo_conservativePgVersion]

theorem notNullConstraint_registerNotNull {other : String} (hother : other ≠ column)
    (hnone : s.notNullConstraintForColumn table column = none) :
    (registerNotNullConstraint table s other).notNullConstraintForColumn table column = none := by
  by_cases hskip : s.conservativePgVersion < 180000 ∨ s.notNullConstraintForColumn table other ≠ none
  · rw [registerNotNullConstraint_of_some hskip]
    exact hnone
  · push Not at hskip
    rw [registerNotNullConstraint_of_none hskip.1 hskip.2]
    by_contra hread
    obtain ⟨key, hkey⟩ := Option.ne_none_iff_exists'.mp hread
    obtain ⟨-, e, he, hresolve, hkind⟩ := notNullConstraint_eq_some hkey
    rw [addGraphEdge_graph, putConstraint_graph] at he hresolve
    rw [DependencyGraph.resolveRename_congr (DependencyGraph.aliases_addEdge rfl)] at hresolve
    rcases DependencyGraph.mem_addEdge.mp he with hold | hnew
    · exact notNullConstraint_eq_none hnone key.2 e ⟨hold, hresolve, hkind⟩
    · rw [hnew] at hkind
      have hcolumns : [other] = [column] := by
        injection hkind
      exact hother (List.head_eq_of_cons_eq hcolumns)

/-- A column without a constraint has the one that its own turn registers. -/
theorem guardedBy_registerNotNulls (columns : List String) (hcolumn : column ∈ columns)
    (hversion : 180000 ≤ s.conservativePgVersion)
    (hnone : s.notNullConstraintForColumn table column = none) :
    (columns.foldl (registerNotNullConstraint table) s).GuardedBy table column
      (((columns.takeWhile (· ≠ column)).foldl (registerNotNullConstraint table) s).notNullName
        table column) := by
  induction columns generalizing s with
  | nil => cases hcolumn
  | cons other columns ih =>
    by_cases hother : other = column
    · subst hother
      have hkept (u : AnalysisState) (rest : List String) {name : String}
          (hu : u.GuardedBy table other name) :
          (rest.foldl (registerNotNullConstraint table) u).GuardedBy table other name := by
        induction rest generalizing u with
        | nil => exact hu
        | cons c rest ihRest => exact ihRest _ (hu.registerNotNull c)
      rw [List.takeWhile_cons_of_neg (by simp), List.foldl_cons, List.foldl_nil]
      exact hkept _ columns (guardedBy_registerNotNull hversion hnone)
    · rw [List.takeWhile_cons_of_pos (by simpa using hother), List.foldl_cons, List.foldl_cons]
      refine ih ?_ ?_ ?_
      · exact (List.mem_cons.mp hcolumn).resolve_left (Ne.symm hother)
      · rwa [registerNotNull_version]
      · exact notNullConstraint_registerNotNull hother hnone

end Guards

/-- Registering a column reads nothing but what concerns constraints. -/
theorem SameConstraints.registerNotNull (h : SameConstraints s t) (table : ObjectId)
    (column : String) :
    SameConstraints (registerNotNullConstraint table s column)
      (registerNotNullConstraint table t column) := by
  by_cases hskip : s.conservativePgVersion < 180000 ∨ s.notNullConstraintForColumn table column ≠ none
  · have hskip' := hskip
    rw [← h.version, ← h.notNullConstraint] at hskip'
    rw [registerNotNullConstraint_of_some hskip, registerNotNullConstraint_of_some hskip']
    exact h
  · push Not at hskip
    have hskip' := hskip
    rw [← h.version, ← h.notNullConstraint] at hskip'
    refine ⟨?_, ?_, by rw [registerNotNull_version, registerNotNull_version, h.version]⟩
    all_goals
      rw [registerNotNullConstraint_of_none hskip.1 hskip.2,
        registerNotNullConstraint_of_none hskip'.1 hskip'.2, notNullName_congr h.constraints]
    · simp only [addGraphEdge_constraints, putConstraint_constraints, h.constraints]
    · have hadded (g : DependencyGraph) (e : DependencyEdge)
          (he : e.kind.concernsConstraint = true) :
          (g.addEdge e).edgesOf DependencyKind.concernsConstraint =
            if e ∈ g.edges then g.edgesOf DependencyKind.concernsConstraint
            else g.edgesOf DependencyKind.concernsConstraint ++ [e] := by
        unfold DependencyGraph.addEdge DependencyGraph.edgesOf
        split
        · rfl
        · simp [List.filter_append, he]
      rw [addGraphEdge_graph, addGraphEdge_graph, putConstraint_graph, putConstraint_graph,
        hadded _ _ rfl, hadded _ _ rfl, h.edges]
      simp only [h.mem_edges (e := ⟨table, table, .constraintOnRelation _ [column] false⟩) rfl]

theorem SameConstraints.registerNotNulls (h : SameConstraints s t) (table : ObjectId)
    (columns : List String) :
    SameConstraints (columns.foldl (registerNotNullConstraint table) s)
      (columns.foldl (registerNotNullConstraint table) t) := by
  induction columns generalizing s t with
  | nil => exact h
  | cons column columns ih => exact ih (h.registerNotNull table column)

/-- What guards the column by this name still does. -/
def KeepsGuard (table : ObjectId) (column name : String) (s t : AnalysisState) : Prop :=
  s.GuardedBy table column name → t.GuardedBy table column name

theorem KeepsGuard.of_same (h : SameConstraints s t) : KeepsGuard table column name s t :=
  h.guardedBy.mpr

instance : KeepsEvidence (KeepsGuard table column name) where
  refl _ h := h
  trans _ _ _ h h' hs := h' (h hs)
  taint s code scope := .of_same (KeepsEvidence.taint s code scope)

theorem KeepsGuard.addGraphEdges (s : AnalysisState) (edges : List DependencyEdge) :
    KeepsGuard table column name s (s.addGraphEdges edges) := by
  intro h
  refine h.of_lookup ?_ fun e he => ?_
  · simp [AnalysisState.addGraphEdges, setGraph, snapshotGraph]
  · have hgraph : (s.addGraphEdges edges).graph = edges.foldl DependencyGraph.addEdge s.graph := by
      simp [AnalysisState.addGraphEdges, setGraph, snapshotGraph]
    rw [hgraph]
    exact DependencyGraph.mem_addEdges.mpr (Or.inl he)

theorem keepsEdgeWrites_guard (id : ObjectId) (declared : Option ObjectId) :
    KeepsEdgeWrites id declared (KeepsGuard table column name) where
  listTrigger s _ := .of_same (SameConstraints.updateRelation s _ _)
  bumpGeneration s := .of_same
    (IsTrans.trans _ _ _ (SameConstraints.pushUndo s _) ⟨rfl, rfl, rfl⟩)
  addGraphEdge s edge _ := fun h => h.addGraphEdge edge
  addGraphEdges s edges _ := .addGraphEdges s edges
  addGraphEdgeFull s edge _ := by
    intro h
    have hopen := (SameConstraints.pushUndo s (.graphSnapshot s.graph.edges)).guardedBy.mpr h
    refine hopen.of_lookup rfl fun e he => ?_
    exact DependencyGraph.mem_addEdge.mpr (Or.inl he)
  setIndexDefinition s index f := by
    refine .of_same (IsTrans.trans _ _ _ (SameConstraints.pushUndo s _) ⟨rfl, ?_, rfl⟩)
    refine DependencyGraph.edgesOf_updateIndexDefinition (fun kind hkind => ?_) index f
    cases kind <;> simp_all [DependencyKind.isIndexOnRelation, DependencyKind.concernsConstraint]

end AnalysisState

namespace AlterColumn

variable {text : ColumnText} {alter : AlterColumn} {s t : AnalysisState}

theorem sameConstraints_addColumnEdges (s : AnalysisState) (column : AddedColumn) :
    SameConstraints s (alter.addColumnEdges s column) := by
  have hreads (s : AnalysisState) (references : List String) :
      SameConstraints s (s.addGraphEdges ((references.insertionSort (· ≤ ·)).map fun reference =>
        ⟨alter.id.id, alter.id.id, .columnGeneratedFrom column.name reference⟩)) := by
    refine SameConstraints.addGraphEdges s fun edge hedge => ?_
    obtain ⟨reference, -, rfl⟩ := List.mem_map.mp hedge
    rfl
  unfold addColumnEdges
  dsimp only
  rcases column.dependsOn with _ | ⟨source, dependsOnColumn⟩
  · dsimp only
    split
    · exact hreads s _
    · exact Std.Refl.refl _
  · have hdefault : SameConstraints s (s.addGraphEdge
        ⟨alter.id.id, source, .columnGeneratedFrom column.name dependsOnColumn⟩) :=
      SameConstraints.addGraphEdge s rfl
    refine IsTrans.trans _ _ _ hdefault ?_
    dsimp only
    split
    · exact hreads _ _
    · exact Std.Refl.refl _

theorem sameConstraints_putSequence (s : AnalysisState) (id : ObjectId)
    (sequence : AnalysisState → SequenceState) : SameConstraints s (s.putSequence id sequence) :=
  IsTrans.trans _ _ _ (SameConstraints.pushUndo s _) <|
    IsTrans.trans _ _ _ (SameConstraints.pushUndo _ _) ⟨rfl, rfl, rfl⟩

theorem sameConstraints_addImplicitSequence (alter : AlterColumn) (column : AddedColumn) (sequence : ObjectId) :
    Keeps SameConstraints (alter.addImplicitSequence column sequence) := by
  refine Keeps.bind Keeps.get fun s => ?_
  dsimp only
  split
  · exact keeps_refuse _
  · exact Keeps.bind (Keeps.modify fun s => sameConstraints_putSequence s _ _) fun _ =>
      Keeps.modify fun s => SameConstraints.addGraphEdge s rfl

/-- Around the registration of its column, `ADD COLUMN` changes no constraint. -/
theorem addColumn_ok {column : AddedColumn} (hnotNull : column.notNull = true)
    (h : (alter.addColumn text column).run.run s = (.ok (), t)) :
    ∃ u, SameConstraints s u ∧
      SameConstraints (registerNotNullConstraint alter.id.id u column.name) t := by
  unfold addColumn at h
  obtain ⟨start, u, hget, h⟩ := exists_run_of_bind h
  cases hget
  dsimp only at h
  obtain ⟨_, u, hfree, h⟩ := exists_run_of_bind h
  obtain rfl := isCheck_refuseFound _ _ _ _ _ hfree
  obtain ⟨_, v, hsnapshot, h⟩ := exists_run_of_bind h
  cases hsnapshot
  obtain ⟨_, v, hrelation, h⟩ := exists_run_of_bind h
  cases hrelation
  obtain ⟨_, v, hedges, h⟩ := exists_run_of_bind h
  cases hedges
  rw [if_pos hnotNull] at h
  obtain ⟨_, v, hregister, h⟩ := exists_run_of_bind h
  cases hregister
  have hbefore (w : AnalysisState) : SameConstraints w (alter.addColumnEdges
      (w.modifyRelation alter.id.id (withAddedColumn text w column
        ((alter.implicitSequence u column).map (·.id)))) column) :=
    IsTrans.trans _ _ _ (SameConstraints.modifyRelation _ _ _)
      (sameConstraints_addColumnEdges _ column)
  refine ⟨_, IsTrans.trans _ _ _ (SameConstraints.pushUndo u _)
    (hbefore (u.snapshotRelation alter.id.id)), ?_⟩
  split at h
  · rename_i sequence _
    have hkeeps := alter.sameConstraints_addImplicitSequence column sequence.id
      (registerNotNullConstraint alter.id.id (alter.addColumnEdges
        ((u.snapshotRelation alter.id.id).modifyRelation alter.id.id (withAddedColumn text
          (u.snapshotRelation alter.id.id) column ((alter.implicitSequence u column).map (·.id))))
        column) column.name)
    unfold Command.after at hkeeps
    rwa [h] at hkeeps
  · cases h
    exact (Std.Refl.refl _ : SameConstraints _ _)

/-- `ADD COLUMN … NOT NULL` that runs to its end. -/
theorem guarded_command_iff {column : AddedColumn} (haction : alter.action = .addColumn column)
    (hnotNull : column.notNull = true) (hversion : 180000 ≤ s.conservativePgVersion)
    {result : MutationResult} (h : (alter.command text).run.run s = (.ok result, t)) :
    OtherConstraintsKept s t ∧ (t.Guarded alter.id.id column.name ↔
      s.notNullConstraintForColumn alter.id.id column.name = none ∨
        s.Guarded alter.id.id column.name) := by
  obtain ⟨start, u, hget, h⟩ := exists_run_of_bind h
  cases hget
  obtain ⟨_, u, hrecursion, h⟩ := exists_run_of_bind h
  obtain rfl := isCheck_checkRecursion s _ u hrecursion
  obtain ⟨relation, v, htarget, h⟩ := exists_run_of_bind h
  obtain ⟨rfl, -⟩ := checkTarget_ok htarget
  obtain ⟨_, w, hcolumn, h⟩ := exists_run_of_bind h
  obtain ⟨rfl, -⟩ := checkColumn_ok hcolumn
  obtain ⟨_, x, hexecute, h⟩ := exists_run_of_bind h
  cases h
  unfold execute at hexecute
  rw [haction] at hexecute
  obtain ⟨y, hbefore, hafter⟩ := addColumn_ok hnotNull hexecute
  constructor
  · intro key constraint hkey hkind
    rw [← hbefore.constraints] at hkey
    obtain ⟨hlookup, hedges⟩ := otherKept_registerNotNull y _ _ key constraint hkey hkind
    exact ⟨by rw [hafter.constraints, hlookup],
      by rw [hafter.edgesOfConstraint, hedges, hbefore.edgesOfConstraint]⟩
  · rw [hafter.guarded, guarded_registerNotNull_iff (hbefore.version ▸ hversion),
      hbefore.notNullConstraint, hbefore.guarded]

end AlterColumn

namespace CreateTable

variable {text : SqlText} {create : CreateTable} {column name : String}

/-- The columns that the statement defines as `NOT NULL`, in its order. -/
def notNullColumns (create : CreateTable) : List String :=
  (create.columns.filter fun column => column.notNull || create.isPrimaryKeyColumn column).map
    (·.name)

/-- The names that a plan gives to the constraints it writes itself. -/
def TablePlan.constraintNames (plan : TablePlan) : List String :=
  plan.sources.checkConstraints.map (·.1) ++
    (plan.names.indexes.filter fun index => index.2.2.isSome).map (·.1.name) ++
    plan.names.primaryKey.toList ++ plan.names.uniqueKeys.map (·.1) ++ plan.names.foreignKeys ++
    plan.sources.partitionForeignKeys.map (·.1) ++ plan.names.inlineConstraints.map (·.name)

section Writes

variable {s : AnalysisState} {plan : TablePlan} {id : ObjectId}

theorem keepsGuard_put {constraint : ConstraintState} (hne : constraint.name ≠ name)
    (s : AnalysisState) : KeepsGuard id column name s (s.putConstraint constraint) :=
  fun h => h.putConstraint hne

theorem keepsGuard_edge (s : AnalysisState) (edge : DependencyEdge) :
    KeepsGuard id column name s (s.addGraphEdge edge) := fun h => h.addGraphEdge edge

theorem keepsGuard_addCopiedIndex (s : AnalysisState)
    {index : ObjectId × IndexKind × Option (ConstraintKind × List String)}
    (hne : index.2.2.isSome = true → index.1.name ≠ name) :
    KeepsGuard id column name s (create.addCopiedIndex s index) := by
  unfold addCopiedIndex
  dsimp only
  split
  · exact keepsGuard_edge s _
  · rename_i hkey
    exact IsTrans.trans _ _ _ (keepsGuard_edge s _) <|
      IsTrans.trans _ _ _ (keepsGuard_put (hne (by rw [hkey]; rfl)) _) (keepsGuard_edge _ _)

theorem keepsGuard_addPrimaryKey (s : AnalysisState) (hne : name ∉ plan.names.primaryKey.toList) :
    KeepsGuard id column name s (create.addPrimaryKey plan s) := by
  unfold addPrimaryKey
  split
  · exact Std.Refl.refl s
  · rename_i key hkey
    refine IsTrans.trans _ _ _ (keepsGuard_put ?_ s) (keepsGuard_edge _ _)
    rintro rfl
    exact hne (by rw [hkey]; simp [newConstraint])

theorem keepsGuard_addForeignKeys (s : AnalysisState) (generation : Nat)
    (hne : name ∉ plan.names.foreignKeys) :
    KeepsGuard id column name s (create.addForeignKeys plan s generation) := by
  unfold addForeignKeys
  split
  · exact Std.Refl.refl s
  · unfold putConstraintEdges
    refine IsTrans.trans _ _ _ (.of_same (SameConstraints.pushUndo s _)) (keeps_foldl _ ?_ _)
    intro write hwrite u h
    obtain ⟨fk, hfk, rfl⟩ := List.mem_map.mp hwrite
    have hname : fk.2.1 ∈ plan.names.foreignKeys :=
      (List.of_mem_zip (List.of_mem_zip hfk).2).1
    have hput : (u.putConstraint (create.foreignKeyWrite generation fk).1).GuardedBy id column name :=
      h.putConstraint fun heq => hne (heq ▸ hname)
    exact hput.of_lookup rfl fun e he => DependencyGraph.mem_addEdge.mpr (Or.inl he)

theorem keepsGuard_addInlineConstraint (s : AnalysisState) {constraint : InlineConstraint}
    (hne : constraint.name ≠ name) :
    KeepsGuard id column name s (create.addInlineConstraint s constraint) := by
  have hindexed : KeepsGuard id column name s (create.addExclusionIndex
      (s.putConstraint (create.newConstraint constraint.name constraint.kind constraint.definition
        constraint.backingIndex)) constraint) := by
    have hput : KeepsGuard id column name s (s.putConstraint (create.newConstraint constraint.name
        constraint.kind constraint.definition constraint.backingIndex)) := keepsGuard_put hne s
    refine IsTrans.trans _ _ _ hput ?_
    unfold addExclusionIndex
    split
    · exact keepsGuard_edge _ _
    · exact Std.Refl.refl _
  unfold addInlineConstraint
  dsimp only
  split
  · exact IsTrans.trans _ _ _ hindexed (keepsGuard_edge _ _)
  · exact IsTrans.trans _ _ _ hindexed (KeepsEvidence.taint _ _ _)

theorem keepsGuard_addParentEdges (s : AnalysisState) :
    KeepsGuard id column name s (create.addParentEdges s) := by
  unfold addParentEdges
  dsimp only
  have hinherits (t : AnalysisState) : KeepsGuard id column name t (create.inherits.foldl
      (fun s parent => s.addGraphEdge ⟨create.id.id, parent.id, .inheritanceOf⟩) t) :=
    keeps_foldl _ (fun _ _ s => keepsGuard_edge s _) t
  split
  · exact IsTrans.trans _ _ _ (keepsGuard_edge s _) (hinherits _)
  · exact hinherits s

theorem keepsGuard_addImplicitSequence (s : AnalysisState) (sequence : ImplicitSequence) :
    KeepsGuard id column name s (create.addImplicitSequence s sequence) :=
  IsTrans.trans _ _ _ (.of_same (AlterColumn.sameConstraints_putSequence s _ _))
    (keepsGuard_edge _ _)

theorem keepsGuard_addPrimaryKeyColumns (s : AnalysisState) :
    KeepsGuard id column name s (create.addPrimaryKeyColumns plan s) := by
  unfold addPrimaryKeyColumns
  split
  · exact Std.Refl.refl s
  · exact keepsGuard_edge s _

/-- What a table gains after its not-null constraints. -/
theorem keepsGuard_laterObjects (hne : name ∉ plan.constraintNames) (generation : Nat)
    (s : AnalysisState) :
    KeepsGuard id column name s
      (create.addPrimaryKeyColumns plan <|
        plan.names.inlineConstraints.foldl create.addInlineConstraint <|
          plan.sources.partitionForeignKeys.foldl (create.addInheritedForeignKey generation) <|
            create.addForeignKeys plan
              (create.addParentEdges <|
                plan.names.uniqueKeys.foldl create.addUniqueKey <|
                  create.addPrimaryKey plan <|
                    plan.sequences.foldl create.addImplicitSequence <|
                      plan.names.indexes.foldl create.addCopiedIndex <|
                        plan.sources.checkConstraints.foldl create.addCopiedCheck s)
              generation) := by
  simp only [TablePlan.constraintNames, List.mem_append, List.mem_map, List.mem_filter,
    not_or, not_exists, not_and] at hne
  obtain ⟨⟨⟨⟨⟨⟨hchecks, hindexes⟩, hprimary⟩, hunique⟩, hforeign⟩, hinherited⟩, hinline⟩ := hne
  refine IsTrans.trans _ _ _ ?_ (keepsGuard_addPrimaryKeyColumns _)
  refine IsTrans.trans _ _ _ ?_ (keeps_foldl _ (fun c hc s =>
    keepsGuard_addInlineConstraint s (hinline c hc)) _)
  refine IsTrans.trans _ _ _ ?_ (keeps_foldl _ (fun fk hfk s =>
    IsTrans.trans _ _ _ (keepsGuard_put (hinherited fk hfk) s) (keepsGuard_edge _ _)) _)
  refine IsTrans.trans _ _ _ ?_ (keepsGuard_addForeignKeys _ generation hforeign)
  refine IsTrans.trans _ _ _ ?_ (keepsGuard_addParentEdges _)
  refine IsTrans.trans _ _ _ ?_ (keeps_foldl _ (fun key hkey s =>
    IsTrans.trans _ _ _ (keepsGuard_put (hunique key hkey) s) (.addGraphEdges _ _)) _)
  refine IsTrans.trans _ _ _ ?_ (keepsGuard_addPrimaryKey _ hprimary)
  refine IsTrans.trans _ _ _ ?_ (keeps_foldl _ (fun q _ s =>
    keepsGuard_addImplicitSequence s q) _)
  refine IsTrans.trans _ _ _ ?_ (keeps_foldl _ (fun index hindex s =>
    keepsGuard_addCopiedIndex s fun hsome => hindexes index ⟨hindex, hsome⟩) _)
  exact keeps_foldl _ (fun check hcheck s =>
    IsTrans.trans _ _ _ (keepsGuard_put (hchecks check hcheck) s) (keepsGuard_edge _ _)) _

theorem getLast?_clonedConstraintName (child : ObjectId) {constraint : ConstraintState}
    (hkey : isKeyConstraint constraint.kind = true) (columns : Option (List String)) :
    (clonedConstraintName child constraint columns).toList.getLast? = some 'y' := by
  have hlast (text suffix : String) (before : List Char) (h : suffix.toList = before ++ ['y']) :
      (text ++ suffix).toList.getLast? = some 'y' := by
    rw [String.toList_append, h, ← List.append_assoc, List.getLast?_concat]
  unfold clonedConstraintName
  cases hkind : constraint.kind with
  | primaryKey => exact hlast _ _ "_pke".toList rfl
  | unique => exact hlast _ _ "_ke".toList rfl
  | check | foreignKey | notNull | exclusion =>
    rw [hkind] at hkey
    cases hkey

/-- The clone of a key constraint never takes the name of a not-null constraint. -/
theorem keepsGuard_ensurePartitionIndex (hname : name.toList.getLast? ≠ some 'y')
    (parent child : ObjectId) (constraints : List ConstraintState) (s : AnalysisState)
    (parentIndex : DependencyEdge) :
    KeepsGuard id column name s
      (ensurePartitionIndex parent child constraints s parentIndex) := by
  unfold ensurePartitionIndex
  split
  · exact Std.Refl.refl s
  · rename_i definition hdefinition
    have hwrites : KeepsEdgeWrites id none (KeepsGuard id column name) :=
      keepsEdgeWrites_guard id none
    have hchild := hwrites.ensurePartitionIndexChild hdefinition definition .tableAttach
      s.graph.partitionFuel s parentIndex.dependent child
    dsimp only
    split
    · exact hchild
    · rename_i constraint hconstraint
      split
      · exact hchild
      · refine IsTrans.trans _ _ _ hchild ?_
        have hkey := List.find?_some hconstraint
        simp only [Bool.and_eq_true] at hkey
        have hcloned (columns : Option (List String)) :
            clonedConstraintName child constraint columns ≠ name := by
          rintro rfl
          exact hname (getLast?_clonedConstraintName child hkey.2 columns)
        unfold cloneKeyConstraint
        dsimp only
        split
        · exact IsTrans.trans _ _ _ (fun h => h.putConstraint (hcloned _)) (keepsGuard_edge _ _)
        · exact IsTrans.trans _ _ _ (fun h => h.putConstraint (hcloned _)) (KeepsEvidence.taint _ _ _)

theorem keepsGuard_attachToParent (hname : name.toList.getLast? ≠ some 'y') :
    Keeps (KeepsGuard create.id.id column name) (create.attachToParent text) := by
  have hwrites : KeepsEdgeWrites create.id.id none (KeepsGuard create.id.id column name) :=
    keepsEdgeWrites_guard _ _
  have hput (s : AnalysisState) (trigger : TriggerState) :
      KeepsGuard create.id.id column name s (s.putTrigger trigger) :=
    .of_same (IsTrans.trans _ _ _ (SameConstraints.pushUndo s _) ⟨rfl, rfl, rfl⟩)
  have htrigger (s : AnalysisState) (trigger : TriggerState) :
      KeepsGuard create.id.id column name s (cloneRowTrigger create.id.id s trigger) :=
    IsTrans.trans _ _ _ (hwrites.bumpGeneration s) <|
      IsTrans.trans _ _ _ (hput _ _) <|
        IsTrans.trans _ _ _ (hwrites.listTrigger _ _)
          (hwrites.addGraphEdgeFull _ (.of_kind rfl rfl))
  unfold attachToParent
  split
  · exact Keeps.pure _
  · refine Keeps.bind (Keeps.modify fun s => ?_) fun _ => Keeps.bind ?_ fun _ =>
      Keeps.modify fun s => keeps_foldl _
        (fun e _ s => keepsGuard_ensurePartitionIndex hname _ _ _ s e) s
    · unfold setPartitionConstraint
      split
      · exact .of_same (SameConstraints.modifyRelation s _ _)
      · exact Std.Refl.refl s
    · refine Keeps.bind Keeps.get fun s => ?_
      dsimp only
      split
      · exact keeps_refuse _
      · exact Keeps.modify fun s => keeps_foldl _ (fun trigger _ s => htrigger s trigger) s

theorem returns_declareColumn (declared : RelationState × List String) (c : ColumnMutation) :
    Returns (fun next : RelationState × List String => next.2 = declared.2 ++
      if (c.notNull || create.isPrimaryKeyColumn c) = true then [c.name] else [])
      (create.declareColumn text declared c) := by
  refine Returns.then fun _ => Returns.then fun s => Returns.pure ?_
  by_cases hc : (c.notNull || create.isPrimaryKeyColumn c) = true
  · simp [hc]
  · simp [hc]

/-- The columns whose declarations say that they are not null. -/
theorem declareColumns_ok {columns : List ColumnMutation} {s t : AnalysisState}
    {declared declared' : RelationState × List String}
    (h : (columns.foldlM (create.declareColumn text) declared).run.run s = (.ok declared', t)) :
    declared'.2 = declared.2 ++ (columns.filter fun column =>
      column.notNull || create.isPrimaryKeyColumn column).map (·.name) := by
  induction columns generalizing declared s with
  | nil =>
    cases h
    simp
  | cons c columns ih =>
    rw [List.foldlM_cons] at h
    obtain ⟨next, u, hnext, h⟩ := exists_run_of_bind h
    have hdeclared := returns_declareColumn declared c s next u hnext
    rw [ih h, hdeclared, List.append_assoc]
    by_cases hc : (c.notNull || create.isPrimaryKeyColumn c) = true
    · rw [if_pos hc, List.filter_cons_of_pos (by simpa using hc)]
      rfl
    · rw [if_neg hc, List.filter_cons_of_neg (by simpa using hc)]
      rfl

end Writes

/-- The name for the constraint of the column, when the columns before it have theirs. -/
def notNullName (create : CreateTable) (s : AnalysisState) (column : String) : String :=
  ((create.notNullColumns.takeWhile (· ≠ column)).foldl
    (registerNotNullConstraint create.id.id) s).notNullName create.id.id column

/-- The names of the constraints that the statement plans in this state. -/
def plannedNames (text : SqlText) (create : CreateTable) (s : AnalysisState) : List String :=
  match (create.plan text).run.run s with
  | (.ok plan, _) => plan.constraintNames
  | (.error _, _) => []

section Execute

variable {s t : AnalysisState} {plan : TablePlan}

theorem sameConstraints_addGeneratedEdges (s : AnalysisState) (column : ColumnMutation) :
    SameConstraints s (create.addGeneratedEdges s column) := by
  unfold addGeneratedEdges
  split
  · exact Std.Refl.refl s
  · split
    · exact KeepsEvidence.taint _ _ _
    · refine SameConstraints.addGraphEdges s fun edge hedge => ?_
      obtain ⟨reference, -, rfl⟩ := List.mem_map.mp hedge
      rfl

theorem sameConstraints_noteIfTemporary (s : AnalysisState) :
    SameConstraints s (create.noteIfTemporary s) := by
  unfold noteIfTemporary
  split
  · exact ⟨rfl, rfl, rfl⟩
  · exact Std.Refl.refl s

/-- The column keeps the constraint that was registered for it, where no other
constraint of the table takes its name. -/
theorem guardedBy_addObjects (hcolumn : column ∈ create.notNullColumns)
    (hversion : 180000 ≤ s.conservativePgVersion)
    (hnone : s.notNullConstraintForColumn create.id.id column = none)
    (hfree : create.notNullName s column ∉ plan.constraintNames) (generation : Nat) :
    (create.addObjects plan generation create.notNullColumns s).GuardedBy create.id.id column
      (create.notNullName s column) := by
  have hdependencies : SameConstraints s (if plan.sources.dependencyEdges.isEmpty then s
      else s.addGraphEdges (plan.sources.dependencyEdges.map (·.val))) := by
    split
    · exact Std.Refl.refl s
    · refine SameConstraints.addGraphEdges s fun edge hedge => ?_
      obtain ⟨dependency, -, rfl⟩ := List.mem_map.mp hedge
      have hkind := dependency.2
      cases hdependency : dependency.val.kind <;>
        simp_all [DependencyKind.isColumnDependency, DependencyKind.concernsConstraint]
  have hbefore : SameConstraints s (create.columns.foldl create.addGeneratedEdges
      (if plan.sources.dependencyEdges.isEmpty then s
        else s.addGraphEdges (plan.sources.dependencyEdges.map (·.val)))) :=
    IsTrans.trans _ _ _ hdependencies
      (keeps_foldl _ (fun c _ s => sameConstraints_addGeneratedEdges s c) _)
  unfold addObjects
  dsimp only
  generalize create.columns.foldl create.addGeneratedEdges _ = u at hbefore ⊢
  refine keepsGuard_laterObjects hfree generation _ ?_
  have hregistered := guardedBy_registerNotNulls create.notNullColumns hcolumn
    (hbefore.version ▸ hversion) ((hbefore.notNullConstraint _ _).trans hnone)
  have hsame := hbefore.registerNotNulls create.id.id (create.notNullColumns.takeWhile (· ≠ column))
  rwa [notNullName_congr hsame.constraints] at hregistered

theorem guarded_execute (hcolumn : column ∈ create.notNullColumns)
    (hversion : 180000 ≤ s.conservativePgVersion)
    (hnone : s.notNullConstraintForColumn create.id.id column = none)
    (hfree : create.notNullName s column ∉ plan.constraintNames) {result : MutationResult}
    (h : (create.execute text plan).run.run s = (.ok result, t)) :
    t.Guarded create.id.id column := by
  unfold execute at h
  have hopens (s : AnalysisState) :
      SameConstraints s (s.snapshotRelation create.id.id).bumpGeneration :=
    IsTrans.trans _ _ _ (SameConstraints.pushUndo s _) <|
      IsTrans.trans _ _ _ (SameConstraints.pushUndo _ _) ⟨rfl, rfl, rfl⟩
  obtain ⟨_, u, hopen, h⟩ := exists_run_of_bind h
  have hu : SameConstraints s u := (Keeps.modify hopens).ran hopen
  obtain ⟨start, v, hget, h⟩ := exists_run_of_bind h
  have hv : v = u := IsCheck.get _ _ _ hget
  dsimp only at h
  obtain ⟨_, w, hnote, h⟩ := exists_run_of_bind h
  have hw : SameConstraints v w := (Keeps.modify sameConstraints_noteIfTemporary).ran hnote
  obtain ⟨_, x, htaint, h⟩ := exists_run_of_bind h
  have hx : SameConstraints w x := (keeps_taintIf _ _ _).ran htaint
  obtain ⟨declared, y, hdeclare, h⟩ := exists_run_of_bind h
  have hy : SameConstraints x y := (Keeps.foldlM _ _ keeps_declareColumn).ran hdeclare
  obtain ⟨_, z, hput, h⟩ := exists_run_of_bind h
  have hz : SameConstraints y z := by
    refine Keeps.ran (Keeps.modify fun s => ?_) hput
    exact ⟨rfl, rfl, rfl⟩
  obtain ⟨_, build, hbuild, h⟩ := exists_run_of_bind h
  cases hbuild
  obtain ⟨_, attached, hattach, h⟩ := exists_run_of_bind h
  cases h
  -- the columns are registered in a state that differs in no constraint
  have hsame : SameConstraints s z := IsTrans.trans _ _ _ (hv ▸ hu) <| IsTrans.trans _ _ _ hw <|
    IsTrans.trans _ _ _ hx (IsTrans.trans _ _ _ hy hz)
  have hname : create.notNullName z column = create.notNullName s column :=
    notNullName_congr (hsame.registerNotNulls _ _).constraints _ _
  have hguarded := guardedBy_addObjects hcolumn (hsame.version ▸ hversion)
    ((hsame.notNullConstraint _ _).trans hnone) (hname ▸ hfree) start.generationCounter
  have hcolumns : declared.2 = create.notNullColumns := declareColumns_ok hdeclare
  rw [hcolumns] at hattach
  exact ⟨_, (keepsGuard_attachToParent (getLast?_notNullName _ _ _)).ran hattach hguarded⟩

theorem isCheck_checkOfType : IsCheck create.checkOfType := by
  unfold checkOfType
  split
  · exact IsCheck.pure _
  · refine IsCheck.bind IsCheck.get fun s => ?_
    split
    · exact IsCheck.pure _
    · exact isCheck_refuse _
    · exact isCheck_refuse _
    · exact isCheck_leaveUnresolved _

/-- `CREATE TABLE` that runs to its end leaves the column with its constraint. -/
theorem guarded_command (hcolumn : column ∈ create.notNullColumns)
    (hversion : 180000 ≤ s.conservativePgVersion)
    (hnone : s.notNullConstraintForColumn create.id.id column = none)
    (hfree : create.notNullName s column ∉ create.plannedNames text s) {result : MutationResult}
    (h : (create.command text).run.run s = (.ok result, t)) : t.Guarded create.id.id column := by
  obtain ⟨_, u, hstrategy, hkind⟩ := exists_run_of_bind h
  obtain rfl := isCheck_refuseFound _ _ _ _ _ hstrategy
  obtain ⟨_, v, htemporary, hplace⟩ := exists_run_of_bind hkind
  obtain rfl := isCheck_refuseIf _ _ _ _ _ htemporary
  obtain ⟨_, w, htarget, hfound⟩ := exists_run_of_bind hplace
  obtain rfl := isCheck_ensureCreationTarget _ _ _ _ htarget
  obtain ⟨_, x, hnamespace, hnew⟩ := exists_run_of_bind hfound
  obtain ⟨rfl, -⟩ := checkNamespace_free hnamespace
  obtain ⟨_, y, htype, hchecked⟩ := exists_run_of_bind hnew
  obtain rfl := isCheck_checkOfType _ _ _ htype
  obtain ⟨plan, z, hplan, hexecute⟩ := exists_run_of_bind hchecked
  have hsame : SameConstraints y z := keeps_plan.ran hplan
  have hname : create.notNullName z column = create.notNullName y column :=
    notNullName_congr (hsame.registerNotNulls _ _).constraints _ _
  rw [plannedNames, hplan] at hfree
  exact guarded_execute hcolumn (hsame.version ▸ hversion)
    ((hsame.notNullConstraint _ _).trans hnone) (hname ▸ hfree) hexecute

end Execute

end CreateTable

end SafeMigrate
