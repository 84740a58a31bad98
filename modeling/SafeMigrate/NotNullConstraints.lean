import SafeMigrate.AlterColumn
import SafeMigrate.Aliases
import SafeMigrate.GeneratedNames

/-! `ALTER COLUMN … SET NOT NULL` and `DROP NOT NULL`, and what they make of the
constraints of the table and of the edges that show them. -/

namespace SafeMigrate

open Command AnalysisState

structure AlterNotNull where
  id : ObjectRef
  column : String
  notNull : Bool

namespace AlterNotNull

variable (text : SqlText) (alter : AlterNotNull)

def checkTarget : Statement RelationState := do
  let s ← get
  match s.relationLookup alter.id fun _ => true with
  | .wrongKind => refuse ("object '" ++ alter.id.display ++ "' is not a table")
  | .authoritativelyAbsent | .tombstone =>
    refuse ("relation '" ++ alter.id.display ++ "' does not exist")
  | .unknown => leaveUnresolved .unknownObjectState
  | .present => match s.presentRelation alter.id.id with
    | none => leaveUnresolved .unknownObjectState
    | some relation => do
      refuseIf (relation.kind.isTableLike = false)
        ("ALTER action cannot be performed on relation '" ++ alter.id.display ++ "'")
      pure relation

def checkColumn (relation : RelationState) : Statement Unit := do
  leaveUnresolvedIf (relation.columns.isEmpty = true ∧ relation.estimatedRows.isSome = false)
    .catalogCoverageIncomplete
  refuseIf (relation.hasColumn alter.column = false)
    ("column '" ++ alter.column ++ "' does not exist on relation '" ++ alter.id.display ++ "'")

def write (s : AnalysisState) : AnalysisState :=
  let s := s.updateRelation alter.id.id fun relation => relation.applyColumnAction text
    (if alter.notNull then .setNotNull alter.column else .dropNotNull alter.column)
  if alter.notNull then registerNotNullConstraint alter.id.id s alter.column
  else s.dropNotNullConstraint alter.id.id alter.column

def command : Statement MutationResult := do
  let relation ← alter.checkTarget
  alter.checkColumn relation
  modify (alter.write text)
  pure .applied

end AlterNotNull

/-- `apply_alter_table` for the two actions on nullability. -/
def AnalysisState.applyAlterNotNull (s : AnalysisState) (text : SqlText) (alter : AlterNotNull) :
    MutationResult × AnalysisState :=
  (alter.command text).outcome s

namespace DependencyKind

/-- The constraint that an edge of this kind shows. -/
def constraintName : DependencyKind → Option String
  | .foreignKey name .. => name
  | .constraintOnRelation name .. => some name
  | .constraintDependency name _ => some name
  | _ => none

/-- Aliases, and the kinds that may show a constraint. -/
def concernsConstraint : DependencyKind → Bool
  | .renameTo => true
  | .foreignKey .. => true
  | .constraintOnRelation .. => true
  | .constraintDependency .. => true
  | _ => false

end DependencyKind

/-- A search that finds nothing among other kinds looks at these alone. -/
theorem DependencyGraph.findSome?_edges {α : Type} {g : DependencyGraph} {p : DependencyKind → Bool}
    {f : DependencyEdge → Option α} (hf : ∀ e, p e.kind = false → f e = none) :
    g.edges.findSome? f = (g.edgesOf p).findSome? f := by
  unfold edgesOf
  induction g.edges with
  | nil => rfl
  | cons e edges ih =>
    cases hkind : p e.kind with
    | false => rw [List.filter_cons_of_neg (by simp [hkind]), List.findSome?_cons, hf e hkind, ih]
    | true => rw [List.filter_cons_of_pos (by simpa using hkind), List.findSome?_cons, List.findSome?_cons, ih]

namespace AnalysisState

def edgesOfConstraint (s : AnalysisState) (key : ObjectId × String) : List DependencyEdge :=
  s.graph.edges.filter fun e => e.dependent == key.1 && e.kind.constraintName == some key.2

/-- Every constraint of another kind stays as it is, with its edges. -/
def OtherConstraintsKept (s t : AnalysisState) : Prop :=
  ∀ key constraint, s.constraints.lookup key = some constraint → constraint.kind ≠ .notNull →
    t.constraints.lookup key = some constraint ∧ t.edgesOfConstraint key = s.edgesOfConstraint key

/-- The constraint by this name is a not-null constraint of the column alone. -/
def GuardedBy (s : AnalysisState) (table : ObjectId) (column name : String) : Prop :=
  (∃ constraint, s.constraints.lookup (table, name) = some constraint ∧
      constraint.kind = .notNull) ∧
    ∃ e ∈ s.graph.edges, e.dependent = table ∧ e.kind = .constraintOnRelation name [column] false

/-- A not-null constraint of the table has this column and no other. -/
def Guarded (s : AnalysisState) (table : ObjectId) (column : String) : Prop :=
  ∃ name, s.GuardedBy table column name

/-- The edges that are read as those of one not-null constraint of the column. -/
def readsAsNotNull (s : AnalysisState) (table : ObjectId) (column name : String)
    (e : DependencyEdge) : Prop :=
  e ∈ s.graph.edges ∧ s.graph.resolveRename e.dependent = table ∧
    e.kind = .constraintOnRelation name [column] false

/-- What is read as the not-null constraint of the column is one. -/
def ReadsNotNull (s : AnalysisState) (table : ObjectId) (column : String) : Prop :=
  ∀ key, s.notNullConstraintForColumn table column = some key →
    (∀ constraint, s.constraints.lookup key = some constraint → constraint.kind = .notNull) ∧
      ∀ e, s.readsAsNotNull table column key.2 e →
        ∀ constraint, s.constraints.lookup (e.dependent, key.2) = some constraint →
          constraint.kind = .notNull

section Lookup

variable {s : AnalysisState} {table : ObjectId} {column : String}

theorem notNullConstraint_eq_some {key : ObjectId × String}
    (h : s.notNullConstraintForColumn table column = some key) :
    key.1 = table ∧ ∃ e, s.readsAsNotNull table column key.2 e := by
  obtain ⟨e, he, hread⟩ := List.exists_of_findSome?_eq_some h
  split at hread
  · rename_i hresolve
    split at hread
    · rename_i name columns hkind
      split at hread
      · rename_i hcolumns
        cases hread
        exact ⟨rfl, e, he, hresolve, by rw [hkind, hcolumns]⟩
      · cases hread
    · cases hread
  · cases hread

theorem notNullConstraint_eq_none (h : s.notNullConstraintForColumn table column = none)
    (name : String) (e : DependencyEdge) : ¬s.readsAsNotNull table column name e := by
  rintro ⟨he, hresolve, hkind⟩
  have hread := List.findSome?_eq_none_iff.mp h e he
  simp [hresolve, hkind] at hread

end Lookup

/-- Nothing that concerns a constraint is changed. -/
structure SameConstraints (s t : AnalysisState) : Prop where
  constraints : t.constraints = s.constraints
  edges : t.graph.edgesOf DependencyKind.concernsConstraint =
    s.graph.edgesOf DependencyKind.concernsConstraint
  version : t.conservativePgVersion = s.conservativePgVersion

theorem taint_constraints (s : AnalysisState) (code : EvidenceCode) (scope : EvidenceScope) :
    (s.taint code scope).constraints = s.constraints := by
  unfold taint recordEvidence markTainted
  dsimp only
  split
  · rfl
  · split <;> simp [setEvidence, setConfidence, snapshotEvidence, snapshotConfidence]

theorem pushUndo_conservativePgVersion (s : AnalysisState) (change : StateChange) :
    (s.pushUndo change).conservativePgVersion = s.conservativePgVersion := by
  unfold pushUndo
  split <;> rfl

theorem taint_conservativePgVersion (s : AnalysisState) (code : EvidenceCode)
    (scope : EvidenceScope) :
    (s.taint code scope).conservativePgVersion = s.conservativePgVersion := by
  unfold taint recordEvidence markTainted
  dsimp only
  split
  · rfl
  · have hevidence (t : AnalysisState) (e : EvidenceLog) :
        (t.setEvidence e).conservativePgVersion = t.conservativePgVersion := rfl
    have hconfidence (t : AnalysisState) (c : Confidence) :
        (t.setConfidence c).conservativePgVersion = t.conservativePgVersion := rfl
    split
    all_goals simp only [hevidence, hconfidence, snapshotEvidence, snapshotConfidence,
      pushUndo_conservativePgVersion]

instance : KeepsEvidence SameConstraints where
  refl _ := ⟨rfl, rfl, rfl⟩
  trans _ _ _ h h' := ⟨h'.constraints.trans h.constraints, h'.edges.trans h.edges,
    h'.version.trans h.version⟩
  taint s code scope := ⟨s.taint_constraints code scope, by rw [taint_graph],
    s.taint_conservativePgVersion code scope⟩

namespace SameConstraints

variable {s t : AnalysisState}

theorem pushUndo (s : AnalysisState) (change : StateChange) : SameConstraints s (s.pushUndo change) :=
  ⟨by simp, by simp, s.pushUndo_conservativePgVersion change⟩

theorem modifyRelation (s : AnalysisState) (id : ObjectId) (f : RelationState → RelationState) :
    SameConstraints s (s.modifyRelation id f) := by
  unfold AnalysisState.modifyRelation
  split
  · exact ⟨rfl, rfl, rfl⟩
  · exact Std.Refl.refl s

theorem updateRelation (s : AnalysisState) (id : ObjectId) (f : RelationState → RelationState) :
    SameConstraints s (s.updateRelation id f) :=
  IsTrans.trans _ _ _ (pushUndo s _) (modifyRelation _ id f)

theorem addGraphEdge (s : AnalysisState) {edge : DependencyEdge}
    (h : edge.kind.concernsConstraint = false) : SameConstraints s (s.addGraphEdge edge) := by
  refine IsTrans.trans _ _ _ (pushUndo s _) ⟨rfl, ?_, rfl⟩
  exact DependencyGraph.edgesOf_addEdge h

theorem addGraphEdges (s : AnalysisState) {edges : List DependencyEdge}
    (h : ∀ edge ∈ edges, edge.kind.concernsConstraint = false) :
    SameConstraints s (s.addGraphEdges edges) := by
  refine IsTrans.trans _ _ _ (pushUndo s _) ⟨rfl, ?_, rfl⟩
  exact DependencyGraph.edgesOf_addEdges h

theorem mem_edges (h : SameConstraints s t) {e : DependencyEdge}
    (hkind : e.kind.concernsConstraint = true) : e ∈ t.graph.edges ↔ e ∈ s.graph.edges := by
  have hmem (g : DependencyGraph) :
      e ∈ g.edgesOf DependencyKind.concernsConstraint ↔ e ∈ g.edges := by
    simp [DependencyGraph.edgesOf, hkind]
  rw [← hmem, h.edges, hmem]

theorem aliases (h : SameConstraints s t) : t.graph.aliases = s.graph.aliases := by
  have hsplit (g : DependencyGraph) : g.aliases =
      (g.edgesOf DependencyKind.concernsConstraint).filter (·.kind.isRenameTo) := by
    rw [DependencyGraph.aliases, DependencyGraph.edgesOf, List.filter_filter]
    refine List.filter_congr fun e _ => ?_
    cases hkind : e.kind <;>
      simp [DependencyKind.isRenameTo, DependencyKind.concernsConstraint]
  rw [hsplit, hsplit, h.edges]

theorem resolveRename (h : SameConstraints s t) (id : ObjectId) :
    t.graph.resolveRename id = s.graph.resolveRename id :=
  DependencyGraph.resolveRename_congr h.aliases id

theorem edgesOfConstraint (h : SameConstraints s t) (key : ObjectId × String) :
    t.edgesOfConstraint key = s.edgesOfConstraint key := by
  have hsplit (u : AnalysisState) : u.edgesOfConstraint key =
      (u.graph.edgesOf DependencyKind.concernsConstraint).filter
        fun e => e.dependent == key.1 && e.kind.constraintName == some key.2 := by
    rw [AnalysisState.edgesOfConstraint, DependencyGraph.edgesOf, List.filter_filter]
    refine List.filter_congr fun e _ => ?_
    cases hkind : e.kind <;>
      simp [DependencyKind.constraintName, DependencyKind.concernsConstraint]
  rw [hsplit, hsplit, h.edges]

theorem readsAsNotNull (h : SameConstraints s t) {table : ObjectId} {column name : String}
    {e : DependencyEdge} :
    t.readsAsNotNull table column name e ↔ s.readsAsNotNull table column name e := by
  unfold AnalysisState.readsAsNotNull
  rw [h.resolveRename]
  constructor
  · rintro ⟨he, hrest⟩
    exact ⟨(h.mem_edges (by rw [hrest.2]; rfl)).mp he, hrest⟩
  · rintro ⟨he, hrest⟩
    exact ⟨(h.mem_edges (by rw [hrest.2]; rfl)).mpr he, hrest⟩

theorem notNullConstraint (h : SameConstraints s t) (table : ObjectId) (column : String) :
    t.notNullConstraintForColumn table column = s.notNullConstraintForColumn table column := by
  unfold notNullConstraintForColumn
  simp only [h.resolveRename]
  rw [DependencyGraph.findSome?_edges, DependencyGraph.findSome?_edges, h.edges]
  all_goals
    intro e he
    cases hkind : e.kind <;> simp_all [DependencyKind.concernsConstraint]

theorem guardedBy (h : SameConstraints s t) {table : ObjectId} {column name : String} :
    t.GuardedBy table column name ↔ s.GuardedBy table column name := by
  unfold GuardedBy
  rw [h.constraints]
  refine and_congr_right fun _ => ?_
  constructor
  · rintro ⟨e, he, hrest⟩
    exact ⟨e, (h.mem_edges (by rw [hrest.2]; rfl)).mp he, hrest⟩
  · rintro ⟨e, he, hrest⟩
    exact ⟨e, (h.mem_edges (by rw [hrest.2]; rfl)).mpr he, hrest⟩

theorem guarded (h : SameConstraints s t) {table : ObjectId} {column : String} :
    t.Guarded table column ↔ s.Guarded table column :=
  exists_congr fun _ => h.guardedBy

theorem readsNotNull (h : SameConstraints s t) {table : ObjectId} {column : String} :
    t.ReadsNotNull table column ↔ s.ReadsNotNull table column := by
  unfold ReadsNotNull
  rw [h.notNullConstraint, h.constraints]
  simp only [h.readsAsNotNull]

theorem otherKept (h : SameConstraints s t) : OtherConstraintsKept s t := fun key constraint hkey _ =>
  ⟨by rw [h.constraints, hkey], h.edgesOfConstraint key⟩

/-- What is kept is kept over a start that changes nothing of it. -/
theorem otherKept_iff {u : AnalysisState} (h : SameConstraints s t) :
    OtherConstraintsKept s u ↔ OtherConstraintsKept t u := by
  unfold OtherConstraintsKept
  rw [h.constraints]
  simp only [h.edgesOfConstraint]

end SameConstraints

section Registration

variable {s : AnalysisState} {table : ObjectId} {column : String}

/-- The name that a not-null constraint of the column gets. -/
def notNullName (s : AnalysisState) (table : ObjectId) (column : String) : String :=
  s.nextGeneratedConstraintNameAvoiding table table.name (some column) "not_null" []

/-- The constraint as the catalog of PostgreSQL 18 lists it. -/
def notNullConstraint (table : ObjectId) (name : String) : ConstraintState :=
  { tableId := table, name, kind := .notNull, validated := true, definition := none,
    backingIndex := none }

theorem lookup_notNullName (s : AnalysisState) (table : ObjectId) (column : String) :
    s.constraints.lookup (table, s.notNullName table column) = none := by
  have hfree := (s.nextGeneratedConstraintName_fresh table table.name (some column)
    "not_null" []).2
  by_contra hne
  obtain ⟨constraint, hlookup⟩ := Option.ne_none_iff_exists'.mp hne
  have htaken : s.constraintNameIsTaken table.schema (s.notNullName table column) = true := by
    rw [constraintNameIsTaken, List.any_eq_true]
    refine ⟨_, AList.lookup_isSome.mp (by rw [hlookup]; rfl), ?_⟩
    simp
  rw [notNullName, hfree] at htaken
  cases htaken

@[simp] theorem addGraphEdge_constraints (s : AnalysisState) (edge : DependencyEdge) :
    (s.addGraphEdge edge).constraints = s.constraints := by
  simp [addGraphEdge, setGraph, snapshotGraph]

theorem addGraphEdge_graph (s : AnalysisState) (edge : DependencyEdge) :
    (s.addGraphEdge edge).graph = s.graph.addEdge edge := by
  simp [addGraphEdge, setGraph, snapshotGraph]

theorem putConstraint_constraints (s : AnalysisState) (constraint : ConstraintState) :
    (s.putConstraint constraint).constraints =
      s.constraints.insert (constraint.tableId, constraint.name) constraint := by
  simp [putConstraint, setConstraints, snapshotConstraint]

@[simp] theorem putConstraint_graph (s : AnalysisState) (constraint : ConstraintState) :
    (s.putConstraint constraint).graph = s.graph := by
  simp [putConstraint, setConstraints, snapshotConstraint]

/-- An edge that shows one constraint is none of the others' edges. -/
theorem edgesOfConstraint_addGraphEdge {s : AnalysisState} {edge : DependencyEdge}
    {key : ObjectId × String}
    (h : edge.dependent ≠ key.1 ∨ edge.kind.constraintName ≠ some key.2) :
    (s.addGraphEdge edge).edgesOfConstraint key = s.edgesOfConstraint key := by
  rw [edgesOfConstraint, addGraphEdge_graph, DependencyGraph.addEdge]
  split
  · rfl
  · have hnew : (edge.dependent == key.1 && edge.kind.constraintName == some key.2) = false := by
      rcases h with h | h <;> simp [h]
    rw [List.filter_append, List.filter_singleton, hnew]
    simp [edgesOfConstraint]

theorem registerNotNullConstraint_of_none (hversion : 180000 ≤ s.conservativePgVersion)
    (hnone : s.notNullConstraintForColumn table column = none) :
    registerNotNullConstraint table s column =
      (s.putConstraint (notNullConstraint table (s.notNullName table column))).addGraphEdge
        ⟨table, table, .constraintOnRelation (s.notNullName table column) [column] false⟩ := by
  unfold registerNotNullConstraint
  rw [if_neg (by simp [hnone, hversion])]
  rfl

theorem registerNotNullConstraint_of_some
    (h : s.conservativePgVersion < 180000 ∨ s.notNullConstraintForColumn table column ≠ none) :
    registerNotNullConstraint table s column = s := by
  unfold registerNotNullConstraint
  rw [if_pos (h.imp_right Option.isSome_iff_ne_none.mpr)]

theorem otherKept_registerNotNull (s : AnalysisState) (table : ObjectId) (column : String) :
    OtherConstraintsKept s (registerNotNullConstraint table s column) := by
  by_cases h : s.conservativePgVersion < 180000 ∨ s.notNullConstraintForColumn table column ≠ none
  · rw [registerNotNullConstraint_of_some h]
    exact (Std.Refl.refl s : SameConstraints s s).otherKept
  · push Not at h
    rw [registerNotNullConstraint_of_none h.1 h.2]
    intro key constraint hkey _
    have hne : key ≠ (table, s.notNullName table column) := by
      rintro rfl
      rw [lookup_notNullName] at hkey
      cases hkey
    constructor
    · rw [addGraphEdge_constraints, putConstraint_constraints, ← hkey]
      exact AList.lookup_insert_ne hne
    · rw [edgesOfConstraint_addGraphEdge, edgesOfConstraint, putConstraint_graph, edgesOfConstraint]
      by_contra hboth
      push Not at hboth
      have hname : s.notNullName table column = key.2 := Option.some.inj hboth.2
      exact hne (Prod.ext hboth.1.symm hname.symm)

/-- Where nothing was read as the constraint of the column, it has one now. -/
theorem guardedBy_registerNotNull (hversion : 180000 ≤ s.conservativePgVersion)
    (hnone : s.notNullConstraintForColumn table column = none) :
    (registerNotNullConstraint table s column).GuardedBy table column
      (s.notNullName table column) := by
  rw [registerNotNullConstraint_of_none hversion hnone]
  constructor
  · refine ⟨notNullConstraint table (s.notNullName table column), ?_, rfl⟩
    rw [addGraphEdge_constraints, putConstraint_constraints]
    exact AList.lookup_insert _
  · refine ⟨⟨table, table, .constraintOnRelation (s.notNullName table column) [column] false⟩, ?_,
      rfl, rfl⟩
    rw [addGraphEdge_graph]
    exact DependencyGraph.mem_addEdge.mpr (Or.inr rfl)

theorem guarded_registerNotNull_iff (hversion : 180000 ≤ s.conservativePgVersion) :
    (registerNotNullConstraint table s column).Guarded table column ↔
      s.notNullConstraintForColumn table column = none ∨ s.Guarded table column := by
  by_cases hnone : s.notNullConstraintForColumn table column = none
  · simp only [hnone, true_or, iff_true]
    exact ⟨_, guardedBy_registerNotNull hversion hnone⟩
  · rw [registerNotNullConstraint_of_some (Or.inr hnone)]
    simp [hnone]

end Registration

section Removal

variable {s : AnalysisState} {table : ObjectId} {column : String}

theorem dropNotNullConstraint_constraints {key : ObjectId × String}
    (hread : s.notNullConstraintForColumn table column = some key) :
    (s.dropNotNullConstraint table column).constraints = s.constraints.erase key := by
  unfold dropNotNullConstraint
  rw [hread]
  simp [retainGraphEdges, removeConstraint, setGraph, setConstraints, snapshotGraphFull,
    snapshotConstraint]

theorem dropNotNullConstraint_edges {key : ObjectId × String}
    (hread : s.notNullConstraintForColumn table column = some key) :
    (s.dropNotNullConstraint table column).graph.edges = s.graph.edges.filter fun e =>
      !(decide (e.kind = .constraintOnRelation key.2 [column] false) &&
        decide (s.graph.resolveRename e.dependent = key.1)) := by
  have hgraph (t : AnalysisState) (g : DependencyGraph) : (t.setGraph g).graph = g := rfl
  have hsame (t : AnalysisState) (m : KeyedMap (ObjectId × String) ConstraintState) :
      (t.setConstraints m).graph = t.graph := rfl
  unfold dropNotNullConstraint
  rw [hread]
  simp only [retainGraphEdges, removeConstraint, hgraph, hsame, snapshotGraphFull,
    snapshotConstraint, pushUndo_graph, DependencyGraph.retainEdges]

theorem mem_edges_dropNotNull {key : ObjectId × String}
    (hread : s.notNullConstraintForColumn table column = some key) {e : DependencyEdge} :
    e ∈ (s.dropNotNullConstraint table column).graph.edges ↔
      e ∈ s.graph.edges ∧ ¬s.readsAsNotNull table column key.2 e := by
  obtain ⟨htable, -⟩ := notNullConstraint_eq_some hread
  rw [dropNotNullConstraint_edges hread, List.mem_filter, readsAsNotNull, htable]
  simp only [Bool.not_eq_true', Bool.and_eq_false_iff, decide_eq_false_iff_not, not_and,
    and_congr_right_iff]
  intro he
  constructor
  · intro hor _ hresolve hkind
    rcases hor with hne | hne
    · exact hne hkind
    · exact hne hresolve
  · intro himp
    by_cases hkind : e.kind = .constraintOnRelation key.2 [column] false
    · exact Or.inr fun hresolve => himp he hresolve hkind
    · exact Or.inl hkind

/-- Other constraints survive `DROP NOT NULL` where what is read as the not-null
constraint is one. -/
theorem otherKept_dropNotNull_iff :
    OtherConstraintsKept s (s.dropNotNullConstraint table column) ↔ s.ReadsNotNull table column := by
  cases hread : s.notNullConstraintForColumn table column with
  | none =>
    have hsame : s.dropNotNullConstraint table column = s := by
      unfold dropNotNullConstraint
      rw [hread]
    rw [hsame, ReadsNotNull, hread]
    simp only [reduceCtorEq, false_implies, implies_true, iff_true]
    exact (Std.Refl.refl s : SameConstraints s s).otherKept
  | some key =>
    constructor
    · rintro hkept key' hkey'
      obtain rfl : key = key' := Option.some.inj (hread.symm.trans hkey')
      constructor
      · intro constraint hlookup
        by_contra hkind
        have hstays := (hkept key constraint hlookup hkind).1
        rw [dropNotNullConstraint_constraints hread, AList.lookup_erase] at hstays
        cases hstays
      · intro e he constraint hlookup
        by_contra hkind
        have hedges := (hkept _ constraint hlookup hkind).2
        have hmem : e ∈ s.edgesOfConstraint (e.dependent, key.2) :=
          List.mem_filter.mpr ⟨he.1, by simp [he.2.2, DependencyKind.constraintName]⟩
        rw [← hedges] at hmem
        exact ((mem_edges_dropNotNull hread).mp (List.mem_filter.mp hmem).1).2 he
    · intro hreads key' constraint hlookup hkind
      obtain ⟨hown, hshown⟩ := hreads key hread
      constructor
      · have hne : key' ≠ key := by
          rintro rfl
          exact hkind (hown constraint hlookup)
        rw [dropNotNullConstraint_constraints hread, AList.lookup_erase_ne hne, hlookup]
      · rw [edgesOfConstraint, edgesOfConstraint, dropNotNullConstraint_edges hread,
          List.filter_filter]
        refine List.filter_congr fun e he => ?_
        rw [Bool.and_eq_left_iff_imp]
        intro hedge
        simp only [Bool.and_eq_true, beq_iff_eq] at hedge
        by_contra hgone
        simp only [Bool.not_eq_true, Bool.not_eq_false', Bool.and_eq_true, decide_eq_true_eq]
          at hgone
        obtain ⟨htable, -⟩ := notNullConstraint_eq_some hread
        have hname : key'.2 = key.2 := by
          have hshows := hedge.2
          rw [hgone.1] at hshows
          exact (Option.some.inj hshows).symm
        refine hkind (hshown e ⟨he, hgone.2.trans htable, hgone.1⟩ constraint ?_)
        rw [hedge.1, ← hname]
        exact hlookup

end Removal

end AnalysisState

namespace AlterNotNull

variable {text : SqlText} {alter : AlterNotNull} {s : AnalysisState}

theorem isCheck_checkTarget : IsCheck alter.checkTarget := by
  refine IsCheck.bind IsCheck.get fun s => ?_
  split
  · exact isCheck_refuse _
  · exact isCheck_refuse _
  · exact isCheck_refuse _
  · exact isCheck_leaveUnresolved _
  · split
    · exact isCheck_leaveUnresolved _
    · exact IsCheck.bind (isCheck_refuseIf _ _) fun _ => IsCheck.pure _

theorem isCheck_checkColumn (relation : RelationState) : IsCheck (alter.checkColumn relation) :=
  IsCheck.bind (isCheck_leaveUnresolvedIf _ _) fun _ => isCheck_refuseIf _ _

theorem declines_checkTarget : Declines alter.checkTarget := by
  refine Declines.bind declines_get fun s => ?_
  split
  · exact declines_refuse _
  · exact declines_refuse _
  · exact declines_refuse _
  · exact declines_leaveUnresolved _
  · split
    · exact declines_leaveUnresolved _
    · exact Declines.bind (declines_refuseIf _ _) fun _ => declines_pure _

theorem declines_checkColumn (relation : RelationState) : Declines (alter.checkColumn relation) :=
  Declines.bind (declines_leaveUnresolvedIf _ _) fun _ => declines_refuseIf _ _

theorem keeps_checkTarget {R : AnalysisState → AnalysisState → Prop} [KeepsEvidence R] :
    Keeps R alter.checkTarget := by
  refine Keeps.bind Keeps.get fun s => ?_
  split
  · exact keeps_refuse _
  · exact keeps_refuse _
  · exact keeps_refuse _
  · exact keeps_leaveUnresolved _
  · split
    · exact keeps_leaveUnresolved _
    · exact Keeps.bind (keeps_refuseIf _ _) fun _ => Keeps.pure _

theorem keeps_checkColumn {R : AnalysisState → AnalysisState → Prop} [KeepsEvidence R]
    (relation : RelationState) : Keeps R (alter.checkColumn relation) :=
  Keeps.bind (keeps_leaveUnresolvedIf _ _) fun _ => keeps_refuseIf _ _

/-- The statement writes to the state it finds, or changes no constraint. -/
theorem applied_or_same (text : SqlText) (alter : AlterNotNull) (s : AnalysisState) :
    (s.applyAlterNotNull text alter).1 = .applied ∧
        (s.applyAlterNotNull text alter).2 = alter.write text s ∨
      (s.applyAlterNotNull text alter).1 ≠ .applied ∧
        SameConstraints s (s.applyAlterNotNull text alter).2 := by
  unfold applyAlterNotNull Command.outcome command
  rw [run_bind]
  have hkeptTarget : SameConstraints s (alter.checkTarget.after s) := keeps_checkTarget s
  unfold Command.after at hkeptTarget
  rcases htarget : alter.checkTarget.run.run s with ⟨e | relation, u⟩
  · rw [htarget] at hkeptTarget
    exact Or.inr ⟨declines_checkTarget s e u htarget, hkeptTarget⟩
  · obtain rfl := isCheck_checkTarget s relation u htarget
    dsimp only
    rw [run_bind]
    have hkeptColumn : SameConstraints u ((alter.checkColumn relation).after u) :=
      keeps_checkColumn relation u
    unfold Command.after at hkeptColumn
    rcases hcolumn : (alter.checkColumn relation).run.run u with ⟨e | a, v⟩
    · rw [hcolumn] at hkeptColumn
      exact Or.inr ⟨declines_checkColumn relation u e v hcolumn, hkeptColumn⟩
    · obtain rfl := isCheck_checkColumn relation u a v hcolumn
      exact Or.inl ⟨rfl, rfl⟩

/-- The relation itself carries no constraint. -/
theorem sameConstraints_updateRelation (text : SqlText) (alter : AlterNotNull) (s : AnalysisState) :
    SameConstraints s (s.updateRelation alter.id.id fun relation => relation.applyColumnAction text
      (if alter.notNull then .setNotNull alter.column else .dropNotNull alter.column)) :=
  SameConstraints.updateRelation s _ _

theorem otherKept_write_iff (s : AnalysisState) :
    OtherConstraintsKept s (alter.write text s) ↔
      (alter.notNull = true ∨ s.ReadsNotNull alter.id.id alter.column) := by
  have hsame := alter.sameConstraints_updateRelation text s
  unfold write
  dsimp only
  generalize s.updateRelation _ _ = u at hsame ⊢
  rw [hsame.otherKept_iff, ← hsame.readsNotNull]
  by_cases hset : alter.notNull = true
  · simp only [hset, true_or, iff_true, if_true]
    exact otherKept_registerNotNull _ _ _
  · simp only [hset, false_or, if_false, Bool.false_eq_true]
    exact otherKept_dropNotNull_iff

theorem guarded_write_iff (hset : alter.notNull = true) (hversion : 180000 ≤ s.conservativePgVersion) :
    (alter.write text s).Guarded alter.id.id alter.column ↔
      s.notNullConstraintForColumn alter.id.id alter.column = none ∨
        s.Guarded alter.id.id alter.column := by
  have hsame := alter.sameConstraints_updateRelation text s
  unfold write
  dsimp only
  generalize s.updateRelation _ _ = u at hsame ⊢
  rw [← hsame.notNullConstraint, ← hsame.guarded, if_pos hset]
  exact guarded_registerNotNull_iff (hsame.version ▸ hversion)

end AlterNotNull

end SafeMigrate
