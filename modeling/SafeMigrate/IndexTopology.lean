import SafeMigrate.Writes

/-! The partition topology of indexes: how index definitions compare, which
index a partition reuses, and the attachments between parent and child. -/

namespace SafeMigrate

inductive IndexEquivalence
  | identical
  | different
  | unknown
deriving DecidableEq

namespace IndexEquivalence

def and : IndexEquivalence → IndexEquivalence → IndexEquivalence
  | .different, _ => .different
  | _, .different => .different
  | .unknown, _ => .unknown
  | _, .unknown => .unknown
  | .identical, .identical => .identical

def fromEqual (equal : Bool) : IndexEquivalence := if equal then .identical else .different

end IndexEquivalence

def IndexKey.column (name : String) : IndexKey :=
  { kind := .column name, opclass := .default none, collation := .derived, order := .default }

def indexKeys (names : List String) : List IndexKey := names.map IndexKey.column

def IndexKey.columnName (key : IndexKey) : Option String :=
  match key.kind with
  | .column name => some name
  | .expression _ => none

def compareKeyKinds : IndexKeyKind → IndexKeyKind → IndexEquivalence
  | .column left, .column right => .fromEqual (left == right)
  | .expression (some left), .expression (some right) => .fromEqual (decide (left = right))
  | .expression _, .expression _ => .unknown
  | _, _ => .different

def compareOpclasses : KeyOpclass → KeyOpclass → IndexEquivalence
  | .default (some left), .default (some right) => .fromEqual (decide (left = right))
  | .explicit left, .explicit right => .fromEqual (decide (left = right))
  | .default (some left), .explicit right => .fromEqual (decide (left = right))
  | .explicit left, .default (some right) => .fromEqual (decide (left = right))
  | .default none, .default _ => .identical
  | .default _, .default none => .identical
  | _, _ => .unknown

def compareCollations : KeyCollation → KeyCollation → IndexEquivalence
  | .notCollatable, .notCollatable | .notCollatable, .derived => .identical
  | .derived, .notCollatable | .derived, .derived => .identical
  | .resolved left, .resolved right => .fromEqual (decide (left = right))
  | .unresolved, _ => .unknown
  | _, .unresolved => .unknown
  | .notCollatable, .resolved _ | .resolved _, .notCollatable => .different
  | .derived, .resolved _ | .resolved _, .derived => .unknown

def compareKeys (left right : IndexKey) : IndexEquivalence :=
  ((compareKeyKinds left.kind right.kind).and (compareOpclasses left.opclass right.opclass)).and
    (compareCollations left.collation right.collation)

def compareKeyLists (verdict : IndexEquivalence) (left right : List IndexKey) : IndexEquivalence :=
  if left.length = right.length then
    (left.zip right).foldl (fun verdict keys => verdict.and (compareKeys keys.1 keys.2)) verdict
  else verdict

def comparePredicates : IndexPredicate → IndexPredicate → IndexEquivalence
  | .none, .none => .identical
  | .parsed left, .parsed right => .fromEqual (decide (left = right))
  | .none, _ => .different
  | _, .none => .different
  | _, _ => .unknown

namespace IndexDefinition

def keyColumnNames (d : IndexDefinition) : List String := d.keys.filterMap IndexKey.columnName

/-- Whether one index can serve as a partition of the other. -/
def attachEquivalence (d other : IndexDefinition) : IndexEquivalence :=
  if d.unestablished || other.unestablished then .unknown
  else
    let verdict : IndexEquivalence := match d.method, other.method with
      | some left, some right => .fromEqual (left == right)
      | none, none => .identical
      | _, _ => .unknown
    let verdict := verdict.and (.fromEqual (d.unique == other.unique))
    let verdict := verdict.and (match d.nullsNotDistinct, other.nullsNotDistinct with
      | some left, some right => .fromEqual (left == right)
      | _, _ => .unknown)
    let verdict := verdict.and (.fromEqual
      (d.keys.length == other.keys.length && d.included.length == other.included.length))
    let verdict := verdict.and (.fromEqual (d.expressionKeys == other.expressionKeys))
    if verdict = .different then verdict
    else
      let verdict := compareKeyLists verdict d.keys other.keys
      let verdict := compareKeyLists verdict d.included other.included
      verdict.and (comparePredicates d.predicate other.predicate)

/-- The definition of a freshly built index. -/
def markUsable (d : IndexDefinition) : IndexDefinition :=
  { d with valid := true, ready := true, live := true }

end IndexDefinition

namespace DependencyKind

/-- The definition that an index edge carries. -/
def indexDefinition : DependencyKind → Option IndexDefinition
  | indexOnRelation definition .. => some definition
  | _ => none

def mapIndexDefinition (f : IndexDefinition → IndexDefinition) : DependencyKind → DependencyKind
  | indexOnRelation definition columns known concurrent immediate eligible =>
    indexOnRelation (f definition) columns known concurrent immediate eligible
  | kind => kind

def isIndexPartitionOf : DependencyKind → Bool
  | indexPartitionOf => true
  | _ => false

def isPartitionOf : DependencyKind → Bool
  | partitionOf => true
  | _ => false

def isInheritanceOf : DependencyKind → Bool
  | inheritanceOf => true
  | _ => false

end DependencyKind

/-- The backing index of a locally created primary key or unique constraint. -/
def constraintIndexDependency (columns : List String) (isUnique : Bool) : DependencyKind :=
  .indexOnRelation
    { method := some "btree", keys := indexKeys columns, included := [], expressionKeys := 0,
      unique := isUnique, nullsNotDistinct := some false, predicate := .none,
      unestablished := false, valid := true, ready := true, live := true }
    columns true false true true

namespace DependencyGraph

def indexTableOf (g : DependencyGraph) (index : ObjectId) : Option ObjectId :=
  (g.edges.find? fun e => e.dependent == index && e.kind.isIndexOnRelation).map (·.referenced)

/-- Rewrites the first recorded definition of an index. -/
def updateIndexDefinition (g : DependencyGraph) (index : ObjectId)
    (f : IndexDefinition → IndexDefinition) : DependencyGraph :=
  ofEdges (go g.edges)
where
  go : List DependencyEdge → List DependencyEdge
  | [] => []
  | e :: edges =>
    if e.dependent = index ∧ e.kind.isIndexOnRelation = true then
      { e with kind := e.kind.mapIndexDefinition f } :: edges
    else e :: go edges

/-- Current and still attached partitions, under their resolved identities. -/
def partitionsOf (g : DependencyGraph) (id : ObjectId) : List ObjectId :=
  (g.edges.filter fun e => e.kind.isPartition &&
    g.resolveRename e.referenced == g.resolveRename id).map fun e => g.resolveRename e.dependent

/-- One edge of each kind of attachment at most lies between two levels. -/
def partitionFuel (g : DependencyGraph) : Nat := g.edges.length + 1

end DependencyGraph

inductive ChildReuseRule
  | creation
  | tableAttach
deriving DecidableEq

namespace AnalysisState

def indexDefinitionOf (s : AnalysisState) (id : ObjectId) : Option IndexDefinition :=
  (s.graph.edges.find? fun e => e.dependent == id && e.kind.isIndexOnRelation).bind
    fun e => e.kind.indexDefinition

def indexParentOf (s : AnalysisState) (child : ObjectId) : Option ObjectId :=
  (s.graph.edges.find? fun e => e.dependent == child && e.kind.isIndexPartitionOf).map
    (·.referenced)

def indexTableOf (s : AnalysisState) (index : ObjectId) : Option ObjectId :=
  s.graph.indexTableOf index

def isIndexBacked : ConstraintKind → Bool
  | .primaryKey => true
  | .unique => true
  | .exclusion => true
  | _ => false

/-- The kind of constraint an index backs, if any. -/
def constraintBacking (s : AnalysisState) (index : ObjectId) : Option ConstraintKind :=
  (s.constraints.entries.find? fun entry =>
    entry.2.backingIndex == some index && isIndexBacked entry.2.kind).map (·.2.kind)

def recordIndexPartition (s : AnalysisState) (parent child : ObjectId) : AnalysisState :=
  s.addGraphEdge ⟨child, parent, .indexPartitionOf⟩

/-- `snapshot_graph_full` followed by `update_index_definition`. -/
def setIndexDefinition (s : AnalysisState) (index : ObjectId)
    (f : IndexDefinition → IndexDefinition) : AnalysisState :=
  let s := s.snapshotGraphFull
  s.setGraph (s.graph.updateIndexDefinition index f)

/-- An unattached index of `table` that matches the template and whose
constraint satisfies the rule. -/
def isReusableIndex (s : AnalysisState) (resolvedTable : ObjectId) (template : IndexDefinition)
    (parentBacking : Option ConstraintKind) (rule : ChildReuseRule) (e : DependencyEdge) : Bool :=
  e.kind.isIndexOnRelation && (s.indexParentOf e.dependent).isNone &&
    (s.indexTableOf e.dependent).any (fun owner => s.graph.resolveRename owner == resolvedTable) &&
    (e.kind.indexDefinition.any fun definition =>
      decide (template.attachEquivalence definition = .identical)) &&
    match parentBacking, s.constraintBacking e.dependent with
    | some _, none => false
    | some parentKind, some childKind => decide (rule = .creation ∨ parentKind = childKind)
    | none, _ => true

/-- Ensures that `table` carries a child of the partitioned index `parent`,
which it reuses or builds anew down the partition tree. -/
def ensurePartitionIndexChild (template : DependencyKind) (definition : IndexDefinition)
    (rule : ChildReuseRule) : Nat → AnalysisState → ObjectId → ObjectId →
      (ObjectId × Bool) × AnalysisState
  | 0, s, parent, _ => ((parent, true), s)
  | fuel + 1, s, parent, table =>
    let resolvedTable := s.graph.resolveRename table
    let parentBacking := s.constraintBacking parent
    match s.graph.edges.find? (s.isReusableIndex resolvedTable definition parentBacking rule) with
    | some e =>
      let s := s.recordIndexPartition parent e.dependent
      ((e.dependent, (s.indexDefinitionOf e.dependent).any (·.valid)), s)
    | none =>
      let columns := definition.keyColumnNames
      let id := s.nextGeneratedRelationNameAvoiding table.schema table.name
        (if columns.isEmpty then none else some ("_".intercalate columns)) "idx" []
      let s := s.addGraphEdge ⟨id, table, template.mapIndexDefinition IndexDefinition.markUsable⟩
      let s := s.recordIndexPartition parent id
      s.graph.partitionsOf table |>.foldl (fun acc partition =>
        let (child, s) := ensurePartitionIndexChild template definition rule fuel acc.2 id partition
        ((acc.1.1, acc.1.2 && child.2), s)) ((id, true), s)
        |> fun (built, s) =>
          (built, if built.2 then s
            else s.setIndexDefinition id fun stored => { stored with valid := false })

end AnalysisState

end SafeMigrate
