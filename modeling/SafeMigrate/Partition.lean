import SafeMigrate.Columns
import SafeMigrate.IndexTopology

/-! What a partition takes over from its parent: the partition predicate, row
triggers, and the indexes with the key constraints they back. -/

namespace SafeMigrate

namespace AnalysisState

variable (text : SqlText)

def isDefaultBound (bound : String) : Bool := eqIgnoreAsciiCase bound "DEFAULT"

/-- The key columns of a partitioned table, from its statement where it was
seen and from the catalog text otherwise. -/
def partitionKeyColumns (s : AnalysisState) (parent : ObjectId) : Option (List (String × String)) :=
  match s.presentRelation parent with
  | none => none
  | some relation =>
    if relation.partitionKeys.isEmpty then relation.partitionBy.bind text.partitionKeys
    else some relation.partitionKeys

def synthesizePartitionCheck (strategy bound : String) (keys : List (String × String))
    (relation : RelationState) : Option String := do
  match ← text.partitionCheckClauses strategy bound keys relation with
  | [] => none
  | [clause] => some ("(" ++ clause ++ ")")
  | clauses => some ("((" ++ " AND ".intercalate clauses ++ "))")

/-- The predicate of one sibling, negated in that of the default partition. -/
def siblingPredicate (s : AnalysisState) (strategy : String) (keys : List (String × String))
    (e : DependencyEdge) : Option String := do
  let child ← s.presentRelation e.dependent
  let bound ← child.partitionBound
  if isDefaultBound bound then none
  else
    match ← text.partitionCheckClauses strategy bound keys child with
    | first :: second :: rest =>
      some ("(" ++ first ++ " AND (" ++ " AND ".intercalate (second :: rest) ++ "))")
    | clauses => some ("(" ++ clauses.headD "" ++ ")")

def synthesizeDefaultPartitionConstraint (s : AnalysisState) (parent : ObjectId) :
    Option String := do
  let relation ← s.presentRelation parent
  let strategy ← relation.partitionType
  let keys ← s.partitionKeyColumns text parent
  let siblings := s.graph.edges.filter fun e => e.referenced == parent && e.kind.isPartitionOf
  match siblings.filterMap (s.siblingPredicate text strategy keys) with
  | [] => none
  | [predicate] => some ("(NOT " ++ predicate ++ ")")
  | predicates => some ("(NOT (" ++ " OR ".intercalate predicates ++ "))")

/-- The predicate that a new partition gets from its own bound. -/
def generatedPartitionConstraint (s : AnalysisState) (parent child : ObjectId) :
    Option String := do
  let relation ← s.presentRelation child
  let bound ← relation.partitionBound
  if isDefaultBound bound then s.synthesizeDefaultPartitionConstraint text parent
  else
    let parentRelation ← s.presentRelation parent
    let strategy ← parentRelation.partitionType
    let keys ← s.partitionKeyColumns text parent
    synthesizePartitionCheck text strategy bound keys relation

def partitionRowTriggerPlans (s : AnalysisState) (parent : ObjectId) : List TriggerState :=
  s.triggers.entries.filterMap fun entry =>
    match entry.2 with
    | .present trigger =>
      if trigger.tableId = parent ∧ trigger.rowLevel = true then some trigger else none
    | .dropped => none

def triggerIsPresent (s : AnalysisState) (id : ObjectId) : Bool :=
  (s.triggers.lookup id).any Overlay.isPresent

def cloneRowTrigger (child : ObjectId) (s : AnalysisState) (parentTrigger : TriggerState) :
    AnalysisState :=
  let s := s.bumpGeneration
  let generation := s.generationCounter
  let cloneId := triggerKey child parentTrigger.name
  let s := s.putTrigger
    { name := parentTrigger.name, id := cloneId, tableId := child,
      functionId := parentTrigger.functionId, rowLevel := true,
      parentTriggerId := some parentTrigger.id, enabledMode := parentTrigger.enabledMode,
      generation }
  let s := s.updateRelation child fun relation =>
    { relation with triggers := insert parentTrigger.name relation.triggers }
  s.addGraphEdgeFull
    ⟨cloneId, child, .triggerOnTable cloneId parentTrigger.functionId generation⟩

/-- The columns of the key that a constraint of `table` declares. -/
def constraintKeyColumns (s : AnalysisState) (table : ObjectId) (name : String) :
    Option (List String) :=
  s.graph.edges.findSome? fun e =>
    match e.kind with
    | .constraintOnRelation constraintName columns _ =>
      if e.dependent = table ∧ e.referenced = table ∧ constraintName = name then some columns
      else none
    | _ => none

def isKeyConstraint : ConstraintKind → Bool
  | .primaryKey => true
  | .unique => true
  | _ => false

def clonedConstraintName (child : ObjectId) (constraint : ConstraintState)
    (columns : Option (List String)) : String :=
  match constraint.kind with
  | .primaryKey => child.name ++ "_pkey"
  | .unique =>
    let column := match columns with
      | some (c :: cs) => "_".intercalate (c :: cs)
      | _ => child.name
    child.name ++ "_" ++ column ++ "_key"
  | _ => constraint.name

/-- The clone of a key constraint whose index a partition has just gained. -/
def cloneKeyConstraint (s : AnalysisState) (parent child : ObjectId)
    (constraint : ConstraintState) (childIndex : ObjectId) : AnalysisState :=
  let columns := s.constraintKeyColumns parent constraint.name
  let clonedName := clonedConstraintName child constraint columns
  let s := s.putConstraint
    { tableId := child, name := clonedName, kind := constraint.kind, validated := true,
      definition := none, backingIndex := some childIndex }
  match columns with
  | some columns => s.addGraphEdge
      ⟨child, child, .constraintOnRelation clonedName columns
        (decide (constraint.kind = .primaryKey))⟩
  | none => s.taint .catalogCoverageIncomplete .chain

def ensurePartitionIndex (parent child : ObjectId) (constraints : List ConstraintState)
    (s : AnalysisState) (parentIndex : DependencyEdge) : AnalysisState :=
  match parentIndex.kind.indexDefinition with
  | none => s
  | some definition =>
    let ((childIndex, _), s) := ensurePartitionIndexChild parentIndex.kind definition .tableAttach
      s.graph.partitionFuel s parentIndex.dependent child
    match constraints.find? fun c =>
        c.backingIndex == some parentIndex.dependent && isKeyConstraint c.kind with
    | none => s
    | some constraint =>
      if (s.constraintBacking childIndex).isSome then s
      else s.cloneKeyConstraint parent child constraint childIndex

/-- Every index of the parent gains a child on the partition, and every key
constraint it backs is cloned alongside. -/
def ensurePartitionIndexesAndConstraints (s : AnalysisState) (parent child : ObjectId) :
    AnalysisState :=
  let parentIndexes := s.graph.edges.filter fun e =>
    e.referenced == parent && e.kind.isIndexOnRelation
  let parentConstraints := (s.constraints.entries.map (·.2)).filter (·.tableId == parent)
  parentIndexes.foldl (ensurePartitionIndex parent child parentConstraints) s

end AnalysisState

open AnalysisState in
/-- Row triggers of the parent are cloned, unless the child has one by the
name already. -/
def cloneRowTriggersToPartition (parent : ObjectId) (child : ObjectRef) : Statement Unit := do
  let s ← get
  let plans := s.partitionRowTriggerPlans parent
  match plans.find? fun trigger => s.triggerIsPresent (triggerKey child.id trigger.name) with
  | some trigger => refuse ("trigger '" ++ trigger.name ++ "' on partition '" ++ child.display ++
      "' conflicts with parent trigger")
  | none => modify fun s => plans.foldl (cloneRowTrigger child.id) s

end SafeMigrate
