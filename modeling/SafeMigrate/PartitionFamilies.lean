import SafeMigrate.AlterPartition
import SafeMigrate.CreateTableWrites
import SafeMigrate.SiblingCache

/-! Partitioned tables as families whose default members cache a predicate
over their siblings, and the writes that leave these families alone. -/

namespace SafeMigrate

open Command AnalysisState SiblingCache

/-- What a relation contributes to predicates of default partitions, as a
parent and as a sibling. -/
structure PartitionShape where
  columns : List Column
  partitionType : Option String
  partitionBy : Option String
  partitionKeys : List (String × String)
  partitionBound : Option String

def RelationState.partitionShape (relation : RelationState) : PartitionShape :=
  { columns := relation.columns
    partitionType := relation.partitionType
    partitionBy := relation.partitionBy
    partitionKeys := relation.partitionKeys
    partitionBound := relation.partitionBound }

def PartitionShape.isDefault (shape : PartitionShape) : Bool := shape.partitionBound.any isDefaultBound

def PartitionShape.keyColumns (text : SqlText) (shape : PartitionShape) :
    Option (List (String × String)) :=
  if shape.partitionKeys.isEmpty then shape.partitionBy.bind text.partitionKeys
  else some shape.partitionKeys

abbrev CheckClauses := String → String → List (String × String) → List Column → Option (List String)

/-- The clauses of a bound depend on the columns of the partition alone. -/
def SqlText.ReadsColumns (text : SqlText) (clauses : CheckClauses) : Prop :=
  ∀ strategy bound keys relation, text.partitionCheckClauses strategy bound keys relation =
    clauses strategy bound keys relation.columns

def joinedClauses : List String → String
  | first :: second :: rest => "(" ++ first ++ " AND (" ++ " AND ".intercalate (second :: rest) ++ "))"
  | clauses => "(" ++ clauses.headD "" ++ ")"

def negatedPredicates : List String → Option String
  | [] => none
  | [predicate] => some ("(NOT " ++ predicate ++ ")")
  | predicates => some ("(NOT (" ++ " OR ".intercalate predicates ++ "))")

/-- The predicate of a partition under its parent, unless it is the default. -/
def memberPredicate (text : SqlText) (clauses : CheckClauses) (parent child : PartitionShape) :
    Option String := do
  let strategy ← parent.partitionType
  let keys ← parent.keyColumns text
  let bound ← child.partitionBound
  if isDefaultBound bound then none
  else (clauses strategy bound keys child.columns).map joinedClauses

def partitionScheme (text : SqlText) (clauses : CheckClauses) : Scheme PartitionShape String where
  contribution := memberPredicate text clauses
  combine := negatedPredicates
  caches := PartitionShape.isDefault

namespace AnalysisState

def partitions (s : AnalysisState) : Family ObjectId PartitionShape String where
  shape id := (s.presentRelation id).map RelationState.partitionShape
  cache id := (s.presentRelation id).bind (·.partitionConstraint)
  links := (s.graph.edgesOf DependencyKind.isPartitionOf).map fun e => (e.dependent, e.referenced)

variable {text : SqlText} {clauses : CheckClauses} {s t : AnalysisState}

theorem mem_links {link : ObjectId × ObjectId} : link ∈ s.partitions.links ↔
    ∃ e ∈ s.graph.edges, e.kind.isPartitionOf = true ∧ (e.dependent, e.referenced) = link := by
  simp [partitions, DependencyGraph.edgesOf, and_assoc]

theorem contributionOf_eq (h : text.ReadsColumns clauses) {e : DependencyEdge}
    {parent : RelationState} (hparent : s.presentRelation e.referenced = some parent) :
    (partitionScheme text clauses).contributionOf s.partitions (e.dependent, e.referenced) =
      parent.partitionType.bind fun strategy =>
        (s.partitionKeyColumns text e.referenced).bind fun keys =>
          s.siblingPredicate text strategy keys e := by
  have hkeys : s.partitionKeyColumns text e.referenced = parent.partitionShape.keyColumns text := by
    rw [partitionKeyColumns, hparent]
    rfl
  rw [hkeys]
  unfold Scheme.contributionOf siblingPredicate
  simp only [partitions, hparent, Option.map_some, Option.bind_eq_bind, Option.bind_some]
  cases hchild : s.presentRelation e.dependent with
  | none => cases parent.partitionType <;> cases parent.partitionShape.keyColumns text <;> rfl
  | some child =>
    simp only [Option.map_some, Option.bind_some, partitionScheme, memberPredicate]
    have htype : parent.partitionShape.partitionType = parent.partitionType := rfl
    have hbound : child.partitionShape.partitionBound = child.partitionBound := rfl
    have hcolumns : child.partitionShape.columns = child.columns := rfl
    rw [htype, hbound, hcolumns]
    cases parent.partitionType with
    | none => rfl
    | some strategy =>
      cases parent.partitionShape.keyColumns text with
      | none => rfl
      | some keys =>
        cases child.partitionBound with
        | none => rfl
        | some bound =>
          simp only [Option.bind_eq_bind, Option.bind_some, h strategy bound keys child]
          cases isDefaultBound bound with
          | true => rfl
          | false =>
            cases clauses strategy bound keys child.columns with
            | none => rfl
            | some list => rcases list with _ | ⟨first, _ | ⟨second, rest⟩⟩ <;> rfl

/-- The synthesized predicate is the aggregate over the partitions. -/
theorem synthesizeDefaultPartitionConstraint_eq (h : text.ReadsColumns clauses) (s : AnalysisState)
    (parent : ObjectId) : s.synthesizeDefaultPartitionConstraint text parent =
      (partitionScheme text clauses).aggregate s.partitions parent := by
  have hshape (hnone : s.presentRelation parent = none) : s.partitions.shape parent = none := by
    simp [partitions, hnone]
  unfold synthesizeDefaultPartitionConstraint
  cases hparent : s.presentRelation parent with
  | none =>
    rw [Scheme.aggregate, Scheme.contributions_of_absent (hshape hparent)]
    rfl
  | some relation =>
    have hcontributions : (partitionScheme text clauses).contributions s.partitions parent =
        (s.graph.edges.filter fun e => e.referenced == parent && e.kind.isPartitionOf).filterMap
          fun e => relation.partitionType.bind fun strategy =>
            (s.partitionKeyColumns text parent).bind fun keys =>
              s.siblingPredicate text strategy keys e := by
      unfold Scheme.contributions
      have hlinks : s.partitions.links = (s.graph.edgesOf DependencyKind.isPartitionOf).map
        fun e => (e.dependent, e.referenced) := rfl
      rw [hlinks, List.filter_map, List.filterMap_map, DependencyGraph.edgesOf, List.filter_filter]
      refine List.filterMap_congr fun e he => ?_
      obtain ⟨-, hkind⟩ := List.mem_filter.mp he
      have hreferenced : e.referenced = parent := by
        simpa using (Bool.and_eq_true_iff.mp hkind).1
      rw [← hreferenced] at hparent ⊢
      exact contributionOf_eq h hparent
    rw [Scheme.aggregate, hcontributions]
    simp only [Option.bind_eq_bind, Option.bind_some]
    cases relation.partitionType with
    | none => simp [partitionScheme, negatedPredicates]
    | some strategy =>
      cases s.partitionKeyColumns text parent with
      | none => simp [partitionScheme, negatedPredicates]
      | some keys =>
        simp only [Option.bind_some]
        generalize List.filterMap _ _ = predicates
        rcases predicates with _ | ⟨first, _ | ⟨second, rest⟩⟩ <;> rfl

/-- Every predicate stored on a present default partition is the one that its
parent's partitions synthesize. -/
def DefaultsCurrent (text : SqlText) (s : AnalysisState) : Prop :=
  ∀ e ∈ s.graph.edges, e.kind = .partitionOf → ∀ relation,
    s.presentRelation e.dependent = some relation →
      relation.partitionBound.any isDefaultBound = true →
        relation.partitionConstraint = none ∨
          relation.partitionConstraint = s.synthesizeDefaultPartitionConstraint text e.referenced

theorem isPartitionOf_iff {kind : DependencyKind} : kind.isPartitionOf = true ↔ kind = .partitionOf := by
  cases kind <;> simp [DependencyKind.isPartitionOf]

theorem defaultsCurrent_iff (h : text.ReadsColumns clauses) :
    s.DefaultsCurrent text ↔ (partitionScheme text clauses).Current s.partitions := by
  constructor
  · rintro hcurrent ⟨id, parent⟩ hlink hcaches value hvalue
    obtain ⟨e, he, hkind, heq⟩ := mem_links.mp hlink
    cases heq
    obtain ⟨relation, hrelation, hconstraint⟩ := Option.bind_eq_some_iff.mp hvalue
    have hdefault : relation.partitionBound.any isDefaultBound = true := by
      simpa [partitions, hrelation, partitionScheme, PartitionShape.isDefault,
        RelationState.partitionShape] using hcaches
    rw [← synthesizeDefaultPartitionConstraint_eq h]
    rcases hcurrent e he (isPartitionOf_iff.mp hkind) relation hrelation hdefault with hnone | hsame
    · rw [hnone] at hconstraint
      cases hconstraint
    · rw [← hsame]
      exact hconstraint
  · intro hcurrent e he hkind relation hrelation hdefault
    cases hconstraint : relation.partitionConstraint with
    | none => exact Or.inl rfl
    | some value =>
      refine Or.inr ?_
      rw [synthesizeDefaultPartitionConstraint_eq h]
      refine (hcurrent (e.dependent, e.referenced)
        (mem_links.mpr ⟨e, he, isPartitionOf_iff.mpr hkind, rfl⟩) ?_ value ?_).symm
      · simpa [partitions, hrelation, partitionScheme, PartitionShape.isDefault,
          RelationState.partitionShape] using hdefault
      · simp [partitions, hrelation, hconstraint]

end AnalysisState

end SafeMigrate
