import SafeMigrate.Model

/-! The typed dependency graph: a set of edges kept in insertion order.
Lookups follow rename chains, and rewrites restore the set afterwards. -/

namespace SafeMigrate

structure ForeignKeyOperatorEvidence where
  pkFk : List String
  pkPk : List String
  fkFk : List String
deriving DecidableEq

inductive DependencyKind
  | foreignKey (constraintName : Option String) (fromColumns toColumns : List String)
      (operatorEvidence : Option ForeignKeyOperatorEvidence) (fromGeneration : Nat)
  | viewDependency (viewGeneration : Nat) (referencedColumn : Option String)
  | viewUsesRoutine (unresolvedName : Option ObjectId)
  | viewUsesType
  | indexOnRelation (definition : IndexDefinition) (dependencyColumns : List String)
      (dependencyColumnsKnown isConcurrent isImmediate eligibilityKnown : Bool)
  | constraintOnRelation (constraintName : String) (columns : List String) (isPrimary : Bool)
  | constraintDependency (constraintName : String) (columns : List String)
  | renameTo
  | inheritanceOf
  | partitionOf
  | indexPartitionOf
  | partitionDetachPending
  | sequenceOwnedBy (column : String)
  | columnGeneratedFrom (column dependsOnColumn : String)
  | columnDefaultOnSequence (column : String)
  | triggerOnTable (triggerId functionId : ObjectId) (triggerGeneration : Nat)
  | publicationIncludes (publicationName : String)
deriving DecidableEq

namespace DependencyKind

def isRenameTo : DependencyKind → Bool
  | renameTo => true
  | _ => false

def isForeignKey : DependencyKind → Bool
  | foreignKey .. => true
  | _ => false

/-- The constraint name of a foreign-key edge that has one. -/
def foreignKeyName : DependencyKind → Option String
  | foreignKey constraintName .. => constraintName
  | _ => none

def isViewDependency : DependencyKind → Bool
  | viewDependency .. => true
  | _ => false

def isIndexOnRelation : DependencyKind → Bool
  | indexOnRelation .. => true
  | _ => false

def isTriggerOnTable : DependencyKind → Bool
  | triggerOnTable .. => true
  | _ => false

def isPublicationIncludes : DependencyKind → Bool
  | publicationIncludes .. => true
  | _ => false

def isSequenceOwnedBy : DependencyKind → Bool
  | sequenceOwnedBy _ => true
  | _ => false

def isColumnDependency : DependencyKind → Bool
  | columnGeneratedFrom .. => true
  | columnDefaultOnSequence _ => true
  | _ => false

/-- `PartitionOf | PartitionDetachPending`: a partition stays attached until
a concurrent detach is finalized. -/
def isPartition : DependencyKind → Bool
  | partitionOf => true
  | partitionDetachPending => true
  | _ => false

end DependencyKind

structure DependencyEdge where
  dependent : ObjectId
  referenced : ObjectId
  kind : DependencyKind
deriving DecidableEq

/-- Keeps the first occurrence of every element not yet seen. -/
def retainUnseen {α : Type} [DecidableEq α] : List α → List α → List α
  | _, [] => []
  | seen, x :: xs =>
    if x ∈ seen then retainUnseen seen xs else x :: retainUnseen (x :: seen) xs

section RetainUnseen

variable {α : Type} [DecidableEq α]

theorem mem_retainUnseen {seen l : List α} {x : α} :
    x ∈ retainUnseen seen l ↔ x ∈ l ∧ x ∉ seen := by
  induction l generalizing seen with
  | nil => simp [retainUnseen]
  | cons y ys ih =>
    by_cases hy : y ∈ seen
    · simp only [retainUnseen, hy, if_true, ih, List.mem_cons]
      constructor
      · rintro ⟨hx, hs⟩
        exact ⟨Or.inr hx, hs⟩
      · rintro ⟨rfl | hx, hs⟩
        · exact absurd hy hs
        · exact ⟨hx, hs⟩
    · simp only [retainUnseen, hy, if_false, List.mem_cons, ih, not_or]
      by_cases hxy : x = y
      · simp [hxy, hy]
      · simp [hxy]

theorem nodup_retainUnseen (seen l : List α) : (retainUnseen seen l).Nodup := by
  induction l generalizing seen with
  | nil => simp [retainUnseen]
  | cons y ys ih =>
    by_cases hy : y ∈ seen
    · simpa [retainUnseen, hy] using ih seen
    · simp [retainUnseen, hy, ih, mem_retainUnseen]

theorem retainUnseen_eq_self {seen l : List α} (hl : l.Nodup) (hs : ∀ x ∈ l, x ∉ seen) :
    retainUnseen seen l = l := by
  induction l generalizing seen with
  | nil => rfl
  | cons y ys ih =>
    have hn := List.nodup_cons.mp hl
    have hy : y ∉ seen := hs y (by simp)
    have hrest : retainUnseen (y :: seen) ys = ys := by
      refine ih hn.2 fun x hx => ?_
      have hxy : x ≠ y := fun h => hn.1 (h ▸ hx)
      simp [hxy, hs x (by simp [hx])]
    simp [retainUnseen, hy, hrest]

end RetainUnseen

/-- The edge list is a set: hydration rows and idempotent mutations never
multiply an edge. The lookup indexes of the source are derived from it. -/
structure DependencyGraph where
  edges : List DependencyEdge
  nodup : edges.Nodup

namespace DependencyGraph

theorem ext_edges {g h : DependencyGraph} (e : g.edges = h.edges) : g = h := by
  cases g
  cases h
  simp only at e
  subst e
  rfl

def empty : DependencyGraph := ⟨[], List.nodup_nil⟩

/-- `deduplicate_edges` over a rewritten edge list. -/
def ofEdges (edges : List DependencyEdge) : DependencyGraph :=
  ⟨retainUnseen [] edges, nodup_retainUnseen [] edges⟩

@[simp] theorem mem_ofEdges {edges : List DependencyEdge} {e : DependencyEdge} :
    e ∈ (ofEdges edges).edges ↔ e ∈ edges := by
  simp [ofEdges, mem_retainUnseen]

@[simp] theorem ofEdges_edges (g : DependencyGraph) : ofEdges g.edges = g :=
  ext_edges (retainUnseen_eq_self g.nodup (by simp))

def addEdge (g : DependencyGraph) (edge : DependencyEdge) : DependencyGraph :=
  if h : edge ∈ g.edges then g else
    ⟨g.edges ++ [edge], by
      refine List.nodup_append'.mpr ⟨g.nodup, List.nodup_singleton _, ?_⟩
      simpa using h⟩

@[simp] theorem mem_addEdge {g : DependencyGraph} {e x : DependencyEdge} :
    x ∈ (g.addEdge e).edges ↔ x ∈ g.edges ∨ x = e := by
  unfold addEdge
  split
  · rename_i h
    constructor
    · exact Or.inl
    · rintro (hx | rfl)
      · exact hx
      · exact h
  · simp

theorem prefix_addEdge (g : DependencyGraph) (e : DependencyEdge) :
    g.edges <+: (g.addEdge e).edges := by
  unfold addEdge
  split
  · exact List.prefix_refl _
  · exact List.prefix_append _ _

theorem prefix_addEdges (g : DependencyGraph) (edges : List DependencyEdge) :
    g.edges <+: (edges.foldl addEdge g).edges := by
  induction edges generalizing g with
  | nil => exact List.prefix_refl _
  | cons e edges ih => exact (g.prefix_addEdge e).trans (ih _)

theorem mem_addEdges {g : DependencyGraph} {edges : List DependencyEdge} {x : DependencyEdge} :
    x ∈ (edges.foldl addEdge g).edges ↔ x ∈ g.edges ∨ x ∈ edges := by
  induction edges generalizing g with
  | nil => simp
  | cons e edges ih => rw [List.foldl_cons, ih, mem_addEdge, List.mem_cons, or_assoc]

def retainEdges (g : DependencyGraph) (keep : DependencyEdge → Bool) : DependencyGraph :=
  ⟨g.edges.filter keep, g.nodup.filter keep⟩

@[simp] theorem mem_retainEdges {g : DependencyGraph} {keep : DependencyEdge → Bool}
    {e : DependencyEdge} : e ∈ (g.retainEdges keep).edges ↔ e ∈ g.edges ∧ keep e = true := by
  simp [retainEdges]

def edgeCount (g : DependencyGraph) : Nat := g.edges.length

def truncate (g : DependencyGraph) (len : Nat) : DependencyGraph :=
  ⟨g.edges.take len, g.nodup.sublist (List.take_sublist _ _)⟩

/-- Every in-place rewrite of the edge list, followed by deduplication. -/
def mapEdges (g : DependencyGraph) (f : DependencyEdge → DependencyEdge) : DependencyGraph :=
  ofEdges (g.edges.map f)

@[simp] theorem mem_mapEdges {g : DependencyGraph} {f : DependencyEdge → DependencyEdge}
    {e : DependencyEdge} : e ∈ (g.mapEdges f).edges ↔ ∃ x ∈ g.edges, f x = e := by
  simp [mapEdges]

/-- `rename_by_source`: the first rename edge leaving `id`. -/
def renameBySource (g : DependencyGraph) (id : ObjectId) : Option ObjectId :=
  (g.edges.find? fun edge => edge.kind.isRenameTo && edge.dependent == id).map (·.referenced)

/-- The loop of `resolve_rename_with`. It revisits an identity only on a
cycle, and then answers with the identity it was asked about. -/
def resolveRenameLoop (g : DependencyGraph) (id : ObjectId) :
    Nat → List ObjectId → ObjectId → ObjectId
  | 0, _, _ => id
  | fuel + 1, visited, current =>
    if current ∈ visited then id
    else match g.renameBySource current with
      | some next => resolveRenameLoop g id fuel (current :: visited) next
      | none => current

def resolveRename (g : DependencyGraph) (id : ObjectId) : ObjectId :=
  g.resolveRenameLoop id (g.edges.length + 2) [] id

theorem renameBySource_eq_some {g : DependencyGraph} {id next : ObjectId}
    (h : g.renameBySource id = some next) :
    ∃ e ∈ g.edges, e.kind.isRenameTo = true ∧ e.dependent = id ∧ e.referenced = next := by
  obtain ⟨e, he, rfl⟩ := Option.map_eq_some_iff.mp h
  have hp := List.find?_some he
  simp only [Bool.and_eq_true, beq_iff_eq] at hp
  exact ⟨e, List.mem_of_find?_eq_some he, hp.1, hp.2, rfl⟩

theorem renameBySource_eq_none {g : DependencyGraph} {id : ObjectId} :
    g.renameBySource id = none ↔
      ∀ e ∈ g.edges, e.kind.isRenameTo = true → e.dependent ≠ id := by
  simp [renameBySource]

theorem resolveRenameLoop_cases (g : DependencyGraph) (id : ObjectId) (fuel : Nat)
    (visited : List ObjectId) (current : ObjectId) :
    g.resolveRenameLoop id fuel visited current = id ∨
      g.renameBySource (g.resolveRenameLoop id fuel visited current) = none := by
  induction fuel generalizing visited current with
  | zero => exact Or.inl rfl
  | succ fuel ih =>
    unfold resolveRenameLoop
    split
    · exact Or.inl rfl
    · split
      · exact ih _ _
      · rename_i h
        exact Or.inr h

theorem resolveRename_cases (g : DependencyGraph) (id : ObjectId) :
    g.resolveRename id = id ∨ g.renameBySource (g.resolveRename id) = none :=
  g.resolveRenameLoop_cases id _ _ _

theorem resolveRename_of_none {g : DependencyGraph} {id : ObjectId}
    (h : g.renameBySource id = none) : g.resolveRename id = id := by
  simp [resolveRename, resolveRenameLoop, h]

@[simp] theorem resolveRename_resolveRename (g : DependencyGraph) (id : ObjectId) :
    g.resolveRename (g.resolveRename id) = g.resolveRename id := by
  rcases g.resolveRename_cases id with h | h
  · rw [h, h]
  · exact resolveRename_of_none h

/-- Every visited identity leaves its own rename edge, so the fuel of
`resolveRename` outlasts the loop. -/
theorem visited_length_le {g : DependencyGraph} {visited : List ObjectId} (hn : visited.Nodup)
    (hv : ∀ x ∈ visited, g.renameBySource x ≠ none) : visited.length ≤ g.edges.length := by
  have hsub : visited ⊆ g.edges.map (·.dependent) := by
    intro x hx
    obtain ⟨next, hnext⟩ := Option.ne_none_iff_exists'.mp (hv x hx)
    obtain ⟨e, he, -, rfl, -⟩ := renameBySource_eq_some hnext
    exact List.mem_map_of_mem he
  simpa using (List.subperm_of_subset hn hsub).length_le

theorem resolveRenameLoop_fuel {g : DependencyGraph} (id : ObjectId) {visited : List ObjectId}
    (hn : visited.Nodup) (hv : ∀ x ∈ visited, g.renameBySource x ≠ none) {fuel fuel' : Nat}
    (hf : g.edges.length < fuel + visited.length) (hf' : g.edges.length < fuel' + visited.length)
    (current : ObjectId) :
    g.resolveRenameLoop id fuel visited current = g.resolveRenameLoop id fuel' visited current := by
  have hlen := visited_length_le hn hv
  induction fuel generalizing fuel' visited current with
  | zero => omega
  | succ fuel ih =>
    obtain ⟨fuel', rfl⟩ : ∃ n, fuel' = n + 1 := ⟨fuel' - 1, by omega⟩
    unfold resolveRenameLoop
    split
    · rfl
    · rename_i hmem
      split
      · rename_i next hnext
        have hn' : (current :: visited).Nodup := List.nodup_cons.mpr ⟨hmem, hn⟩
        have hv' : ∀ x ∈ current :: visited, g.renameBySource x ≠ none := by
          intro x hx
          rcases List.mem_cons.mp hx with rfl | hx
          · simp [hnext]
          · exact hv x hx
        refine ih hn' hv' ?_ ?_ _ (visited_length_le hn' hv')
        · simp only [List.length_cons]
          omega
        · simp only [List.length_cons]
          omega
      · rfl

end DependencyGraph

end SafeMigrate
