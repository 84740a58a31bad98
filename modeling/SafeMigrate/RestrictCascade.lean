import SafeMigrate.DropTable
import Mathlib.Data.List.Destutter

/-! The two traversals of `DROP TABLE` compared: the edge scan that makes
RESTRICT refuse and the walk that CASCADE follows. The scan takes a partition
with a pending detach for a dependent and the walk does not enter it. -/

namespace SafeMigrate

namespace AnalysisState

section Closure

variable {s : AnalysisState}

theorem mem_cascadeWalker_edges {z : ObjectId} {e : DependencyEdge}
    (hkind : DependencyGraph.isCascadeKind e.kind = true)
    (href : s.graph.resolveRename e.referenced = z) :
    e ∈ s.cascadeWalker.edges z ↔ e ∈ s.graph.edges := by
  have hz : s.graph.resolveRename z = z := by
    rw [← href]
    exact s.graph.resolveRename_resolveRename _
  simp only [cascadeWalker]
  split
  · rw [DependencyGraph.mem_cascadeEdges, hz]
    tauto
  · exact Iff.rfl

theorem cascadeWalker_edges_subset {z : ObjectId} {e : DependencyEdge}
    (h : e ∈ s.cascadeWalker.edges z) : e ∈ s.graph.edges := by
  simp only [cascadeWalker] at h
  split at h
  · exact (DependencyGraph.mem_cascadeEdges.mp h).1
  · exact h

theorem cascadeWalker_next_none {x : ObjectId} {e : DependencyEdge}
    (h : isCascadeLink e.kind = false) : s.cascadeWalker.next x e = none := by
  simp [cascadeWalker, h]

theorem mem_droppedIndexes {target i : ObjectId} :
    i ∈ (s.getCascadeClosure target).droppedIndexes ↔ ∃ e ∈ s.graph.edges,
      e.kind.isIndexOnRelation = true ∧
        s.CascadeReaches target (s.graph.resolveRename e.referenced) ∧
          s.graph.resolveRename e.dependent = i := by
  rw [@getCascadeClosure_holds s (fun out => i ∈ out.droppedIndexes) (fun _ => False)
    (fun x e => e.kind.isIndexOnRelation = true ∧ s.graph.resolveRename e.referenced = x ∧
      s.graph.resolveRename e.dependent = i)]
  · constructor
    · rintro ⟨z, hz, hf | ⟨e, he, -, hk, rfl, hi⟩⟩
      · exact absurd hf not_false
      · exact ⟨e, cascadeWalker_edges_subset he, hk, hz, hi⟩
    · rintro ⟨e, he, hk, hz, hi⟩
      obtain ⟨hcascade, hlink⟩ :
          DependencyGraph.isCascadeKind e.kind = true ∧ isCascadeLink e.kind = false := by
        revert hk
        cases e.kind <;>
          simp [DependencyKind.isIndexOnRelation, DependencyGraph.isCascadeKind, isCascadeLink]
      exact ⟨_, hz, Or.inr ⟨e, (mem_cascadeWalker_edges hcascade rfl).mpr he,
        cascadeWalker_next_none hlink, hk, rfl, hi⟩⟩
  · intro x out
    simp [cascadeWalker]
  · intro x e out _
    simp only [cascadeWalker, walkCascadeEdge]
    cases hk : e.kind with
    | indexOnRelation _ _ _ _ _ _ =>
      have hcurrent : s.dependencyEdgeIsCurrent e = true := by
        simp [dependencyEdgeIsCurrent, hk]
      by_cases hr : s.graph.resolveRename e.referenced = x
      · simp only [hcurrent, hr, DependencyKind.isIndexOnRelation, Bool.not_true,
          Bool.false_eq_true, if_false, if_true, List.mem_insert_iff, true_and]
        exact or_comm.trans (or_congr_right eq_comm)
      · simp [hcurrent, hr]
    | foreignKey name _ _ _ _ =>
      cases name <;> simp only [DependencyKind.isIndexOnRelation] <;> split <;> (try split) <;>
        simp
    | _ =>
      simp only [DependencyKind.isIndexOnRelation]
      split <;> (try split) <;> simp
  · simp

theorem mem_droppedConstraints {target : ObjectId} {key : ObjectId × String} :
    key ∈ (s.getCascadeClosure target).droppedConstraints ↔ ∃ e ∈ s.graph.edges,
      s.dependencyEdgeIsCurrent e = true ∧ e.kind.foreignKeyName = some key.2 ∧
        s.CascadeReaches target (s.graph.resolveRename e.referenced) ∧
          s.graph.resolveRename e.dependent = key.1 := by
  rw [@getCascadeClosure_holds s (fun out => key ∈ out.droppedConstraints) (fun _ => False)
    (fun x e => s.dependencyEdgeIsCurrent e = true ∧ e.kind.foreignKeyName = some key.2 ∧
      s.graph.resolveRename e.referenced = x ∧ s.graph.resolveRename e.dependent = key.1)]
  · constructor
    · rintro ⟨z, hz, hf | ⟨e, he, -, hc, hk, rfl, hi⟩⟩
      · exact absurd hf not_false
      · exact ⟨e, cascadeWalker_edges_subset he, hc, hk, hz, hi⟩
    · rintro ⟨e, he, hc, hk, hz, hi⟩
      obtain ⟨hcascade, hlink⟩ :
          DependencyGraph.isCascadeKind e.kind = true ∧ isCascadeLink e.kind = false := by
        revert hk
        cases e.kind <;>
          simp [DependencyKind.foreignKeyName, DependencyGraph.isCascadeKind, isCascadeLink]
      exact ⟨_, hz, Or.inr ⟨e, (mem_cascadeWalker_edges hcascade rfl).mpr he,
        cascadeWalker_next_none hlink, hc, hk, rfl, hi⟩⟩
  · intro x out
    simp [cascadeWalker]
  · intro x e out _
    simp only [cascadeWalker, walkCascadeEdge]
    by_cases hc : s.dependencyEdgeIsCurrent e = true
    · cases hk : e.kind with
      | foreignKey name _ _ _ _ =>
        cases name with
        | none => simp [hc, DependencyKind.foreignKeyName]
        | some name =>
          by_cases hr : s.graph.resolveRename e.referenced = x
          · simp only [hc, hr, DependencyKind.foreignKeyName, Bool.not_true, Bool.false_eq_true,
              if_false, if_true, List.mem_insert_iff, true_and, Option.some.injEq, Prod.ext_iff]
            constructor
            · rintro (⟨hd, hn⟩ | hout)
              · exact Or.inr ⟨hn.symm, hd.symm⟩
              · exact Or.inl hout
            · rintro (hout | ⟨hn, hd⟩)
              · exact Or.inr hout
              · exact Or.inl ⟨hd.symm, hn.symm⟩
          · simp [hc, hr]
      | _ =>
        simp only [hc, DependencyKind.foreignKeyName]
        split <;> (try split) <;> simp
    · simp [hc]
  · simp

section Union

variable (ids : List ObjectId)

theorem mem_cascadeForRelations {α : Type} {part : CascadeResult → List α} [DecidableEq α]
    (hunion : ∀ (c : CascadeResult) (id : ObjectId) (x : α),
      x ∈ part { droppedRelations := c.droppedRelations ∪ (s.getCascadeClosure id).droppedRelations,
                 droppedIndexes := c.droppedIndexes ∪ (s.getCascadeClosure id).droppedIndexes,
                 droppedConstraints :=
                   c.droppedConstraints ∪ (s.getCascadeClosure id).droppedConstraints } ↔
        x ∈ part c ∨ x ∈ part (s.getCascadeClosure id))
    (hempty : part {} = []) (x : α) :
    x ∈ part (s.cascadeForRelations ids) ↔ ∃ id ∈ ids, x ∈ part (s.getCascadeClosure id) := by
  have hfold : ∀ (ids : List ObjectId) (c : CascadeResult),
      x ∈ part (ids.foldl (fun cascade root =>
        let closure := s.getCascadeClosure root
        { droppedRelations := cascade.droppedRelations ∪ closure.droppedRelations,
          droppedIndexes := cascade.droppedIndexes ∪ closure.droppedIndexes,
          droppedConstraints := cascade.droppedConstraints ∪ closure.droppedConstraints }) c) ↔
        x ∈ part c ∨ ∃ id ∈ ids, x ∈ part (s.getCascadeClosure id) := by
    intro ids
    induction ids with
    | nil => simp
    | cons id ids ih =>
      intro c
      rw [List.foldl_cons, ih, hunion, List.exists_mem_cons_iff, or_assoc]
  rw [cascadeForRelations, hfold, hempty]
  simp

/-- A cascade from one of the listed relations reaches `z`. -/
def CascadeReachesAny (s : AnalysisState) (ids : List ObjectId) (z : ObjectId) : Prop :=
  ∃ id ∈ ids, s.CascadeReaches id z

theorem mem_cascade_droppedRelations {z : ObjectId} :
    z ∈ (s.cascadeForRelations ids).droppedRelations ↔ s.CascadeReachesAny ids z := by
  rw [mem_cascadeForRelations ids (by simp) rfl]
  simp [CascadeReachesAny, mem_droppedRelations]

theorem mem_cascade_droppedIndexes {i : ObjectId} :
    i ∈ (s.cascadeForRelations ids).droppedIndexes ↔ ∃ e ∈ s.graph.edges,
      e.kind.isIndexOnRelation = true ∧
        s.CascadeReachesAny ids (s.graph.resolveRename e.referenced) ∧
          s.graph.resolveRename e.dependent = i := by
  rw [mem_cascadeForRelations ids (by simp) rfl]
  simp only [mem_droppedIndexes, CascadeReachesAny]
  constructor
  · rintro ⟨id, hid, e, he, hk, hz, hi⟩
    exact ⟨e, he, hk, ⟨id, hid, hz⟩, hi⟩
  · rintro ⟨e, he, hk, ⟨id, hid, hz⟩, hi⟩
    exact ⟨id, hid, e, he, hk, hz, hi⟩

theorem mem_cascade_droppedConstraints {key : ObjectId × String} :
    key ∈ (s.cascadeForRelations ids).droppedConstraints ↔ ∃ e ∈ s.graph.edges,
      s.dependencyEdgeIsCurrent e = true ∧ e.kind.foreignKeyName = some key.2 ∧
        s.CascadeReachesAny ids (s.graph.resolveRename e.referenced) ∧
          s.graph.resolveRename e.dependent = key.1 := by
  rw [mem_cascadeForRelations ids (by simp) rfl]
  simp only [mem_droppedConstraints, CascadeReachesAny]
  constructor
  · rintro ⟨id, hid, e, he, hc, hk, hz, hi⟩
    exact ⟨e, he, hc, hk, ⟨id, hid, hz⟩, hi⟩
  · rintro ⟨e, he, hc, hk, ⟨id, hid, hz⟩, hi⟩
    exact ⟨id, hid, e, he, hc, hk, hz, hi⟩

end Union

end Closure

/-- The kinds of edges by which a relation keeps another one. A partition
whose concurrent detach is pending is still attached. -/
def isAttachedLink (kind : DependencyKind) : Bool :=
  isCascadeLink kind || kind == .partitionDetachPending

def AttachedStep (s : AnalysisState) (a b : ObjectId) : Prop :=
  ∃ e ∈ s.graph.edges, s.dependencyEdgeIsCurrent e = true ∧ isAttachedLink e.kind = true ∧
    s.graph.resolveRename e.referenced = a ∧ s.graph.resolveRename e.dependent = b

/-- The least set with the listed relations that is closed under attached
dependents. -/
def attachedClosure (s : AnalysisState) (ids : List ObjectId) : Set ObjectId :=
  {z | ∀ C : Set ObjectId, (∀ id ∈ ids, s.graph.resolveRename id ∈ C) →
    (∀ a ∈ C, ∀ b, s.AttachedStep a b → b ∈ C) → z ∈ C}

section Attached

variable {s : AnalysisState} {ids : List ObjectId}

theorem root_mem_attachedClosure {id : ObjectId} (h : id ∈ ids) :
    s.graph.resolveRename id ∈ s.attachedClosure ids := fun _ hroots _ => hroots id h

theorem AttachedStep.mem_closure {a b : ObjectId} (h : s.AttachedStep a b)
    (ha : a ∈ s.attachedClosure ids) : b ∈ s.attachedClosure ids :=
  fun C hroots hclosed => hclosed a (ha C hroots hclosed) b h

theorem CascadeStep.attached {a b : ObjectId} (h : s.CascadeStep a b) : s.AttachedStep a b := by
  obtain ⟨e, he, hc, hk, hr, hd⟩ := h
  exact ⟨e, he, hc, by simp [isAttachedLink, hk], hr, hd⟩

theorem CascadeReachesAny.mem_closure {z : ObjectId} (h : s.CascadeReachesAny ids z) :
    z ∈ s.attachedClosure ids := by
  obtain ⟨id, hid, hz⟩ := h
  induction hz with
  | refl => exact root_mem_attachedClosure hid
  | tail _ hstep ih => exact hstep.attached.mem_closure ih

theorem cascadeReachesAny_root {id : ObjectId} (h : id ∈ ids) :
    s.CascadeReachesAny ids (s.graph.resolveRename id) := ⟨id, h, .refl⟩

theorem CascadeReachesAny.step {a b : ObjectId} (h : s.CascadeReachesAny ids a)
    (hstep : s.CascadeStep a b) : s.CascadeReachesAny ids b := by
  obtain ⟨id, hid, ha⟩ := h
  exact ⟨id, hid, ha.tail hstep⟩

/-- The walk closes up as soon as it closes under pending detaches. -/
theorem attachedClosure_eq (s : AnalysisState) (ids : List ObjectId) :
    (∀ z, s.CascadeReachesAny ids z ↔ z ∈ s.attachedClosure ids) ↔
      ∀ e ∈ s.graph.edges, e.kind = .partitionDetachPending →
        s.CascadeReachesAny ids (s.graph.resolveRename e.referenced) →
          s.CascadeReachesAny ids (s.graph.resolveRename e.dependent) := by
  constructor
  · intro h e he hk href
    have hcurrent : s.dependencyEdgeIsCurrent e = true := by simp [dependencyEdgeIsCurrent, hk]
    have hstep : s.AttachedStep (s.graph.resolveRename e.referenced)
        (s.graph.resolveRename e.dependent) :=
      ⟨e, he, hcurrent, by simp [isAttachedLink, hk], rfl, rfl⟩
    exact (h _).mpr (hstep.mem_closure ((h _).mp href))
  · intro hpending z
    refine ⟨CascadeReachesAny.mem_closure, fun hz => ?_⟩
    refine hz {y | s.CascadeReachesAny ids y} (fun id hid => cascadeReachesAny_root hid) ?_
    rintro a ha b ⟨e, he, hc, hk, rfl, rfl⟩
    by_cases hlink : isCascadeLink e.kind = true
    · exact CascadeReachesAny.step ha ⟨e, he, hc, hlink, rfl, rfl⟩
    · refine hpending e he ?_ ha
      simpa [isAttachedLink, hlink] using hk

end Attached

/-- A list of tables that `DROP TABLE` finds and may drop. -/
structure DroppableTargets (s : AnalysisState) (ids : List ObjectRef) : Prop where
  nonempty : ids ≠ []
  notMember : ∀ r ∈ ids, s.extensionMemberDropConflict .relation r "table" = none
  present : ∀ r ∈ ids, s.relationLookup r (· == .table) = .present

/-- A current edge that makes an object outside the targets depend on one
of them. -/
structure LeavesTargets (s : AnalysisState) (ids : List ObjectId) (e : DependencyEdge) :
    Prop where
  mem : e ∈ s.graph.edges
  current : s.dependencyEdgeIsCurrent e = true
  kind : isAttachedLink e.kind = true ∨ e.kind.isForeignKey = true
  referenced : s.graph.resolveRename e.referenced ∈ ids.map s.graph.resolveRename
  dependent : s.graph.resolveRename e.dependent ∉ ids.map s.graph.resolveRename

/-- What RESTRICT answers when it refuses a drop of these tables. -/
def restrictRefusal (ids : List ObjectRef) : MutationResult :=
  .rejected (dependentObjectsReason (sortTargets ids).length
    (", ".intercalate (ids.map (·.display))))

section Restrict

variable {s : AnalysisState} {ids : List ObjectRef}

theorem scanDropTargets_present {ifExists unknown : Bool} {ids : List ObjectRef}
    (h : ∀ r ∈ ids, s.relationLookup r (· == .table) = .present) (present : List ObjectRef) :
    s.scanDropTargets ifExists ids present unknown = .ok (present ++ ids, unknown) := by
  induction ids generalizing present with
  | nil => simp [scanDropTargets]
  | cons r rest ih =>
    have hr := h r (by simp)
    have hrest := ih (fun x hx => h x (by simp [hx])) (present ++ [r])
    simpa [scanDropTargets, hr] using hrest

theorem mem_destutter'_ids {id : ObjectId} (r : ObjectRef) (targets : List ObjectRef) :
    id ∈ (targets.destutter' (fun a b => a.id ≠ b.id) r).map (·.id) ↔
      id = r.id ∨ id ∈ targets.map (·.id) := by
  induction targets generalizing r with
  | nil => simp
  | cons t targets ih =>
    by_cases ht : r.id = t.id
    · rw [List.destutter'_cons_neg _ (by simpa using ht), ih, List.map_cons, List.mem_cons, ht]
      tauto
    · rw [List.destutter'_cons_pos _ ht, List.map_cons, List.mem_cons, ih, List.map_cons,
        List.mem_cons]

theorem mem_sortTargets_ids {targets : List ObjectRef} {id : ObjectId} :
    id ∈ (sortTargets targets).map (·.id) ↔ id ∈ targets.map (·.id) := by
  unfold sortTargets
  have hperm := (List.perm_insertionSort (fun a b : ObjectRef => a.display ≤ b.display)
    targets).map (·.id)
  rw [← hperm.mem_iff]
  cases targets.insertionSort (fun a b : ObjectRef => a.display ≤ b.display) with
  | nil => simp
  | cons r rest => simp [List.destutter, mem_destutter'_ids]

theorem applyDropTable_of_droppable (h : s.DroppableTargets ids) (ifExists cascade : Bool)
    (precomputedCascade : Option CascadeResult) :
    s.applyDropTable { ids, ifExists, cascade } precomputedCascade =
      s.dropPresentTables ((sortTargets ids).map (·.id))
        (", ".intercalate (ids.map (·.display))) cascade precomputedCascade := by
  obtain ⟨r, rest, rfl⟩ := List.exists_cons_of_ne_nil h.nonempty
  have hmember : (r :: rest).findSome?
      (fun r => s.extensionMemberDropConflict .relation r "table") = none :=
    List.findSome?_eq_none_iff.mpr h.notMember
  have hscan := @scanDropTargets_present s ifExists false _ h.present []
  simp only [applyDropTable, List.isEmpty_cons, Bool.false_eq_true, if_false, hmember, hscan,
    List.nil_append]

theorem restrict_refuses_iff (h : s.DroppableTargets ids) (ifExists : Bool) :
    (s.applyDropTable { ids, ifExists, cascade := false } none).1 = restrictRefusal ids ↔
      ∃ e, s.LeavesTargets (ids.map (·.id)) e ∧
        s.graph.resolveRename e.dependent ∉ s.coDroppedObjects := by
  have hroots : ∀ z, z ∈ (((sortTargets ids).map (·.id)).map s.graph.resolveRename).dedup ↔
      z ∈ (ids.map (·.id)).map s.graph.resolveRename := by
    intro z
    rw [List.mem_dedup, List.mem_map, List.mem_map]
    simp only [mem_sortTargets_ids]
  have hany : (s.hasViewDeps (((sortTargets ids).map (·.id)).map s.graph.resolveRename).dedup ||
      s.hasFkDeps (((sortTargets ids).map (·.id)).map s.graph.resolveRename).dedup ||
      s.hasInheritanceDeps
        (((sortTargets ids).map (·.id)).map s.graph.resolveRename).dedup) = true ↔
      ∃ e, s.LeavesTargets (ids.map (·.id)) e ∧
        s.graph.resolveRename e.dependent ∉ s.coDroppedObjects := by
    simp only [Bool.or_eq_true, hasViewDeps, hasFkDeps, hasInheritanceDeps, List.any_eq_true,
      Bool.and_eq_true, decide_eq_true_eq, hroots]
    constructor
    · rintro ((⟨e, he, ⟨⟨⟨hc, hk⟩, hr⟩, hd⟩, hco⟩ | ⟨e, he, ⟨⟨⟨hc, hk⟩, hr⟩, hd⟩, hco⟩) |
        ⟨e, he, ⟨⟨hk, hr⟩, hd⟩, hco⟩)
      · refine ⟨e, ⟨he, hc, Or.inl ?_, hr, hd⟩, hco⟩
        revert hk
        cases e.kind <;> simp [DependencyKind.isViewDependency, isAttachedLink, isCascadeLink]
      · exact ⟨e, ⟨he, hc, Or.inr hk, hr, hd⟩, hco⟩
      · refine ⟨e, ⟨he, ?_, Or.inl ?_, hr, hd⟩, hco⟩
        · revert hk
          unfold dependencyEdgeIsCurrent
          cases e.kind <;> simp [isInheritanceOrPartition]
        · revert hk
          cases e.kind <;> simp [isInheritanceOrPartition, isAttachedLink, isCascadeLink]
    · rintro ⟨e, ⟨he, hc, hk, hr, hd⟩, hco⟩
      cases hkind : e.kind with
      | viewDependency _ _ =>
        exact Or.inl (Or.inl ⟨e, he, ⟨⟨⟨hc, by simp [hkind, DependencyKind.isViewDependency]⟩, hr⟩,
          hd⟩, hco⟩)
      | foreignKey _ _ _ _ _ =>
        exact Or.inl (Or.inr ⟨e, he, ⟨⟨⟨hc, by simp [hkind, DependencyKind.isForeignKey]⟩, hr⟩,
          hd⟩, hco⟩)
      | inheritanceOf | partitionOf | partitionDetachPending =>
        exact Or.inr ⟨e, he, ⟨⟨by simp [hkind, isInheritanceOrPartition], hr⟩, hd⟩, hco⟩
      | _ => simp [hkind, isAttachedLink, isCascadeLink, DependencyKind.isForeignKey] at hk
  rw [applyDropTable_of_droppable h, ← hany]
  unfold dropPresentTables
  simp only [Bool.false_eq_true, if_false, List.length_map]
  split
  · next hdeps => exact ⟨fun _ => hdeps, fun _ => rfl⟩
  · next hdeps =>
    refine ⟨fun happlied => ?_, fun hrefused => absurd hrefused hdeps⟩
    simp [restrictRefusal, MutationResult.rejected] at happlied

end Restrict

/-- RESTRICT and CASCADE classify the same dependents, and the walk yields the
attached closure with all indexes and inbound foreign keys of it. -/
structure RestrictMatchesCascade (s : AnalysisState) (ids : List ObjectRef) (ifExists : Bool) :
    Prop where
  refusal : (s.applyDropTable { ids, ifExists, cascade := false } none).1 = restrictRefusal ids ↔
    (∃ z ∈ (s.cascadeForRelations (ids.map (·.id))).droppedRelations,
      z ∉ (ids.map (·.id)).map s.graph.resolveRename) ∨
    ∃ key ∈ (s.cascadeForRelations (ids.map (·.id))).droppedConstraints,
      key.1 ∉ (ids.map (·.id)).map s.graph.resolveRename
  relations : ∀ z, z ∈ (s.cascadeForRelations (ids.map (·.id))).droppedRelations ↔
    z ∈ s.attachedClosure (ids.map (·.id))
  indexes : ∀ i, i ∈ (s.cascadeForRelations (ids.map (·.id))).droppedIndexes ↔
    ∃ e ∈ s.graph.edges, e.kind.isIndexOnRelation = true ∧
      s.graph.resolveRename e.referenced ∈ s.attachedClosure (ids.map (·.id)) ∧
        s.graph.resolveRename e.dependent = i
  foreignKeys : ∀ e ∈ s.graph.edges, e.kind.isForeignKey = true →
    s.dependencyEdgeIsCurrent e = true →
    s.graph.resolveRename e.referenced ∈ s.attachedClosure (ids.map (·.id)) →
    ∃ name, e.kind.foreignKeyName = some name ∧ (s.graph.resolveRename e.dependent, name) ∈
      (s.cascadeForRelations (ids.map (·.id))).droppedConstraints
  constraints : ∀ key ∈ (s.cascadeForRelations (ids.map (·.id))).droppedConstraints,
    ∃ e ∈ s.graph.edges, s.dependencyEdgeIsCurrent e = true ∧
      e.kind.foreignKeyName = some key.2 ∧
      s.graph.resolveRename e.referenced ∈ s.attachedClosure (ids.map (·.id)) ∧
      s.graph.resolveRename e.dependent = key.1

/-- A state in which the walk misses nothing that the scan counts. -/
structure WalkSeesDependents (s : AnalysisState) (ids : List ObjectId) : Prop where
  pending : ∀ e ∈ s.graph.edges, e.kind = .partitionDetachPending →
    s.CascadeReachesAny ids (s.graph.resolveRename e.referenced) →
      s.CascadeReachesAny ids (s.graph.resolveRename e.dependent)
  named : ∀ e ∈ s.graph.edges, e.kind.isForeignKey = true → s.dependencyEdgeIsCurrent e = true →
    s.CascadeReachesAny ids (s.graph.resolveRename e.referenced) → e.kind.foreignKeyName ≠ none
  notCoDropped : (∃ e, s.LeavesTargets ids e) →
    ∃ e, s.LeavesTargets ids e ∧ s.graph.resolveRename e.dependent ∉ s.coDroppedObjects

section Compare

variable {s : AnalysisState} {ids : List ObjectId}

theorem isForeignKey_of_name {kind : DependencyKind} {name : String}
    (h : kind.foreignKeyName = some name) : kind.isForeignKey = true := by
  revert h
  cases kind <;> simp [DependencyKind.foreignKeyName, DependencyKind.isForeignKey]

/-- A walk that leaves the targets does so along one edge of a target. -/
theorem CascadeReachesAny.leaves {z : ObjectId} (h : s.CascadeReachesAny ids z)
    (hz : z ∉ ids.map s.graph.resolveRename) : ∃ e, s.LeavesTargets ids e := by
  obtain ⟨id, hid, hreach⟩ := h
  induction hreach with
  | refl => exact absurd (List.mem_map_of_mem hid) hz
  | @tail a b hprev hstep ih =>
    by_cases ha : a ∈ ids.map s.graph.resolveRename
    · obtain ⟨e, he, hc, hk, rfl, rfl⟩ := hstep
      exact ⟨e, he, hc, Or.inl (by simp [isAttachedLink, hk]), ha, hz⟩
    · exact ih ha

theorem cascadeReachesAny_of_mem {z : ObjectId} (h : z ∈ ids.map s.graph.resolveRename) :
    s.CascadeReachesAny ids z := by
  obtain ⟨id, hid, rfl⟩ := List.mem_map.mp h
  exact cascadeReachesAny_root hid

/-- What CASCADE takes outside the targets, seen from the edges. -/
theorem closure_leaves_iff
    (hpending : ∀ e ∈ s.graph.edges, e.kind = .partitionDetachPending →
      s.CascadeReachesAny ids (s.graph.resolveRename e.referenced) →
        s.CascadeReachesAny ids (s.graph.resolveRename e.dependent))
    (hnamed : ∀ e ∈ s.graph.edges, e.kind.isForeignKey = true →
      s.dependencyEdgeIsCurrent e = true →
      s.CascadeReachesAny ids (s.graph.resolveRename e.referenced) →
        e.kind.foreignKeyName ≠ none) :
    ((∃ z ∈ (s.cascadeForRelations ids).droppedRelations, z ∉ ids.map s.graph.resolveRename) ∨
      ∃ key ∈ (s.cascadeForRelations ids).droppedConstraints,
        key.1 ∉ ids.map s.graph.resolveRename) ↔ ∃ e, s.LeavesTargets ids e := by
  constructor
  · rintro (⟨z, hz, hout⟩ | ⟨key, hkey, hout⟩)
    · exact ((mem_cascade_droppedRelations ids).mp hz).leaves hout
    · obtain ⟨e, he, hc, hk, href, hd⟩ := (mem_cascade_droppedConstraints ids).mp hkey
      by_cases hin : s.graph.resolveRename e.referenced ∈ ids.map s.graph.resolveRename
      · exact ⟨e, he, hc, Or.inr (isForeignKey_of_name hk), hin, hd ▸ hout⟩
      · exact href.leaves hin
  · rintro ⟨e, he, hc, hk, hr, hd⟩
    have href := cascadeReachesAny_of_mem hr
    rcases hk with hlink | hfk
    · refine Or.inl ⟨_, (mem_cascade_droppedRelations ids).mpr ?_, hd⟩
      by_cases hwalk : isCascadeLink e.kind = true
      · exact href.step ⟨e, he, hc, hwalk, rfl, rfl⟩
      · exact hpending e he (by simpa [isAttachedLink, hwalk] using hlink) href
    · obtain ⟨name, hname⟩ := Option.ne_none_iff_exists'.mp (hnamed e he hfk hc href)
      exact Or.inr ⟨(_, name),
        (mem_cascade_droppedConstraints ids).mpr ⟨e, he, hc, hname, href, rfl⟩, hd⟩

end Compare

/-- The two traversals agree exactly when the walk itself reaches every
partition with a pending detach and every foreign key has a name. -/
theorem restrict_matches_cascade_iff {s : AnalysisState} {ids : List ObjectRef}
    (h : s.DroppableTargets ids) (ifExists : Bool) :
    s.RestrictMatchesCascade ids ifExists ↔ s.WalkSeesDependents (ids.map (·.id)) := by
  constructor
  · intro hmatch
    have hclosure : ∀ z, s.CascadeReachesAny (ids.map (·.id)) z ↔
        z ∈ s.attachedClosure (ids.map (·.id)) := by
      intro z
      rw [← mem_cascade_droppedRelations]
      exact hmatch.relations z
    have hpending := (attachedClosure_eq s _).mp hclosure
    have hnamed : ∀ e ∈ s.graph.edges, e.kind.isForeignKey = true →
        s.dependencyEdgeIsCurrent e = true →
        s.CascadeReachesAny (ids.map (·.id)) (s.graph.resolveRename e.referenced) →
          e.kind.foreignKeyName ≠ none := by
      intro e he hk hc href
      obtain ⟨name, hname, -⟩ := hmatch.foreignKeys e he hk hc ((hclosure _).mp href)
      simp [hname]
    refine ⟨hpending, hnamed, fun hleaves => ?_⟩
    exact (restrict_refuses_iff h ifExists).mp
      (hmatch.refusal.mpr ((closure_leaves_iff hpending hnamed).mpr hleaves))
  · rintro ⟨hpending, hnamed, hco⟩
    have hclosure := (attachedClosure_eq s _).mpr hpending
    refine ⟨?_, ?_, ?_, ?_, ?_⟩
    · rw [restrict_refuses_iff h ifExists, closure_leaves_iff hpending hnamed]
      exact ⟨fun ⟨e, he, _⟩ => ⟨e, he⟩, hco⟩
    · intro z
      rw [mem_cascade_droppedRelations]
      exact hclosure z
    · intro i
      simp only [mem_cascade_droppedIndexes, hclosure]
    · intro e he hk hc href
      have hreach := (hclosure _).mpr href
      obtain ⟨name, hname⟩ := Option.ne_none_iff_exists'.mp (hnamed e he hk hc hreach)
      exact ⟨name, hname,
        (mem_cascade_droppedConstraints _).mpr ⟨e, he, hc, hname, hreach, rfl⟩⟩
    · intro key hkey
      obtain ⟨e, he, hc, hk, href, hd⟩ := (mem_cascade_droppedConstraints _).mp hkey
      exact ⟨e, he, hc, hk, (hclosure _).mp href, hd⟩

section Partitioned

def eventsId : ObjectId := ⟨"public", "events"⟩

def eventsOldId : ObjectId := ⟨"public", "events_old"⟩

/-- A partitioned table with one partition, joined by an edge of that kind. -/
def partitionedState (kind : DependencyKind) : AnalysisState :=
  let table (id : ObjectId) : RelationOverlay :=
    .present (.new id ⟨"", "postgres"⟩ 0 none .table .permanent 0)
  { relations := ((∅ : KeyedMap ObjectId RelationOverlay).insert eventsId
      (table eventsId)).insert eventsOldId (table eventsOldId),
    graph := .ofEdges [{ dependent := eventsOldId, referenced := eventsId, kind }] }

theorem partitionedState_droppable (kind : DependencyKind) :
    (partitionedState kind).DroppableTargets [⟨eventsId, false⟩] where
  nonempty := by simp
  notMember := by
    intro r hr
    rw [List.mem_singleton.mp hr]
    rfl
  present := by
    intro r hr
    rw [List.mem_singleton.mp hr]
    rfl

theorem partitionOf_walkSeesDependents :
    (partitionedState .partitionOf).RestrictMatchesCascade [⟨eventsId, false⟩] false := by
  refine (restrict_matches_cascade_iff (partitionedState_droppable _) false).mpr ⟨?_, ?_, ?_⟩
  · intro e he hk
    rw [show e = ⟨eventsOldId, eventsId, .partitionOf⟩ from List.mem_singleton.mp he] at hk
    cases hk
  · intro e he hk
    rw [show e = ⟨eventsOldId, eventsId, .partitionOf⟩ from List.mem_singleton.mp he] at hk
    cases hk
  · rintro ⟨e, he⟩
    exact ⟨e, he, by simp [partitionedState]⟩

/-- RESTRICT refuses to drop the parent of a partition with a pending detach
while the walk of CASCADE stays on the parent. -/
theorem pendingDetach_not_matched :
    (partitionedState .partitionDetachPending).DroppableTargets [⟨eventsId, false⟩] ∧
      ¬(partitionedState .partitionDetachPending).RestrictMatchesCascade
        [⟨eventsId, false⟩] false := by
  refine ⟨partitionedState_droppable _, fun hmatch => ?_⟩
  have hrefused : ((partitionedState .partitionDetachPending).applyDropTable
      { ids := [⟨eventsId, false⟩], ifExists := false, cascade := false } none).1 =
        restrictRefusal [⟨eventsId, false⟩] := by decide +kernel
  have hclosure : (partitionedState .partitionDetachPending).cascadeForRelations [eventsId] =
      { droppedRelations := [eventsId] } := by decide +kernel
  have hroots : [eventsId].map (partitionedState .partitionDetachPending).graph.resolveRename =
      [eventsId] := by decide +kernel
  have houtside := hmatch.refusal.mp hrefused
  simp only [List.map_cons, List.map_nil, hclosure] at houtside hroots
  simp [hroots] at houtside

end Partitioned

end AnalysisState

end SafeMigrate
