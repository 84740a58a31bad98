import SafeMigrate.PartitionWrites

/-! What `CREATE TABLE` makes of the families of partitions: one new relation,
linked to its parent, whose predicate aggregates over its siblings. -/

namespace SafeMigrate

open Command AnalysisState SiblingCache

namespace CreateTable

variable {text : SqlText} {clauses : CheckClauses} {create : CreateTable}

/-- A relation under the bound of the statement, and without a predicate. -/
def HasWrittenBound (text : SqlText) (create : CreateTable) (relation : RelationState) : Prop :=
  relation.partitionBound = create.partitionBound.map text.canonicalPartitionBound ∧
    relation.partitionConstraint = none

section WrittenBound

variable {relation : RelationState}

theorem HasWrittenBound.addColumn (h : create.HasWrittenBound text relation) (name : String)
    (dataType : Option String) (notNull : Bool) (default : Option ExprIr) :
    create.HasWrittenBound text (relation.addColumn name dataType notNull default) := by
  unfold RelationState.addColumn
  split
  · exact h
  · exact h

theorem HasWrittenBound.declareColumn {declared : RelationState × List String}
    (h : create.HasWrittenBound text declared.1) (column : ColumnMutation) :
    Returns (fun declared => create.HasWrittenBound text declared.1)
      (create.declareColumn text declared column) := by
  refine Returns.bind (Returns.of_forall (P := fun _ => True) fun _ => trivial) fun _ _ =>
    Returns.bind (Returns.of_forall (P := fun _ => True) fun _ => trivial) fun s _ =>
      Returns.pure ?_
  have hadded : create.HasWrittenBound text (declared.1.addColumn column.name column.ty
      (column.notNull || create.isPrimaryKeyColumn column) column.default) := h.addColumn _ _ _ _
  cases generatedColumnKind column.generation <;> cases identityGeneration column.generation <;>
    exact hadded

theorem HasWrittenBound.finishRelation (h : create.HasWrittenBound text relation)
    (plan : TablePlan) (s : AnalysisState) :
    create.HasWrittenBound text (create.finishRelation plan s relation) := by
  unfold CreateTable.finishRelation
  dsimp only
  generalize hstart : ({ relation with columnInheritance := _ } : RelationState) = start
  have hs : create.HasWrittenBound text start := by
    rw [← hstart]
    exact h
  clear hstart
  induction plan.sequences generalizing start with
  | nil => exact hs
  | cons sequence sequences ih => exact ih _ hs

theorem returns_declareColumns (plan : TablePlan) (s : AnalysisState) (generation : Nat) :
    Returns (fun declared => create.HasWrittenBound text declared.1)
      (create.columns.foldlM (create.declareColumn text)
        (create.initialRelation text plan s generation, [])) := by
  refine Returns.foldlM _ (fun _ column h => h.declareColumn column) ?_
  exact ⟨rfl, rfl⟩

end WrittenBound

/-- The families after the statement has built its table. -/
structure BuildsPartition (text : SqlText) (clauses : CheckClauses) (create : CreateTable)
    (F G : Family ObjectId PartitionShape String) : Prop where
  shape : ∃ made : PartitionShape,
    made.partitionBound = create.partitionBound.map text.canonicalPartitionBound ∧
      G.shape = Function.update F.shape create.id.id (some made)
  cache : ∀ k, k ≠ create.id.id → G.cache k = F.cache k
  links : ∃ extra, G.links = F.links ++ extra ∧ ∀ link ∈ extra,
    link.1 = create.id.id ∧ some link.2 = create.partitionOf.map (·.id)
  own : ∀ value, G.cache create.id.id = some value →
    (G.shape create.id.id).any (partitionScheme text clauses).caches = true →
      ∃ parent, create.partitionOf.map (·.id) = some parent ∧
        (partitionScheme text clauses).aggregate G parent = some value

/-- A statement that ended early leaves the families as they were. -/
def BuildsAtMost (text : SqlText) (clauses : CheckClauses) (create : CreateTable)
    (F G : Family ObjectId PartitionShape String) : Prop :=
  G = F ∨ create.BuildsPartition text clauses F G

/-- Only a table whose name was free is built. -/
def BuildsIfFree (text : SqlText) (clauses : CheckClauses) (create : CreateTable)
    (F G : Family ObjectId PartitionShape String) : Prop :=
  G = F ∨ F.shape create.id.id = none ∧ create.BuildsPartition text clauses F G

section Attach

variable {s : AnalysisState}

/-- The predicate of a new default partition aggregates over its siblings. -/
theorem setPartitionConstraint_partitions (htext : text.ReadsColumns clauses) {parent : ObjectId}
    {relation : RelationState} (hrelation : s.presentRelation create.id.id = some relation)
    (hnone : relation.partitionConstraint = none) :
    let t := create.setPartitionConstraint text s parent
    t.partitions.shape = s.partitions.shape ∧ t.partitions.links = s.partitions.links ∧
      (∀ k, k ≠ create.id.id → t.partitions.cache k = s.partitions.cache k) ∧
      ∀ value, t.partitions.cache create.id.id = some value →
        relation.partitionShape.isDefault = true →
          (partitionScheme text clauses).aggregate t.partitions parent = some value := by
  intro t
  have hcache : s.partitions.cache create.id.id = none := by
    simp [partitions, hrelation, hnone]
  have ht : t = create.setPartitionConstraint text s parent := rfl
  unfold setPartitionConstraint at ht
  cases hgenerated : s.generatedPartitionConstraint text parent create.id.id with
  | none =>
    rw [hgenerated] at ht
    rw [ht]
    refine ⟨rfl, rfl, fun _ _ => rfl, fun value hvalue => ?_⟩
    rw [hcache] at hvalue
    cases hvalue
  | some constraint =>
    rw [hgenerated] at ht
    dsimp only at ht
    have hpresent (k : ObjectId) : t.presentRelation k = if k = create.id.id then
        some { relation with partitionConstraint := some constraint } else s.presentRelation k := by
      rw [ht, presentRelation_modifyRelation, hrelation]
      rfl
    have hshape : t.partitions.shape = s.partitions.shape := by
      refine partitions_shape_congr fun k => ?_
      rw [hpresent]
      by_cases hk : k = create.id.id
      · rw [if_pos hk, hk, hrelation]
        rfl
      · rw [if_neg hk]
    have hlinks : t.partitions.links = s.partitions.links :=
      partitions_links_congr (by rw [ht, modifyRelation_graph])
    refine ⟨hshape, hlinks, fun k hk => ?_, fun value hvalue hdefault => ?_⟩
    · simp [partitions, hpresent, hk]
    · have hvalue' : constraint = value := by simpa [partitions, hpresent] using hvalue
      have hbound : ∃ bound, relation.partitionBound = some bound ∧ isDefaultBound bound = true := by
        simpa [PartitionShape.isDefault, RelationState.partitionShape, Option.any_eq_true] using
          hdefault
      obtain ⟨bound, hbound, hisDefault⟩ := hbound
      have hsynthesized : s.synthesizeDefaultPartitionConstraint text parent = some constraint := by
        simpa [generatedPartitionConstraint, hrelation, hbound, hisDefault] using hgenerated
      rw [Scheme.aggregate_congr hshape hlinks, ← hvalue',
        ← synthesizeDefaultPartitionConstraint_eq htext]
      exact hsynthesized

theorem attachToParent_partitions (htext : text.ReadsColumns clauses) {relation : RelationState}
    (hrelation : s.presentRelation create.id.id = some relation)
    (hnone : relation.partitionConstraint = none) :
    let t := (create.attachToParent text).after s
    t.partitions.shape = s.partitions.shape ∧ t.partitions.links = s.partitions.links ∧
      (∀ k, k ≠ create.id.id → t.partitions.cache k = s.partitions.cache k) ∧
      ∀ value, t.partitions.cache create.id.id = some value →
        relation.partitionShape.isDefault = true → ∃ parent,
          create.partitionOf.map (·.id) = some parent ∧
            (partitionScheme text clauses).aggregate t.partitions parent = some value := by
  unfold attachToParent
  cases hparent : create.partitionOf with
  | none =>
    refine ⟨rfl, rfl, fun _ _ => rfl, fun value hvalue => ?_⟩
    have hcache : s.partitions.cache create.id.id = none := by
      simp [partitions, hrelation, hnone]
    rw [after_pure, hcache] at hvalue
    cases hvalue
  | some parent =>
    obtain ⟨hshape, hlinks, hothers, hown⟩ :=
      setPartitionConstraint_partitions htext hrelation hnone
    -- the triggers and indexes that follow are of no concern to the families
    have hrest : Keeps SamePartitions (cloneRowTriggersToPartition parent.id create.id >>= fun _ =>
        modify fun s => s.ensurePartitionIndexesAndConstraints parent.id create.id.id) := by
      have hwrites : KeepsObjectWrites create.id.id none (LinksGrow create.id.id none) :=
        keepsObjectWrites_linksGrow
      exact ((hwrites.cloneRowTriggersToPartition parent.id rfl).bind fun _ =>
        Keeps.modify fun s => hwrites.ensurePartitionIndexesAndConstraints s _ _).mono
          fun _ _ h => h.same
    have hsame := hrest (create.setPartitionConstraint text s parent.id)
    dsimp only
    rw [after_modify_bind, hsame]
    exact ⟨hshape, hlinks, hothers, fun value hvalue hdefault =>
      ⟨parent.id, rfl, hown value hvalue hdefault⟩⟩

end Attach

section Build

/-- What follows once the columns are declared. -/
def build (text : SqlText) (create : CreateTable) (plan : TablePlan) (generation : Nat)
    (relation : AnalysisState → RelationState) (notNullColumns : List String) :
    Statement MutationResult := do
  modify fun s => s.setRelations (s.relations.insert create.id.id (.present (relation s)))
  modify (create.addObjects plan generation notNullColumns)
  create.attachToParent text
  pure .applied

theorem build_partitions (htext : text.ReadsColumns clauses) (plan : TablePlan) (generation : Nat)
    {relation : AnalysisState → RelationState}
    (hrelation : ∀ s, create.HasWrittenBound text (relation s)) (notNullColumns : List String) :
    Keeps (fun s t => create.BuildsPartition text clauses s.partitions t.partitions)
      (create.build text plan generation relation notNullColumns) := by
  intro s
  obtain ⟨hbound, hnone⟩ := hrelation s
  let start := s.setRelations (s.relations.insert create.id.id (.present (relation s)))
  let made := create.addObjects plan generation notNullColumns start
  have hmade : LinksGrow create.id.id (create.partitionOf.map (·.id)) start made :=
    keeps_addObjects keepsObjectWrites_linksGrow plan generation notNullColumns start
  have hstart (k : ObjectId) : start.presentRelation k =
      if k = create.id.id then some (relation s) else s.presentRelation k :=
    presentRelation_insert s _ _ _
  have hafter : (create.build text plan generation relation notNullColumns).after s =
      (create.attachToParent text).after made := by
    unfold build
    rw [after_modify_bind, after_modify_bind, after_bind_pure]
  -- building the objects of the table leaves its relation as it was inserted
  have hshape : made.partitions.shape = Function.update s.partitions.shape create.id.id
      (some (relation s).partitionShape) := by
    rw [hmade.shape]
    funext k
    by_cases hk : k = create.id.id
    · subst hk
      simp [partitions, hstart]
    · simp [partitions, hstart, hk]
  have hcache (k : ObjectId) : made.partitions.cache k =
      if k = create.id.id then none else s.partitions.cache k := by
    rw [hmade.cache]
    by_cases hk : k = create.id.id
    · simp [partitions, hstart, hk, hnone]
    · simp [partitions, hstart, hk]
  obtain ⟨extra, hlinks, hextra⟩ := hmade.links
  have hmadeShape := congrFun hshape create.id.id
  rw [Function.update_self] at hmadeShape
  obtain ⟨own, hown, hownShape⟩ := Option.map_eq_some_iff.mp hmadeShape
  have hownNone : own.partitionConstraint = none := by
    simpa [partitions, hown] using hcache create.id.id
  obtain ⟨hshape', hlinks', hothers, hfinal⟩ :=
    attachToParent_partitions htext hown hownNone
  rw [hafter]
  refine ⟨⟨(relation s).partitionShape, hbound, hshape'.trans hshape⟩, fun k hk => ?_,
    ⟨extra, hlinks'.trans hlinks, hextra⟩, fun value hvalue hcaches => ?_⟩
  · rw [hothers k hk, hcache, if_neg hk]
  · refine hfinal value hvalue ?_
    rw [hshape', hmadeShape] at hcaches
    rw [hownShape]
    exact hcaches

/-- After its checks, the statement leaves the families alone until it builds. -/
theorem execute_partitions (htext : text.ReadsColumns clauses) (plan : TablePlan) :
    Keeps (fun s t => create.BuildsAtMost text clauses s.partitions t.partitions)
      (create.execute text plan) := by
  have hnote (s : AnalysisState) : SamePartitions s (create.noteIfTemporary s) :=
    samePartitions_of_eq (by unfold noteIfTemporary; split <;> rfl)
      (by unfold noteIfTemporary; split <;> rfl)
  have hopen (s : AnalysisState) :
      SamePartitions s (s.snapshotRelation create.id.id).bumpGeneration :=
    (samePartitions_bumpGeneration _).trans (samePartitions_pushUndo s _)
  have hrefl (F : Family ObjectId PartitionShape String) : create.BuildsAtMost text clauses F F :=
    Or.inl rfl
  refine Keeps.bind_unread hrefl (Keeps.modify hopen) fun _ =>
    Keeps.bind_unread hrefl Keeps.get fun s => Keeps.bind_unread hrefl (Keeps.modify hnote) fun _ =>
      Keeps.bind_unread hrefl (keeps_taintIf _ _ _) fun _ => ?_
  have hdeclare : Keeps SamePartitions (create.columns.foldlM (create.declareColumn text)
      (create.initialRelation text plan s s.generationCounter, [])) :=
    Keeps.foldlM _ _ keeps_declareColumn
  refine Keeps.bind_of (fun s => Or.inl (hdeclare s)) fun u declared v hrun => Or.inr ?_
  have hwritten := returns_declareColumns plan s s.generationCounter u declared v hrun
  have hsame : v.partitions = u.partitions := by
    have h := hdeclare u
    rwa [SamePartitions, Command.after, hrun] at h
  rw [← hsame]
  exact build_partitions htext plan s.generationCounter
    (fun s => hwritten.finishRelation plan s) declared.2 v

theorem checkNamespace_free {s t : AnalysisState} {a : Unit}
    (h : create.checkNamespace.run.run s = (.ok a, t)) :
    t = s ∧ s.presentRelation create.id.id = none := by
  have hrun : create.checkNamespace.run.run s =
      ((if s.relationNamespaceIsTaken create.id.id = true then
        if create.ifNotExists = true then throw .noOp else refuse (alreadyExists create.id)
      else pure () : Statement Unit)).run.run s := rfl
  rw [hrun] at h
  by_cases htaken : s.relationNamespaceIsTaken create.id.id = true
  · rw [if_pos htaken] at h
    by_cases hexists : create.ifNotExists = true
    · rw [if_pos hexists] at h
      cases h
    · rw [if_neg hexists] at h
      cases h
  · rw [if_neg htaken] at h
    cases h
    refine ⟨rfl, ?_⟩
    unfold presentRelation
    split
    · rename_i relation hlookup
      refine absurd ?_ htaken
      simp [relationNamespaceIsTaken, relationNamespaceObjectIsPresent, relationIsPresent, hlookup,
        Overlay.isPresent]
    · rfl

/-- `CREATE TABLE` builds a table whose name was free, or leaves the families. -/
theorem command_partitions (htext : text.ReadsColumns clauses) :
    Keeps (fun s t => create.BuildsIfFree text clauses s.partitions t.partitions)
      (create.command text) := by
  have hrefl (F : Family ObjectId PartitionShape String) : create.BuildsIfFree text clauses F F :=
    Or.inl rfl
  refine Keeps.bind_unread hrefl (keeps_refuseFound _ _) fun _ =>
    Keeps.bind_unread hrefl (keeps_refuseIf _ _) fun _ =>
      Keeps.bind_unread hrefl (keeps_ensureCreationTarget _) fun _ => ?_
  refine Keeps.bind_of (fun s => Or.inl (keeps_checkNamespace (R := SamePartitions) s))
    fun s a t hrun => ?_
  obtain ⟨rfl, hfree⟩ := checkNamespace_free hrun
  have hmost : (create.BuildsAtMost text clauses) t.partitions
      (Command.after (create.checkOfType >>= fun _ => create.plan text >>= create.execute text)
        t).partitions := by
    have hreflAt (F : Family ObjectId PartitionShape String) : create.BuildsAtMost text clauses F F :=
      Or.inl rfl
    have hplan : Keeps SamePartitions (create.plan text) := keeps_plan
    have hrest := Keeps.bind_unread hreflAt (keeps_checkOfType : Keeps _ create.checkOfType)
      fun _ => Keeps.bind_unread hreflAt hplan fun plan => execute_partitions htext plan
    exact hrest t
  rcases hmost with hsame | hbuilds
  · exact Or.inl hsame
  · refine Or.inr ⟨?_, hbuilds⟩
    simp [partitions, hfree]

end Build

end CreateTable

end SafeMigrate
