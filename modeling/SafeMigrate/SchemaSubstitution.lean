import SafeMigrate.SchemaRename

/-! A schema rename compared with the substitution of the new name for the
old one in every stored identity, whatever the iteration order of the maps. -/

namespace SafeMigrate

open MapRebuild

section Identities

variable {a b : String}

theorem remapSchemaId_schema_ne (hab : a ≠ b) (id : ObjectId) : (remapSchemaId a b id).schema ≠ a := by
  unfold remapSchemaId
  split
  · exact fun h => hab h.symm
  · assumption

theorem remapSchemaId_eq_self_iff (hab : a ≠ b) {id : ObjectId} :
    remapSchemaId a b id = id ↔ id.schema ≠ a := by
  constructor
  · intro h
    rw [← h]
    exact remapSchemaId_schema_ne hab id
  · intro h
    simp [remapSchemaId, h]

theorem map_remapSchemaId_eq_self_iff (hab : a ≠ b) {id : Option ObjectId} :
    id.map (remapSchemaId a b) = id ↔ ∀ i ∈ id, i.schema ≠ a := by
  cases id with
  | none => simp
  | some id => simp [remapSchemaId_eq_self_iff hab]

theorem schema_ne_of_mem_map (hab : a ≠ b) {id : Option ObjectId} {i : ObjectId}
    (h : i ∈ id.map (remapSchemaId a b)) : i.schema ≠ a := by
  obtain ⟨j, -, rfl⟩ := Option.map_eq_some_iff.mp h
  exact remapSchemaId_schema_ne hab j

end Identities

/-! The full substitution in the records where the rename rewrites less. -/

section Substitution

variable (a b : String)

def Column.substSchema (c : Column) : Column :=
  { c with typeId := c.typeId.map (remapSchemaId a b) }

def substStatistics (e : Sigma fun _ : ObjectId => ExtendedStatisticsState) :
    Sigma fun _ : ObjectId => ExtendedStatisticsState :=
  ⟨remapSchemaId a b e.1, { e.2 with id := remapSchemaId a b e.2.id }⟩

def RelationState.substSchema (r : RelationState) : RelationState :=
  { r with
    id := remapSchemaId a b r.id
    columns := r.columns.map (Column.substSchema a b)
    ofType := r.ofType.map (remapSchemaId a b)
    extendedStatistics := (r.extendedStatistics.entries.map (substStatistics a b)).toAList }

def TriggerState.substSchema (t : TriggerState) : TriggerState :=
  { t with
    id := remapSchemaId a b t.id
    tableId := remapSchemaId a b t.tableId
    functionId := remapSchemaId a b t.functionId
    parentTriggerId := t.parentTriggerId.map (remapSchemaId a b) }

def ConstraintState.substSchema (c : ConstraintState) : ConstraintState :=
  { c with
    tableId := remapSchemaId a b c.tableId
    backingIndex := c.backingIndex.map (remapSchemaId a b) }

def TypeState.substSchema (t : TypeState) : TypeState := (t.remapId a b).remapKind a b

def DependencyEdge.substSchema (e : DependencyEdge) : DependencyEdge :=
  (e.remapSchema a b).remapIndexCollation a b

end Substitution

/-! The schema-qualified identities that each record stores. -/

def RelationState.identities (r : RelationState) : List ObjectId :=
  r.id :: (r.columns.filterMap (·.typeId) ++ r.ofType.toList ++
    r.extendedStatistics.entries.flatMap fun e => [e.1, e.2.id])

def CompositeFieldState.identities (field : CompositeFieldState) : List ObjectId :=
  field.dataTypeId.toList ++ field.collationId.toList

def TypeKind.identities : TypeKind → List ObjectId
  | .domain state => state.baseTypeId.toList ++ state.collationId.toList
  | .range state => state.subtypeId.toList ++ state.multirange.toList ++ state.collationId.toList ++
      state.opclassId.toList ++ state.canonicalId.toList ++ state.subtypeDiffId.toList
  | .multirange rangeId => rangeId.toList
  | .composite fields => fields.flatMap CompositeFieldState.identities
  | .enum _ => []
  | .base _ _ => []

def TypeState.identities (t : TypeState) : List ObjectId := t.id :: t.kind.identities

def FunctionState.identities (f : FunctionState) : List ObjectId :=
  f.id :: (f.argTypeIds.filterMap (fun i => i) ++ f.returnTypeId.toList ++ f.internalTypeOwner.toList)

def SequenceState.identities (q : SequenceState) : List ObjectId :=
  q.id :: (q.ownedBy.map Prod.fst).toList

def TriggerState.identities (t : TriggerState) : List ObjectId :=
  t.id :: t.tableId :: t.functionId :: t.parentTriggerId.toList

def ConstraintState.identities (c : ConstraintState) : List ObjectId :=
  c.tableId :: c.backingIndex.toList

/-- A schema member is its own schema, any other lies in one. -/
def ExtensionMember.schemaName (member : ExtensionMember) : String :=
  if member.kind = .schema then member.id.name else member.id.schema

/-- The publication end of a membership edge is a synthetic node outside all
schemas. -/
def DependencyEdge.identities (e : DependencyEdge) : List ObjectId :=
  match e.kind with
  | .publicationIncludes _ => [e.dependent]
  | .triggerOnTable triggerId functionId _ => [e.dependent, e.referenced, triggerId, functionId]
  | .viewUsesRoutine (some name) => [e.dependent, e.referenced, name]
  | _ => [e.dependent, e.referenced]

section Substituted

variable {a b : String}

theorem substSchema_identities_relation (hab : a ≠ b) (r : RelationState) :
    ∀ i ∈ (r.substSchema a b).identities, i.schema ≠ a := by
  intro i hi
  simp only [RelationState.identities, RelationState.substSchema, List.mem_cons, List.mem_append,
    List.mem_filterMap, List.mem_map, List.mem_flatMap, Option.mem_toList] at hi
  rcases hi with rfl | (⟨c, ⟨c, -, rfl⟩, hi⟩ | hi) | ⟨e, he, hi⟩
  · exact remapSchemaId_schema_ne hab _
  · exact schema_ne_of_mem_map hab hi
  · exact schema_ne_of_mem_map hab hi
  · obtain ⟨e, -, rfl⟩ := List.mem_map.mp (mem_of_mem_toAList he)
    simp only [substStatistics, List.not_mem_nil, or_false] at hi
    rcases hi with rfl | rfl <;> exact remapSchemaId_schema_ne hab _

theorem remapSchema_identities_kind (hab : a ≠ b) (kind : TypeKind) :
    ∀ i ∈ (kind.remapSchema a b).identities, i.schema ≠ a := by
  intro i hi
  cases kind with
  | enum variants => simp [TypeKind.remapSchema, TypeKind.identities] at hi
  | base shell options => simp [TypeKind.remapSchema, TypeKind.identities] at hi
  | domain state =>
    simp only [TypeKind.remapSchema, TypeKind.identities, List.mem_append, Option.mem_toList] at hi
    rcases hi with hi | hi <;> exact schema_ne_of_mem_map hab hi
  | range state =>
    simp only [TypeKind.remapSchema, TypeKind.identities, List.mem_append, Option.mem_toList] at hi
    rcases hi with ((((hi | hi) | hi) | hi) | hi) | hi <;> exact schema_ne_of_mem_map hab hi
  | multirange rangeId =>
    simp only [TypeKind.remapSchema, TypeKind.identities, Option.mem_toList] at hi
    exact schema_ne_of_mem_map hab hi
  | composite fields =>
    simp only [TypeKind.remapSchema, TypeKind.identities, List.mem_flatMap, List.mem_map] at hi
    obtain ⟨field, ⟨field, -, rfl⟩, hi⟩ := hi
    simp only [CompositeFieldState.identities, CompositeFieldState.remapSchema, List.mem_append,
      Option.mem_toList] at hi
    rcases hi with hi | hi <;> exact schema_ne_of_mem_map hab hi

theorem substSchema_identities_type (hab : a ≠ b) (t : TypeState) :
    ∀ i ∈ (t.substSchema a b).identities, i.schema ≠ a := by
  intro i hi
  simp only [TypeState.identities, TypeState.substSchema, TypeState.remapKind, TypeState.remapId,
    List.mem_cons] at hi
  rcases hi with rfl | hi
  · exact remapSchemaId_schema_ne hab _
  · exact remapSchema_identities_kind hab _ i hi

theorem remapSchema_identities_function (hab : a ≠ b) (f : FunctionState) :
    ∀ i ∈ (f.remapSchema a b).identities, i.schema ≠ a := by
  intro i hi
  simp only [FunctionState.identities, FunctionState.remapSchema, List.mem_cons, List.mem_append,
    List.mem_filterMap, List.mem_map, Option.mem_toList] at hi
  rcases hi with rfl | (⟨x, ⟨y, -, rfl⟩, hi⟩ | hi) | hi
  · exact remapSchemaId_schema_ne hab _
  · exact schema_ne_of_mem_map hab hi
  · exact schema_ne_of_mem_map hab hi
  · exact schema_ne_of_mem_map hab hi

theorem remapSchema_identities_sequence (hab : a ≠ b) (q : SequenceState) :
    ∀ i ∈ (q.remapSchema a b).identities, i.schema ≠ a := by
  intro i hi
  cases howner : q.ownedBy with
  | none =>
    simp only [SequenceState.identities, SequenceState.remapSchema, howner, Option.map_none,
      Option.toList_none, List.mem_singleton] at hi
    rw [hi]
    exact remapSchemaId_schema_ne hab _
  | some owner =>
    simp only [SequenceState.identities, SequenceState.remapSchema, howner, Option.map_some,
      Option.toList_some, List.mem_cons, List.not_mem_nil, or_false] at hi
    rcases hi with rfl | rfl <;> exact remapSchemaId_schema_ne hab _

theorem substSchema_identities_trigger (hab : a ≠ b) (t : TriggerState) :
    ∀ i ∈ (t.substSchema a b).identities, i.schema ≠ a := by
  intro i hi
  simp only [TriggerState.identities, TriggerState.substSchema, List.mem_cons,
    Option.mem_toList] at hi
  rcases hi with rfl | rfl | rfl | hi
  · exact remapSchemaId_schema_ne hab _
  · exact remapSchemaId_schema_ne hab _
  · exact remapSchemaId_schema_ne hab _
  · exact schema_ne_of_mem_map hab hi

theorem substSchema_identities_constraint (hab : a ≠ b) (c : ConstraintState) :
    ∀ i ∈ (c.substSchema a b).identities, i.schema ≠ a := by
  intro i hi
  simp only [ConstraintState.identities, ConstraintState.substSchema, List.mem_cons,
    Option.mem_toList] at hi
  rcases hi with rfl | hi
  · exact remapSchemaId_schema_ne hab _
  · exact schema_ne_of_mem_map hab hi

theorem remapSchema_schemaName (hab : a ≠ b) (member : ExtensionMember) :
    (member.remapSchema a b).schemaName ≠ a := by
  unfold ExtensionMember.remapSchema
  by_cases hk : member.kind = .schema
  · simp only [hk, if_true, ExtensionMember.schemaName, remapName]
    split
    · exact fun h => hab h.symm
    · assumption
  · simp only [hk, if_false, ExtensionMember.schemaName]
    exact remapSchemaId_schema_ne hab _

theorem substSchema_identities_edge (hab : a ≠ b) (e : DependencyEdge) :
    ∀ i ∈ (e.substSchema a b).identities, i.schema ≠ a := by
  intro i hi
  obtain ⟨j, rfl⟩ : ∃ j, i = remapSchemaId a b j := by
    cases hk : e.kind with
    | viewUsesRoutine name =>
      cases name with
      | none =>
        simp only [DependencyEdge.substSchema, DependencyEdge.remapSchema, hk,
          DependencyEdge.remapIndexCollation, DependencyEdge.identities, List.mem_cons,
          List.not_mem_nil, or_false] at hi
        rcases hi with hi | hi <;> exact ⟨_, hi⟩
      | some name =>
        simp only [DependencyEdge.substSchema, DependencyEdge.remapSchema, hk,
          DependencyEdge.remapIndexCollation, DependencyEdge.identities, List.mem_cons,
          List.not_mem_nil, or_false] at hi
        rcases hi with hi | hi | hi <;> exact ⟨_, hi⟩
    | triggerOnTable triggerId functionId generation =>
      simp only [DependencyEdge.substSchema, DependencyEdge.remapSchema, hk,
        DependencyEdge.remapIndexCollation, DependencyEdge.identities, List.mem_cons,
        List.not_mem_nil, or_false] at hi
      rcases hi with hi | hi | hi | hi <;> exact ⟨_, hi⟩
    | publicationIncludes name =>
      simp only [DependencyEdge.substSchema, DependencyEdge.remapSchema, hk,
        DependencyEdge.remapIndexCollation, DependencyEdge.identities, List.mem_cons,
        List.not_mem_nil, or_false] at hi
      exact ⟨_, hi⟩
    | _ =>
      simp only [DependencyEdge.substSchema, DependencyEdge.remapSchema, hk,
        DependencyEdge.remapIndexCollation, DependencyEdge.identities, List.mem_cons,
        List.not_mem_nil, or_false] at hi
      rcases hi with hi | hi <;> exact ⟨_, hi⟩
  exact remapSchemaId_schema_ne hab j

end Substituted

/-! Where the rename falls short of the substitution. -/

/-- Identities of a relation that the rename leaves as they are. -/
def RelationState.keptIdentities (r : RelationState) : List ObjectId :=
  r.columns.filterMap (·.typeId) ++ r.ofType.toList ++
    r.extendedStatistics.entries.flatMap fun e => [e.1, e.2.id]

def TriggerState.keptIdentities (t : TriggerState) : List ObjectId :=
  t.functionId :: t.parentTriggerId.toList

section Kept

variable {a b : String}

theorem RelationState.remapSchema_eq_subst_iff (hab : a ≠ b) (r : RelationState) :
    r.remapSchema a b = r.substSchema a b ↔ ∀ i ∈ r.keptIdentities, i.schema ≠ a := by
  constructor
  · intro heq i hi
    have hmem : i ∈ (r.remapSchema a b).identities := by
      simpa [RelationState.identities, RelationState.remapSchema, RelationState.keptIdentities,
        or_assoc] using Or.inr hi
    rw [heq] at hmem
    exact substSchema_identities_relation hab r i hmem
  · intro hkept
    have hcolumns : r.columns.map (Column.substSchema a b) = r.columns := by
      have hself : ∀ c ∈ r.columns, c.substSchema a b = c := by
        intro c hc
        have htype : c.typeId.map (remapSchemaId a b) = c.typeId := by
          refine (map_remapSchemaId_eq_self_iff hab).mpr fun i hi => hkept i ?_
          have hmem : i ∈ r.columns.filterMap (·.typeId) := List.mem_filterMap.mpr ⟨c, hc, hi⟩
          simp [RelationState.keptIdentities, hmem]
        simp only [Column.substSchema, htype]
      rw [List.map_congr_left hself, List.map_id']
    have htype : r.ofType.map (remapSchemaId a b) = r.ofType := by
      refine (map_remapSchemaId_eq_self_iff hab).mpr fun i hi => hkept i ?_
      simp [RelationState.keptIdentities, Option.mem_toList.mpr hi]
    have hstatistics : (r.extendedStatistics.entries.map (substStatistics a b)).toAList =
        r.extendedStatistics := by
      refine toAList_map_of_eq_self fun e he => ?_
      have hkey : e.1.schema ≠ a := hkept _ (by
        simp only [RelationState.keptIdentities, List.mem_append, List.mem_flatMap]
        exact Or.inr ⟨e, he, by simp⟩)
      have hid : e.2.id.schema ≠ a := hkept _ (by
        simp only [RelationState.keptIdentities, List.mem_append, List.mem_flatMap]
        exact Or.inr ⟨e, he, by simp⟩)
      simp only [substStatistics, (remapSchemaId_eq_self_iff hab).mpr hkey,
        (remapSchemaId_eq_self_iff hab).mpr hid]
    simp only [RelationState.remapSchema, RelationState.substSchema, hcolumns, htype, hstatistics]

theorem TriggerState.remapSchema_eq_subst_iff (hab : a ≠ b) (t : TriggerState) :
    t.remapSchema a b = t.substSchema a b ↔ ∀ i ∈ t.keptIdentities, i.schema ≠ a := by
  have hfunction : t.functionId = remapSchemaId a b t.functionId ↔ t.functionId.schema ≠ a :=
    eq_comm.trans (remapSchemaId_eq_self_iff hab)
  have hparent : t.parentTriggerId = t.parentTriggerId.map (remapSchemaId a b) ↔
      ∀ i ∈ t.parentTriggerId, i.schema ≠ a :=
    eq_comm.trans (map_remapSchemaId_eq_self_iff hab)
  simp only [TriggerState.remapSchema, TriggerState.substSchema, TriggerState.mk.injEq, true_and,
    and_true, hfunction, hparent, TriggerState.keptIdentities, List.forall_mem_cons,
    Option.mem_toList, Option.mem_def]

theorem ConstraintState.remapSchema_eq_subst_iff (hab : a ≠ b) (c : ConstraintState) :
    c.remapSchema a b = c.substSchema a b ↔ ∀ i ∈ c.backingIndex, i.schema ≠ a := by
  have hindex : c.backingIndex = c.backingIndex.map (remapSchemaId a b) ↔
      ∀ i ∈ c.backingIndex, i.schema ≠ a :=
    eq_comm.trans (map_remapSchemaId_eq_self_iff hab)
  simp only [ConstraintState.remapSchema, ConstraintState.substSchema, ConstraintState.mk.injEq,
    true_and, hindex]

/-- An overlay is rewritten as it should be if its object is. -/
theorem Overlay.map_eq_map_iff {α : Type} {f g : α → α} {overlay : Overlay α} :
    overlay.map f = overlay.map g ↔ ∀ state, overlay = .present state → f state = g state := by
  cases overlay with
  | present state => simp [Overlay.map]
  | dropped => simp [Overlay.map]

end Kept

end SafeMigrate
