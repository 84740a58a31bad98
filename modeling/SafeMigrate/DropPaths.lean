import SafeMigrate.RestrictCascade
import SafeMigrate.SchemaSweeps

/-! The three ways to drop a set of tables compared: `DROP TABLE ... CASCADE`,
the family drop behind a type cascade, and `DROP SCHEMA ... CASCADE` of schemas
that hold nothing else. -/

namespace SafeMigrate

/-- Two closures with the same members. -/
structure CascadeResult.SameMembers (c c' : CascadeResult) : Prop where
  relations : ∀ id, id ∈ c.droppedRelations ↔ id ∈ c'.droppedRelations
  indexes : ∀ id, id ∈ c.droppedIndexes ↔ id ∈ c'.droppedIndexes
  constraints : ∀ key, key ∈ c.droppedConstraints ↔ key ∈ c'.droppedConstraints

namespace AnalysisState

open CascadeResult (SameMembers)

section Closure

variable {s t : AnalysisState}

theorem dependencyEdgeIsCurrent_congr (hgraph : t.graph = s.graph)
    (hrelations : t.relations = s.relations) (htriggers : t.triggers = s.triggers) :
    t.dependencyEdgeIsCurrent = s.dependencyEdgeIsCurrent := by
  funext e
  unfold dependencyEdgeIsCurrent
  rw [hgraph, hrelations, htriggers]

theorem cascadeForRelations_congr (hgraph : t.graph = s.graph)
    (hrelations : t.relations = s.relations) (htriggers : t.triggers = s.triggers)
    (ids : List ObjectId) : t.cascadeForRelations ids = s.cascadeForRelations ids := by
  have hcurrent := dependencyEdgeIsCurrent_congr hgraph hrelations htriggers
  have hwalk (fuel : Nat) : t.walkCascade fuel = s.walkCascade fuel := by
    induction fuel with
    | zero => rfl
    | succ fuel ih =>
      funext current acc
      simp only [walkCascade, ih, hgraph]
      have hedge (walk) (resolved : ObjectId) :
          t.walkCascadeEdge walk resolved = s.walkCascadeEdge walk resolved := by
        funext acc e
        simp only [walkCascadeEdge, hcurrent, hgraph]
      simp only [hedge]
  unfold cascadeForRelations getCascadeClosure cascadeFuel
  rw [hgraph]
  simp only [hwalk]

theorem cascadeReachesAny_congr {ids ids' : List ObjectId} (h : ∀ id, id ∈ ids ↔ id ∈ ids')
    (z : ObjectId) : s.CascadeReachesAny ids z ↔ s.CascadeReachesAny ids' z := by
  simp only [CascadeReachesAny, h]

/-- The closure does not depend on the order of its roots. -/
theorem cascadeForRelations_sameMembers {ids ids' : List ObjectId}
    (h : ∀ id, id ∈ ids ↔ id ∈ ids') :
    SameMembers (s.cascadeForRelations ids) (s.cascadeForRelations ids') where
  relations id := by
    rw [mem_cascade_droppedRelations, mem_cascade_droppedRelations, cascadeReachesAny_congr h]
  indexes id := by
    simp only [mem_cascade_droppedIndexes, cascadeReachesAny_congr h]
  constraints key := by
    simp only [mem_cascade_droppedConstraints, cascadeReachesAny_congr h]

end Closure

section Congr

variable {s t : AnalysisState} {c c' : CascadeResult}

theorem touchesDropped_congr (h : SameMembers c c') : s.touchesDropped c = s.touchesDropped c' := by
  funext e
  simp only [touchesDropped, h.relations, h.indexes]

theorem triggerGoes_congr (h : SameMembers c c') : s.triggerGoes c = s.triggerGoes c' := by
  funext id
  simp only [triggerGoes, h.relations]

theorem goesWith_congr (h : SameMembers c c') (resolve : ObjectId → ObjectId) :
    goesWith resolve c = goesWith resolve c' := by
  funext key
  simp only [goesWith, h.relations, dropsConstraint_eq, h.constraints]

theorem ownerGoes_congr (h : SameMembers c c') : s.ownerGoes c = s.ownerGoes c' := by
  funext id
  simp only [ownerGoes, h.relations]

theorem objectGoes_congr (h : SameMembers c c') (resolve : ObjectId → ObjectId) :
    objectGoes resolve c.droppedRelations = objectGoes resolve c'.droppedRelations := by
  funext o
  simp only [objectGoes, h.relations]

theorem tableSweep_congr (h : SameMembers c c') : s.tableSweep c = s.tableSweep c' := by
  unfold tableSweep
  rw [goesWith_congr h, triggerGoes_congr h, touchesDropped_congr h, ownerGoes_congr h,
    objectGoes_congr h]
  simp only [triggerEdgeGoes, namesDropped, h.relations, dropsConstraint_eq, h.constraints]

theorem schemaSweep_congr (h : SameMembers c c') (names : List String) :
    s.schemaSweep names c = s.schemaSweep names c' := by
  have htriggers : s.schemaTriggersToDrop names c.droppedRelations =
      s.schemaTriggersToDrop names c'.droppedRelations := by
    funext functions
    simp only [schemaTriggersToDrop, h.relations]
  unfold schemaSweep
  rw [goesWith_congr h, htriggers]
  simp only [schemaKeeps, h.relations, h.indexes, dropsConstraint_eq,
    h.constraints]

end Congr

section Paths

variable {s : AnalysisState} {tables : List ObjectRef}

theorem taintIncomplete_keeps (s : AnalysisState) (incomplete : Bool) :
    (s.taintIncomplete incomplete).graph = s.graph ∧
      (s.taintIncomplete incomplete).relations = s.relations ∧
        (s.taintIncomplete incomplete).triggers = s.triggers := by
  unfold taintIncomplete
  split
  · exact ⟨s.taint_graph _ _, s.taint_relations _ _, s.taint_triggers _ _⟩
  · exact ⟨rfl, rfl, rfl⟩

/-- `DROP TABLE ... CASCADE`, with the closure of its targets if the engine
computed it beforehand. -/
theorem catalog_applyDropTable {ifExists : Bool} {precomputed : Option CascadeResult}
    (htables : s.DroppableTargets tables) (hlists : s.ListsQualified)
    (hprecomputed : ∀ c ∈ precomputed, c = s.cascadeForRelations (tables.map (·.id)))
    (happlied : (s.applyDropTable ⟨tables, ifExists, true⟩ precomputed).1 = .applied) :
    (s.applyDropTable ⟨tables, ifExists, true⟩ precomputed).2.catalog =
      s.catalog.without (s.tableSweep (s.cascadeForRelations (tables.map (·.id)))) := by
  rw [applyDropTable_of_droppable htables] at happlied ⊢
  have hsame : SameMembers
      (precomputed.getD (s.cascadeForRelations ((sortTargets tables).map (·.id))))
      (s.cascadeForRelations (tables.map (·.id))) := by
    cases precomputed with
    | none => exact cascadeForRelations_sameMembers fun id => mem_sortTargets_ids
    | some c =>
      obtain rfl := hprecomputed c rfl
      exact ⟨fun _ => Iff.rfl, fun _ => Iff.rfl, fun _ => Iff.rfl⟩
  unfold dropPresentTables at happlied ⊢
  simp only [if_true] at happlied ⊢
  split at happlied
  · cases happlied
  · rename_i hcovered
    rw [if_neg hcovered, ← tableSweep_congr hsame]
    exact (catalog_taintIncomplete _ _).trans (s.catalog_dropTableCascade _ hlists)

/-- Every relation that a drop of the tables reaches is modelled. -/
def ReachesModeled (s : AnalysisState) (tables : List ObjectRef) : Prop :=
  ∀ id ∈ (s.cascadeForRelations (tables.map (·.id))).droppedRelations, s.relationIsPresent id = true

theorem catalog_applyDropRelationFamily (kindName : String) (hmodeled : s.ReachesModeled tables) :
    (s.applyDropRelationFamily tables true kindName).2.catalog =
      s.catalog.without (s.familySweep (s.cascadeForRelations (tables.map (·.id)))) := by
  unfold applyDropRelationFamily
  simp only [Bool.not_true, Bool.false_and, Bool.false_eq_true, if_false, if_true]
  have ht := s.taintIncomplete_keeps
    ((tables.map (·.id)).any fun id => s.baselineScopedFamilyObject id .relations)
  have htCatalog := s.catalog_taintIncomplete
    ((tables.map (·.id)).any fun id => s.baselineScopedFamilyObject id .relations)
  generalize s.taintIncomplete
    ((tables.map (·.id)).any fun id => s.baselineScopedFamilyObject id .relations) = t
    at ht htCatalog ⊢
  obtain ⟨htGraph, htRelations, htTriggers⟩ := ht
  rw [cascadeForRelations_congr htGraph htRelations htTriggers]
  have hu := t.taintIncomplete_keeps ((s.cascadeForRelations (tables.map (·.id))).droppedRelations.any
    fun id => (t.relations.lookup id).isNone)
  have huCatalog := t.catalog_taintIncomplete
    ((s.cascadeForRelations (tables.map (·.id))).droppedRelations.any
      fun id => (t.relations.lookup id).isNone)
  generalize t.taintIncomplete ((s.cascadeForRelations (tables.map (·.id))).droppedRelations.any
    fun id => (t.relations.lookup id).isNone) = u at hu huCatalog ⊢
  obtain ⟨huGraph, huRelations, huTriggers⟩ := hu
  have hpresent : u.relationIsPresent = s.relationIsPresent := by
    funext id
    unfold relationIsPresent
    rw [huRelations, htRelations]
  have hsweep : u.familySweep (s.cascadeForRelations (tables.map (·.id))) =
      s.familySweep (s.cascadeForRelations (tables.map (·.id))) := by
    unfold familySweep triggerGoes touchesDropped
    rw [huGraph, htGraph, huTriggers, htTriggers]
  have hdrop := u.catalog_dropFamily (s.cascadeForRelations (tables.map (·.id)))
    (by rw [hpresent]; exact hmodeled)
  rw [huCatalog, htCatalog, hsweep] at hdrop
  exact hdrop

theorem pushUndo_eq (s : AnalysisState) (change : StateChange) :
    ∃ frames, s.pushUndo change = s.setTransactions frames := by
  unfold pushUndo
  split
  · exact ⟨s.transactions, rfl⟩
  · exact ⟨_, rfl⟩

/-- The schemas hold the tables and, besides, only what goes with them. -/
structure SchemasHoldOnly (s : AnalysisState) (names : List String) (tables : List ObjectRef) :
    Prop where
  relations : ∀ id, (s.relationIsPresent id = true ∧ id.schema ∈ names) ↔ id ∈ tables.map (·.id)
  types : ∀ id, s.typeIsPresent id = true → id.schema ∉ names
  sequences : ∀ id sequence, presentIn s.sequences id = some sequence → id.schema ∈ names →
    s.ownerGoes (s.cascadeForRelations (tables.map (·.id))) id = true
  triggers : ∀ id trigger, presentIn s.triggers id = some trigger →
    (id.schema ∈ names ∨ ∃ e ∈ s.graph.edges, callsDropped (s.schemaFunctions names) id e = true) →
      s.triggerGoes (s.cascadeForRelations (tables.map (·.id))) id = true
  pending : ∀ key ∈ s.pendingValidation, key.1.schema ∈ names →
    goesWith s.graph.resolveRename (s.cascadeForRelations (tables.map (·.id))) key = true
  publications : ∀ name objects, s.explicitScope name = some objects → ∀ schema filter,
    .schemaTables schema filter ∈ objects → schema ∉ names
  edges : ∀ e ∈ s.graph.edges, s.dependencyEdgeIsCurrent e = true →
    (e.dependent.schema ∈ names ∨ e.referenced.schema ∈ names ∨
      ∃ id, callsDropped (s.schemaFunctions names) id e = true) →
        s.touchesDropped (s.cascadeForRelations (tables.map (·.id))) e = true

theorem mem_schemaRelations {names : List String} {id : ObjectId} :
    id ∈ s.schemaRelations names ↔ s.relationIsPresent id = true ∧ id.schema ∈ names := by
  unfold schemaRelations relationIsPresent
  simp only [List.mem_map, List.mem_filter, Bool.and_eq_true, inSchemas, decide_eq_true_eq,
    Option.any_eq_true]
  constructor
  · rintro ⟨⟨k, overlay⟩, ⟨hentry, hschema, hpresent⟩, rfl⟩
    exact ⟨⟨overlay, MapRebuild.mem_entries_iff.mp hentry, hpresent⟩, hschema⟩
  · rintro ⟨⟨overlay, hlookup, hpresent⟩, hschema⟩
    exact ⟨⟨id, overlay⟩, ⟨MapRebuild.mem_entries_iff.mpr hlookup, hschema, hpresent⟩, rfl⟩

theorem catalog_dropSchemasCascade
    {typeCascade : AnalysisState → List ObjectId → Bool × AnalysisState} {names : List String}
    (hmodeled : s.ReachesModeled tables) (honly : s.SchemasHoldOnly names tables)
    (hnone : ∀ id, s.ownerGoes (s.cascadeForRelations (tables.map (·.id))) id = false) :
    (s.dropSchemasCascade typeCascade names).catalog =
      s.catalog.without (s.schemaSweep names (s.cascadeForRelations (tables.map (·.id)))) := by
  obtain ⟨frames, hframes⟩ := s.pushUndo_eq (.namespaceSnapshot s.namespaceOf)
  have hsnapshot : s.snapshotNamespace = s.setTransactions frames := hframes
  have htypes : (s.types.entries.filter fun entry =>
      inSchemas names entry.1 && entry.2.isPresent).map (·.1) = [] := by
    rw [List.map_eq_nil_iff, List.filter_eq_nil_iff]
    rintro ⟨id, overlay⟩ hentry hpicked
    simp only [inSchemas, Bool.and_eq_true, decide_eq_true_eq] at hpicked
    have hlookup := MapRebuild.mem_entries_iff.mp hentry
    refine honly.types id ?_ hpicked.1
    rw [typeIsPresent, hlookup]
    exact hpicked.2
  unfold dropSchemasCascade
  simp only [hsnapshot]
  rw [show (s.setTransactions frames).types = s.types from rfl, htypes]
  simp only [List.isEmpty_nil, if_true]
  have hsame : SameMembers (s.cascadeForRelations (s.schemaRelations names))
      (s.cascadeForRelations (tables.map (·.id))) :=
    cascadeForRelations_sameMembers fun id => mem_schemaRelations.trans (honly.relations id)
  have hclosure : (s.setTransactions frames).cascadeForRelations
      ((s.setTransactions frames).schemaRelations names) =
        s.cascadeForRelations (s.schemaRelations names) := by
    have hgraph : (s.setTransactions frames).graph = s.graph := rfl
    exact cascadeForRelations_congr hgraph rfl rfl _
  refine (catalog_sweepSchemas hclosure (fun id hid => ?_) fun id sequence hsequence => ?_).trans ?_
  · exact hmodeled id ((hsame.relations id).mp hid)
  · have howner := hnone id
    rw [← ownerGoes_congr hsame] at howner
    refine ⟨?_, ?_⟩
    · by_contra hinside
      have hgoes := honly.sequences id sequence hsequence (by simpa [inSchemas] using hinside)
      rw [hnone id] at hgoes
      cases hgoes
    · have hpresent : presentIn s.sequences id = some sequence := hsequence
      rw [ownerGoes, hpresent] at howner
      exact howner
  · rw [← schemaSweep_congr hsame]
    rfl

/-- Nothing goes with the tables that one of the three drops forgets. -/
structure DropsAlike (s : AnalysisState) (names : List String) (tables : List ObjectRef) : Prop where
  sequences : ∀ id, s.ownerGoes (s.cascadeForRelations (tables.map (·.id))) id = false
  publications : ∀ name objects, s.explicitScope name = some objects → ∀ o ∈ objects,
    objectGoes s.graph.resolveRename (s.cascadeForRelations (tables.map (·.id))).droppedRelations o =
      false ∧ schemaObjectRetained names o = true
  triggers : ∀ id trigger, presentIn s.triggers id = some trigger →
    s.triggerEdgeGoes (s.cascadeForRelations (tables.map (·.id))) id = true →
      s.triggerGoes (s.cascadeForRelations (tables.map (·.id))) id = true
  foreignKeys : ∀ e ∈ s.graph.edges, s.dependencyEdgeIsCurrent e = true →
    s.touchesDropped (s.cascadeForRelations (tables.map (·.id))) e = false →
      s.namesDropped (s.cascadeForRelations (tables.map (·.id))) e = false
  triggerEdges : ∀ e ∈ s.graph.edges, s.dependencyEdgeIsCurrent e = true →
    s.touchesDropped (s.cascadeForRelations (tables.map (·.id))) e = false →
      ∀ id function generation, e.kind = .triggerOnTable id function generation →
        s.triggerGoes (s.cascadeForRelations (tables.map (·.id))) id = false

section Compare

variable {names : List String} {c : CascadeResult}

theorem triggerGoes_present {id : ObjectId} (h : s.triggerGoes c id = true) :
    ∃ trigger, presentIn s.triggers id = some trigger ∧
      s.graph.resolveRename trigger.tableId ∈ c.droppedRelations := by
  obtain ⟨trigger, htrigger, htable⟩ := (Option.any_eq_true _ _).mp h
  exact ⟨trigger, htrigger, by simpa using htable⟩

theorem mem_schemaTriggers_of_goes {functions : List ObjectId} {id : ObjectId}
    (h : s.triggerGoes c id = true) :
    id ∈ s.schemaTriggersToDrop names c.droppedRelations functions := by
  obtain ⟨trigger, htrigger, htable⟩ := triggerGoes_present h
  exact (s.mem_schemaTriggersToDrop names).mpr ⟨trigger, htrigger, by simp [htable]⟩

theorem schemaKeeps_of_touched {triggers functions : List ObjectId} {e : DependencyEdge}
    (h : s.touchesDropped c e = true) :
    schemaKeeps s.graph.resolveRename names c triggers functions e = false := by
  unfold schemaKeeps
  refine if_pos ?_
  simp only [touchesDropped, Bool.or_eq_true, decide_eq_true_eq] at h
  tauto

/-- The table sweep and the family sweep agree on what the state holds. -/
theorem tableSweep_alike_iff :
    (s.tableSweep c).AlikeOn s.catalog s.dependencyEdgeIsCurrent (s.familySweep c) ↔
      (∀ id, s.ownerGoes c id = false) ∧
      (∀ name objects, s.explicitScope name = some objects → ∀ o ∈ objects,
        objectGoes s.graph.resolveRename c.droppedRelations o = false) ∧
      (∀ id trigger, presentIn s.triggers id = some trigger → s.triggerEdgeGoes c id = true →
        s.triggerGoes c id = true) ∧
      ∀ e ∈ s.graph.edges, s.dependencyEdgeIsCurrent e = true → s.touchesDropped c e = false →
        s.namesDropped c e = false := by
  constructor
  · intro h
    refine ⟨fun id => ?_, h.objects, fun id trigger htrigger hedge => ?_, fun e he hc ht => ?_⟩
    · cases hsequence : presentIn s.sequences id with
      | none => simp [ownerGoes, hsequence]
      | some sequence => exact h.sequences id sequence hsequence
    · have htriggers := h.triggers id trigger htrigger
      simpa [tableSweep, familySweep, htrigger, hedge] using htriggers
    · have hedges := h.edges e he hc
      simpa [tableSweep, familySweep, ht] using hedges
  · rintro ⟨howner, hobjects, htriggers, hedges⟩
    exact {
      relations := fun _ _ _ => rfl
      sequences := fun id _ _ => howner id
      triggers := fun id trigger htrigger => by
        have hgoes := htriggers id trigger htrigger
        cases hedge : s.triggerEdgeGoes c id with
        | false => simp [tableSweep, familySweep, hedge]
        | true => simp [tableSweep, familySweep, hgoes hedge]
      constraints := fun _ _ _ => rfl
      pending := fun _ _ => rfl
      objects := hobjects
      edges := fun e he hc => by
        cases ht : s.touchesDropped c e with
        | true => simp [tableSweep, familySweep, ht]
        | false => simp [tableSweep, familySweep, ht, hedges e he hc ht] }

/-- A trigger goes with the schemas exactly when its table does. -/
theorem mem_schemaTriggers_iff (honly : s.SchemasHoldOnly names tables)
    (hc : s.cascadeForRelations (tables.map (·.id)) = c) (id : ObjectId) :
    id ∈ s.schemaTriggersToDrop names c.droppedRelations (s.schemaFunctions names) ↔
      s.triggerGoes c id = true := by
  refine ⟨fun h => ?_, mem_schemaTriggers_of_goes⟩
  obtain ⟨trigger, htrigger, hgoes⟩ := (s.mem_schemaTriggersToDrop names).mp h
  simp only [Bool.or_eq_true, inSchemas, decide_eq_true_eq, List.any_eq_true] at hgoes
  rw [← hc] at hgoes ⊢
  rcases hgoes with (hschema | htable) | hcalls
  · exact honly.triggers id trigger htrigger (Or.inl hschema)
  · exact (Option.any_eq_true _ _).mpr ⟨trigger, htrigger, by simpa using htable⟩
  · exact honly.triggers id trigger htrigger (Or.inr hcalls)

/-- What the schema drop makes of an edge that the family drop keeps. -/
theorem schemaKeeps_untouched_iff (honly : s.SchemasHoldOnly names tables)
    (hc : s.cascadeForRelations (tables.map (·.id)) = c) {e : DependencyEdge}
    (he : e ∈ s.graph.edges) (hcurrent : s.dependencyEdgeIsCurrent e = true)
    (htouched : s.touchesDropped c e = false) (hnamed : s.namesDropped c e = false) :
    schemaKeeps s.graph.resolveRename names c
        (s.schemaTriggersToDrop names c.droppedRelations (s.schemaFunctions names))
        (s.schemaFunctions names) e = true ↔
      ∀ id function generation, e.kind = .triggerOnTable id function generation →
        s.triggerGoes c id = false := by
  have houtside : ¬(e.dependent.schema ∈ names ∨ e.referenced.schema ∈ names ∨
      ∃ id, callsDropped (s.schemaFunctions names) id e = true) := by
    intro hinside
    have htouches := honly.edges e he hcurrent hinside
    rw [hc, htouched] at htouches
    cases htouches
  simp only [not_or, not_exists] at houtside
  obtain ⟨hdependent, hreferenced, hcalls⟩ := houtside
  simp only [touchesDropped, Bool.or_eq_false_iff, decide_eq_false_iff_not] at htouched
  obtain ⟨⟨hfrom, hto⟩, hindex⟩ := htouched
  unfold schemaKeeps
  rw [if_neg (by simp [hfrom, hto, hindex, inSchemas, hdependent, hreferenced])]
  cases hkind : e.kind with
  | foreignKey name _ _ _ _ =>
    cases name with
    | none => simp
    | some name =>
      simp only [namesDropped, hkind, DependencyKind.foreignKeyName, Option.any_some,
        dropsConstraint_eq, decide_eq_false_iff_not] at hnamed
      simp [hnamed]
  | triggerOnTable trigger function generation =>
    have hfunction : function ∉ s.schemaFunctions names := by
      intro hmem
      exact hcalls trigger (by simp [callsDropped, hkind, hmem])
    have hlisted := mem_schemaTriggers_iff honly hc trigger
    simp only [hfunction, not_false_eq_true, decide_true, Bool.and_true, decide_eq_true_eq, hlisted,
      Bool.not_eq_true, DependencyKind.triggerOnTable.injEq]
    exact ⟨fun h id _ _ hid => hid.1 ▸ h, fun h => h trigger function generation ⟨rfl, rfl, rfl⟩⟩
  | _ => simp

theorem schemaSweep_alike_iff (honly : s.SchemasHoldOnly names tables)
    (hc : s.cascadeForRelations (tables.map (·.id)) = c)
    (hnamed : ∀ e ∈ s.graph.edges, s.dependencyEdgeIsCurrent e = true →
      s.touchesDropped c e = false → s.namesDropped c e = false) :
    (s.familySweep c).AlikeOn s.catalog s.dependencyEdgeIsCurrent (s.schemaSweep names c) ↔
      (∀ name objects, s.explicitScope name = some objects → ∀ o ∈ objects,
        schemaObjectRetained names o = true) ∧
      ∀ e ∈ s.graph.edges, s.dependencyEdgeIsCurrent e = true → s.touchesDropped c e = false →
        ∀ id function generation, e.kind = .triggerOnTable id function generation →
          s.triggerGoes c id = false := by
  constructor
  · intro h
    refine ⟨fun name objects hscope o ho => ?_, fun e he hcurrent htouched => ?_⟩
    · have hobject := h.objects name objects hscope o ho
      simpa [familySweep, schemaSweep] using hobject.symm
    · refine (schemaKeeps_untouched_iff honly hc he hcurrent htouched
        (hnamed e he hcurrent htouched)).mp ?_
      have hedge := h.edges e he hcurrent
      simpa [familySweep, schemaSweep, htouched] using hedge.symm
  · rintro ⟨hobjects, hedges⟩
    exact {
      relations := fun _ _ _ => rfl
      sequences := fun _ _ _ => rfl
      triggers := fun id trigger _ => by
        have hlisted := mem_schemaTriggers_iff honly hc id
        exact Bool.eq_iff_iff.mpr (by simpa [familySweep, schemaSweep] using hlisted.symm)
      constraints := fun _ _ _ => rfl
      pending := fun key hkey => by
        have hpending := honly.pending key hkey
        rw [hc] at hpending
        by_cases hinside : key.1.schema ∈ names
        · simp [familySweep, schemaSweep, hpending hinside]
        · simp [familySweep, schemaSweep, inSchemas, hinside]
      objects := fun name objects hscope o ho => by
        simp [familySweep, schemaSweep, hobjects name objects hscope o ho]
      edges := fun e he hcurrent => by
        cases htouched : s.touchesDropped c e with
        | true => simp [familySweep, schemaSweep, htouched, schemaKeeps_of_touched htouched]
        | false =>
          have hkeeps := (schemaKeeps_untouched_iff honly hc he hcurrent htouched
            (hnamed e he hcurrent htouched)).mpr (hedges e he hcurrent htouched)
          simp [familySweep, schemaSweep, htouched, hkeeps] }

end Compare

/-- The three drops leave the same objects and, of the edges that were
current, the same ones. -/
structure PathsAgree (s : AnalysisState) (names : List String) (tables : List ObjectRef)
    (ifExists : Bool) (precomputed : Option CascadeResult)
    (typeCascade : AnalysisState → List ObjectId → Bool × AnalysisState) : Prop where
  family : Catalog.Alike s.dependencyEdgeIsCurrent
    (s.applyDropTable ⟨tables, ifExists, true⟩ precomputed).2.catalog
    (s.applyDropRelationFamily tables true "table").2.catalog
  schema : Catalog.Alike s.dependencyEdgeIsCurrent
    (s.applyDropRelationFamily tables true "table").2.catalog
    (s.applyDropSchema typeCascade ⟨names, ifExists, true⟩).2.catalog

/-- The three drops agree exactly when nothing goes that one of them forgets. -/
theorem dropPaths_agree_iff {names : List String} {ifExists : Bool}
    {precomputed : Option CascadeResult}
    {typeCascade : AnalysisState → List ObjectId → Bool × AnalysisState}
    (htables : s.DroppableTargets tables) (hmodeled : s.ReachesModeled tables)
    (honly : s.SchemasHoldOnly (s.presentSchemas names) tables) (hlists : s.ListsQualified)
    (hprecomputed : ∀ c ∈ precomputed, c = s.cascadeForRelations (tables.map (·.id)))
    (htable : (s.applyDropTable ⟨tables, ifExists, true⟩ precomputed).1 = .applied)
    (hschema : (s.applyDropSchema typeCascade ⟨names, ifExists, true⟩).1 = .applied) :
    s.PathsAgree names tables ifExists precomputed typeCascade ↔
      s.DropsAlike (s.presentSchemas names) tables := by
  have hfirst : Catalog.Alike s.dependencyEdgeIsCurrent
      (s.applyDropTable ⟨tables, ifExists, true⟩ precomputed).2.catalog
      (s.applyDropRelationFamily tables true "table").2.catalog ↔
        (s.tableSweep (s.cascadeForRelations (tables.map (·.id)))).AlikeOn s.catalog
          s.dependencyEdgeIsCurrent (s.familySweep (s.cascadeForRelations (tables.map (·.id)))) := by
    rw [catalog_applyDropTable htables hlists hprecomputed htable,
      catalog_applyDropRelationFamily "table" hmodeled]
    exact Catalog.alike_without_iff
  have hsecond (hnone : ∀ id, s.ownerGoes (s.cascadeForRelations (tables.map (·.id))) id = false) :
      Catalog.Alike s.dependencyEdgeIsCurrent
        (s.applyDropRelationFamily tables true "table").2.catalog
        (s.applyDropSchema typeCascade ⟨names, ifExists, true⟩).2.catalog ↔
          (s.familySweep (s.cascadeForRelations (tables.map (·.id)))).AlikeOn s.catalog
            s.dependencyEdgeIsCurrent (s.schemaSweep (s.presentSchemas names)
              (s.cascadeForRelations (tables.map (·.id)))) := by
    rw [catalog_applyDropSchema hschema, catalog_dropSchemasCascade hmodeled honly hnone,
      catalog_applyDropRelationFamily "table" hmodeled]
    exact Catalog.alike_without_iff
  constructor
  · rintro ⟨hfamily, hschemas⟩
    obtain ⟨howner, hobjects, htriggers, hnamed⟩ := tableSweep_alike_iff.mp (hfirst.mp hfamily)
    obtain ⟨hretained, hedges⟩ :=
      (schemaSweep_alike_iff honly rfl hnamed).mp ((hsecond howner).mp hschemas)
    exact ⟨howner, fun name objects hscope o ho =>
      ⟨hobjects name objects hscope o ho, hretained name objects hscope o ho⟩, htriggers, hnamed, hedges⟩
  · intro h
    have hfamily := tableSweep_alike_iff.mpr ⟨h.sequences, fun name objects hscope o ho =>
      (h.publications name objects hscope o ho).1, h.triggers, h.foreignKeys⟩
    have hschemas := (schemaSweep_alike_iff honly rfl h.foreignKeys).mpr
      ⟨fun name objects hscope o ho => (h.publications name objects hscope o ho).2, h.triggerEdges⟩
    exact ⟨hfirst.mpr hfamily, (hsecond h.sequences).mpr hschemas⟩

end Paths

section Samples

def orders : ObjectId := ⟨"shop", "orders"⟩

def ordersIdSeq : ObjectId := ⟨"shop", "orders_id_seq"⟩

def orderRow : TypeState :=
  { id := ⟨"public", "order_row"⟩, generation := 0, owner := ⟨"", "postgres"⟩
    kind := .composite [{ name := "id", dataType := "bigint", dataTypeId := none,
                          collation := none, collationId := none }] }

/-- Schema `shop` with the typed table `orders`, and these sequences. -/
def shopState (sequences : KeyedMap ObjectId SequenceOverlay) : AnalysisState :=
  { schemas := (∅ : KeyedMap String SchemaOverlay).insert "shop"
      (.present { name := "shop", owner := ⟨"", "postgres"⟩, generation := 0 })
    types := (∅ : KeyedMap ObjectId TypeOverlay).insert orderRow.id (.present orderRow)
    relations := (∅ : KeyedMap ObjectId RelationOverlay).insert orders
      (.present { RelationState.new orders ⟨"", "postgres"⟩ 0 none .table .permanent 0 with
        columns := [.migrationCreated "id" (some "bigint") true none]
        ofType := some orderRow.id })
    sequences }

/-- A sequence that the column of `orders` owns. -/
def ownedSequence : KeyedMap ObjectId SequenceOverlay :=
  (∅ : KeyedMap ObjectId SequenceOverlay).insert ordersIdSeq
    (.present { id := ordersIdSeq, owner := ⟨"", "postgres"⟩, ownedBy := some (orders, "id"),
                kind := .owned, parameters := {}, runtime := .fresh 1, runtimeExact := true,
                generation := 0 })

def ordersTable : List ObjectRef := [⟨orders, false⟩]

/-- A cascade of types that finds nothing to remove. -/
def noTypes (s : AnalysisState) (_ : List ObjectId) : Bool × AnalysisState := (true, s)

variable (sequences : KeyedMap ObjectId SequenceOverlay)

theorem shopState_droppable : (shopState sequences).DroppableTargets ordersTable where
  nonempty := by simp [ordersTable]
  notMember := by
    intro r _
    rfl
  present := by
    intro r hr
    obtain rfl := List.mem_singleton.mp hr
    rfl

theorem shopState_closure :
    ((shopState sequences).cascadeForRelations (ordersTable.map (·.id))).droppedRelations =
      [orders] := by
  rfl

theorem shopState_reachesModeled : (shopState sequences).ReachesModeled ordersTable := by
  intro id hid
  rw [shopState_closure] at hid
  obtain rfl := List.mem_singleton.mp hid
  rfl

theorem shopState_holdsOnly (hsequences : ∀ id sequence, presentIn sequences id = some sequence →
    (shopState sequences).ownerGoes
      ((shopState sequences).cascadeForRelations (ordersTable.map (·.id))) id = true) :
    (shopState sequences).SchemasHoldOnly ["shop"] ordersTable where
  relations id := by
    by_cases hid : id = orders
    · subst hid
      exact ⟨fun _ => List.mem_singleton.mpr rfl, fun _ => ⟨rfl, List.mem_singleton.mpr rfl⟩⟩
    · constructor
      · rintro ⟨hpresent, -⟩
        obtain ⟨overlay, hlookup, -⟩ := (Option.any_eq_true _ _).mp hpresent
        exact absurd (MapRebuild.lookup_insert_empty hlookup).1 hid
      · intro hmem
        exact absurd (List.mem_singleton.mp hmem) hid
  types id h := by
    obtain ⟨overlay, hlookup, -⟩ := (Option.any_eq_true _ _).mp h
    obtain rfl := (MapRebuild.lookup_insert_empty hlookup).1
    decide
  sequences id sequence h _ := hsequences id sequence h
  triggers id trigger h := by cases h
  pending key h := by cases h
  publications name objects h := by cases h
  edges e he := by cases he

def invoices : ObjectId := ⟨"public", "invoices"⟩

def ordersTrigger : TriggerState :=
  { name := "audit", id := triggerKey orders "audit", tableId := orders
    functionId := ⟨"public", "log()"⟩, rowLevel := true, parentTriggerId := none
    enabledMode := .origin, generation := 0 }

def invoicesKey : ConstraintState :=
  { tableId := invoices, name := "invoices_order_fkey", kind := .foreignKey, validated := true
    definition := none, backingIndex := none }

/-- The table with an index and a trigger, and a foreign key to it from another schema. -/
def furnishedShop : AnalysisState :=
  { shopState ∅ with
    relations := (shopState ∅).relations.insert invoices
      (.present (.new invoices ⟨"", "postgres"⟩ 0 none .table .permanent 0))
    triggers := AList.singleton ordersTrigger.id (.present ordersTrigger)
    constraints := AList.singleton (invoices, invoicesKey.name) invoicesKey
    graph := .ofEdges
      [⟨⟨"shop", "orders_pkey"⟩, orders, constraintIndexDependency ["id"] true⟩,
        ⟨ordersTrigger.id, orders, .triggerOnTable ordersTrigger.id ordersTrigger.functionId 0⟩,
        ⟨invoices, orders, .foreignKey (some invoicesKey.name) ["order"] ["id"] none 0⟩] }

theorem furnishedShop_triggers {id : ObjectId} {trigger : TriggerState}
    (h : presentIn furnishedShop.triggers id = some trigger) : id = ordersTrigger.id := by
  by_contra hid
  have hnone : furnishedShop.triggers.lookup id = none :=
    AList.lookup_eq_none.mpr fun hmem => hid (List.mem_singleton.mp hmem)
  simp [presentIn, hnone] at h

theorem furnishedShop_touched : ∀ e ∈ furnishedShop.graph.edges,
    furnishedShop.touchesDropped (furnishedShop.cascadeForRelations (ordersTable.map (·.id))) e =
      true := by
  decide +kernel

theorem furnishedShop_holdsOnly : furnishedShop.SchemasHoldOnly ["shop"] ordersTable where
  relations id := by
    have hpresent (other : ObjectId) (h : furnishedShop.relationIsPresent other = true) :
        other = invoices ∨ other = orders := by
      obtain ⟨overlay, hlookup, -⟩ := (Option.any_eq_true _ _).mp h
      by_cases hother : other = invoices
      · exact Or.inl hother
      · rw [furnishedShop, AList.lookup_insert_ne hother] at hlookup
        exact Or.inr (MapRebuild.lookup_insert_empty hlookup).1
    constructor
    · rintro ⟨h, hschema⟩
      rcases hpresent id h with rfl | rfl
      · exact absurd hschema (by decide)
      · exact List.mem_singleton.mpr rfl
    · intro hmem
      obtain rfl := List.mem_singleton.mp hmem
      exact ⟨rfl, List.mem_singleton.mpr rfl⟩
  types id h := by
    obtain ⟨overlay, hlookup, -⟩ := (Option.any_eq_true _ _).mp h
    obtain rfl := (MapRebuild.lookup_insert_empty hlookup).1
    decide
  sequences id sequence h _ := by cases h
  triggers id trigger h _ := by
    rw [furnishedShop_triggers h]
    decide +kernel
  pending key h := by cases h
  publications name objects h := by cases h
  edges e he _ _ := furnishedShop_touched e he

/-- The table goes alike on all three paths, with its index, its trigger and the foreign
key to it. -/
theorem shopState_agrees : furnishedShop.SchemasHoldOnly ["shop"] ordersTable ∧
    furnishedShop.PathsAgree ["shop"] ordersTable false none noTypes ∧
    (furnishedShop.applyDropTable ⟨ordersTable, false, true⟩ none).2.graph.edges = [] := by
  have htables : furnishedShop.DroppableTargets ordersTable :=
    { nonempty := by simp [ordersTable]
      notMember := fun _ _ => rfl
      present := fun r hr => by
        obtain rfl := List.mem_singleton.mp hr
        rfl }
  have hmodeled : furnishedShop.ReachesModeled ordersTable := by
    unfold ReachesModeled
    decide +kernel
  have honly : furnishedShop.SchemasHoldOnly (furnishedShop.presentSchemas ["shop"]) ordersTable :=
    furnishedShop_holdsOnly
  refine ⟨honly, (dropPaths_agree_iff htables hmodeled honly
    (fun name objects h => by cases h) (fun c hc => by cases hc) (by decide +kernel)
    (by decide +kernel)).mpr ?_, by decide +kernel⟩
  exact {
    sequences := fun id => rfl
    publications := fun name objects h => by cases h
    triggers := fun id trigger h _ => by
      rw [furnishedShop_triggers h]
      decide +kernel
    foreignKeys := fun e he _ hnot => by
      cases (furnishedShop_touched e he).symm.trans hnot
    triggerEdges := fun e he _ hnot => by
      cases (furnishedShop_touched e he).symm.trans hnot }

/-- The family drop leaves an owned sequence behind. -/
theorem ownedSequence_disagrees :
    ((shopState ownedSequence).DroppableTargets ordersTable ∧
      (shopState ownedSequence).ReachesModeled ordersTable ∧
      (shopState ownedSequence).SchemasHoldOnly ["shop"] ordersTable ∧
      ((shopState ownedSequence).applyDropTable ⟨ordersTable, false, true⟩ none).1 = .applied ∧
      ((shopState ownedSequence).applyDropSchema noTypes ⟨["shop"], false, true⟩).1 = .applied) ∧
    ¬(shopState ownedSequence).PathsAgree ["shop"] ordersTable false none noTypes := by
  refine ⟨⟨shopState_droppable _, shopState_reachesModeled _, shopState_holdsOnly _ ?_, rfl, rfl⟩, ?_⟩
  · intro id sequence h
    have hlookup : ownedSequence.lookup id = some (.present sequence) :=
      MapRebuild.mem_entries_iff.mp (mem_entries_present.mpr h)
    obtain rfl := (MapRebuild.lookup_insert_empty hlookup).1
    rfl
  · intro h
    have hsequences := congrFun h.family.sequences ordersIdSeq
    have hgone : ((shopState ownedSequence).applyDropTable ⟨ordersTable, false, true⟩
        none).2.catalog.sequences ordersIdSeq = none := rfl
    have hleft : (((shopState ownedSequence).applyDropRelationFamily ordersTable true
        "table").2.catalog.sequences ordersIdSeq).isSome = true := rfl
    rw [← hsequences, hgone] at hleft
    cases hleft

end Samples

end AnalysisState

end SafeMigrate
