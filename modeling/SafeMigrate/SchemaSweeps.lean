import SafeMigrate.DropSchema
import SafeMigrate.DropSweeps

/-! `DROP SCHEMA ... CASCADE` as a sweep of the catalog, when no type and no
sequence goes with the schemas. -/

namespace SafeMigrate

open Removal

namespace AnalysisState

section Sweep

variable (s : AnalysisState) (names : List String) (closure : CascadeResult)

/-- What the schema drop removes besides sequences. -/
def schemaSweep : Sweep where
  relations id := decide (id ∈ closure.droppedRelations)
  triggers id := decide (id ∈ s.schemaTriggersToDrop names closure.droppedRelations
    (s.schemaFunctions names))
  constraints := goesWith s.graph.resolveRename closure
  pending key := goesWith s.graph.resolveRename closure key || inSchemas names key.1
  objects o := !schemaObjectRetained names o
  edges e := !schemaKeeps s.graph.resolveRename names closure
    (s.schemaTriggersToDrop names closure.droppedRelations (s.schemaFunctions names))
    (s.schemaFunctions names) e

theorem presentIn_tombstoned {α β : Type} [DecidableEq α] (m : KeyedMap α (Overlay β))
    (ids : List α) :
    presentIn (tombstoned m ids) = without (fun k => decide (k ∈ ids)) (presentIn m) := by
  funext k
  unfold presentIn tombstoned
  rw [lookup_foldl_insert_const]
  by_cases hk : k ∈ ids <;> simp [without, hk]

theorem catalog_tombstoneRelationMap (ids : List ObjectId) :
    (s.setRelations (tombstoned s.relations ids)).catalog =
      s.catalog.without { relations := fun id => decide (id ∈ ids) } := by
  change { s.catalog with relations := presentIn (tombstoned s.relations ids) } = _
  rw [presentIn_tombstoned]
  simp [Catalog.without, catalog, without_none]

theorem catalog_tombstoneTriggerMap (ids : List ObjectId) :
    (s.setTriggers (tombstoned s.triggers ids)).catalog =
      s.catalog.without { triggers := fun id => decide (id ∈ ids) } := by
  change { s.catalog with triggers := presentIn (tombstoned s.triggers ids) } = _
  rw [presentIn_tombstoned]
  simp [Catalog.without, catalog, without_none]

theorem catalog_retainPending (p : ObjectId × String → Bool) :
    (s.setPendingValidation (s.pendingValidation.filter fun key => !p key)).catalog =
      s.catalog.without { pending := p } := by
  change { s.catalog with pending := s.pendingValidation.filter fun key => !p key } = _
  simp [Catalog.without, catalog, without_none]

theorem explicitScope_retainSchemaObjects (name : String) :
    (s.setPublications (MapRebuild.mapValues (Overlay.map (retainSchemaObjects names))
      s.publications)).explicitScope name =
        (s.explicitScope name).map fun objects => objects.filter (schemaObjectRetained names) := by
  unfold explicitScope presentIn
  simp only [setPublications, MapRebuild.lookup_mapValues]
  cases s.publications.lookup name with
  | none => rfl
  | some overlay =>
    cases overlay with
    | dropped => rfl
    | present publication =>
      cases hscope : publication.scope <;> simp [Overlay.map, retainSchemaObjects, hscope]

theorem catalog_retainSchemaObjects :
    (s.setPublications (MapRebuild.mapValues (Overlay.map (retainSchemaObjects names))
      s.publications)).catalog =
        s.catalog.without { objects := fun o => !schemaObjectRetained names o } := by
  have hscopes := funext (s.explicitScope_retainSchemaObjects names)
  refine Catalog.ext ?_ ?_ ?_ ?_ ?_ (hscopes.trans ?_) ?_
  all_goals simp [Catalog.without, catalog, without_none, setPublications]

theorem mem_schemaTriggersToDrop {functions droppedRelations : List ObjectId} {id : ObjectId} :
    id ∈ s.schemaTriggersToDrop names droppedRelations functions ↔
      ∃ trigger, presentIn s.triggers id = some trigger ∧
        (inSchemas names id || decide (s.graph.resolveRename trigger.tableId ∈ droppedRelations) ||
          s.graph.edges.any (callsDropped functions id)) = true := by
  unfold schemaTriggersToDrop
  rw [List.mem_filterMap]
  constructor
  · rintro ⟨⟨k, overlay⟩, hentry, hpicked⟩
    cases overlay with
    | dropped => cases hpicked
    | present trigger =>
      have hpresent := mem_entries_present.mp hentry
      dsimp only at hpicked
      split at hpicked
      · rename_i hgoes
        cases hpicked
        exact ⟨trigger, hpresent, hgoes⟩
      · cases hpicked
  · rintro ⟨trigger, hpresent, hgoes⟩
    exact ⟨⟨id, .present trigger⟩, mem_entries_present.mpr hpresent, if_pos hgoes⟩

theorem schemaSequencesToDrop_eq_nil {droppedRelations : List ObjectId}
    (h : ∀ id sequence, presentIn s.sequences id = some sequence → inSchemas names id = false ∧
      sequence.ownedBy.any (fun owner =>
        decide (s.graph.resolveRename owner.1 ∈ droppedRelations)) = false) :
    s.schemaSequencesToDrop names droppedRelations = [] := by
  refine List.filterMap_eq_nil_iff.mpr ?_
  rintro ⟨id, overlay⟩ hentry
  cases overlay with
  | dropped => rfl
  | present sequence =>
    obtain ⟨houtside, howner⟩ := h id sequence (mem_entries_present.mp hentry)
    simp [houtside, howner]

variable {s names closure}

/-- No sequence lives in the schemas or belongs to a relation that goes. -/
def NoSequenceGoes (s : AnalysisState) (names : List String) (closure : CascadeResult) : Prop :=
  ∀ id sequence, presentIn s.sequences id = some sequence → inSchemas names id = false ∧
    sequence.ownedBy.any (fun owner =>
      decide (s.graph.resolveRename owner.1 ∈ closure.droppedRelations)) = false

theorem catalog_sweepSchemas (hclosure : s.cascadeForRelations (s.schemaRelations names) = closure)
    (hpresent : ∀ id ∈ closure.droppedRelations, s.relationIsPresent id = true)
    (hnone : s.NoSequenceGoes names closure) :
    (s.sweepSchemas names).catalog = s.catalog.without (s.schemaSweep names closure) := by
  have hrelations : closure.droppedRelations.filter s.relationIsPresent = closure.droppedRelations :=
    List.filter_eq_self.mpr hpresent
  have hmodeled : closure.droppedRelations.any (fun id => !s.relationIsPresent id) = false := by
    simpa using hpresent
  unfold sweepSchemas
  dsimp only
  rw [hclosure, hrelations, hmodeled, show s.taintIncomplete false = s from rfl]
  have ha := s.catalog_tombstoneRelationMap closure.droppedRelations
  have haRest : (s.setRelations (tombstoned s.relations closure.droppedRelations)).functions =
      s.functions ∧ (s.setRelations (tombstoned s.relations closure.droppedRelations)).triggers =
        s.triggers := ⟨rfl, rfl⟩
  generalize s.setRelations (tombstoned s.relations closure.droppedRelations) = a at ha haRest ⊢
  obtain ⟨haFunctions, haTriggers⟩ := haRest
  have hb : (a.setTypes (tombstoned a.types (a.types.keys.filter (inSchemas names)))).catalog =
      a.catalog := rfl
  have hbRest : (a.setTypes (tombstoned a.types (a.types.keys.filter (inSchemas names)))).functions =
      a.functions ∧ (a.setTypes (tombstoned a.types (a.types.keys.filter
        (inSchemas names)))).triggers = a.triggers := ⟨rfl, rfl⟩
  generalize a.setTypes (tombstoned a.types (a.types.keys.filter (inSchemas names))) = b
    at hb hbRest ⊢
  obtain ⟨hbFunctions, hbTriggers⟩ := hbRest
  rw [ha] at hb
  have hbGraph : b.graph = s.graph := s.graph_eq_of_edges (by rw [hb]; simp [Catalog.without])
  have hbSequences : presentIn b.sequences = presentIn s.sequences := by
    have h := congrArg Catalog.sequences hb
    simpa [Catalog.without, without_none, catalog] using h
  rw [b.schemaSequencesToDrop_eq_nil names (by rw [hbSequences, hbGraph]; exact hnone),
    List.foldl_nil, show b.schemaFunctions names = s.schemaFunctions names by
      rw [schemaFunctions, hbFunctions, haFunctions, schemaFunctions]]
  have hc : (b.setFunctions (tombstoned b.functions (s.schemaFunctions names))).catalog = b.catalog :=
    rfl
  have hcTriggers : (b.setFunctions (tombstoned b.functions (s.schemaFunctions names))).triggers =
      b.triggers := rfl
  generalize b.setFunctions (tombstoned b.functions (s.schemaFunctions names)) = c at hc hcTriggers ⊢
  rw [hb] at hc
  have hcGraph : c.graph = s.graph := s.graph_eq_of_edges (by rw [hc]; simp [Catalog.without])
  have hpicked : c.schemaTriggersToDrop names closure.droppedRelations (s.schemaFunctions names) =
      s.schemaTriggersToDrop names closure.droppedRelations (s.schemaFunctions names) := by
    unfold schemaTriggersToDrop
    rw [hcTriggers, hbTriggers, haTriggers, hcGraph]
  rw [hpicked]
  have hd := c.catalog_tombstoneTriggerMap
    (s.schemaTriggersToDrop names closure.droppedRelations (s.schemaFunctions names))
  generalize c.setTriggers (tombstoned c.triggers
    (s.schemaTriggersToDrop names closure.droppedRelations (s.schemaFunctions names))) = d at hd ⊢
  have hdGraph : d.graph = s.graph :=
    (c.graph_eq_of_edges (by rw [hd]; simp [Catalog.without])).trans hcGraph
  have he := d.catalog_removeDroppedConstraints closure
  rw [hdGraph] at he
  generalize d.removeDroppedConstraints closure.droppedRelations closure.droppedConstraints = e
    at he ⊢
  have hf := e.catalog_retainPending fun key => inSchemas names key.1
  generalize e.setPendingValidation (e.pendingValidation.filter fun key => !inSchemas names key.1) = f
    at hf ⊢
  have hg := f.catalog_retainSchemaObjects names
  generalize f.setPublications (MapRebuild.mapValues (Overlay.map (retainSchemaObjects names))
    f.publications) = g at hg ⊢
  rw [hf, he, hd, hc] at hg
  have hgGraph : g.graph = s.graph := s.graph_eq_of_edges (by rw [hg]; simp [Catalog.without])
  rw [hgGraph, catalog_retainGraphEdges, hg]
  simp only [Catalog.without_without]
  refine congrArg _ (Sweep.ext ?_ ?_ ?_ ?_ ?_ ?_ ?_)
  all_goals simp [Sweep.or, schemaSweep]

end Sweep

section Statement

variable {s : AnalysisState}

/-- A scan that meets no unknown schema records nothing. -/
theorem scanDropSchemas_known {ifExists unknown : Bool} {names : List String} {t : AnalysisState}
    (h : s.scanDropSchemas ifExists names unknown = .ok (false, t)) : unknown = false ∧ t = s := by
  induction names generalizing s unknown with
  | nil =>
    cases h
    exact ⟨rfl, rfl⟩
  | cons name rest ih =>
    unfold scanDropSchemas at h
    split at h
    · split at h
      · exact ih h
      · cases h
    · split at h
      · exact ih h
      · cases h
    · exact absurd (ih h).1 (by simp)
    · exact ih h

theorem extensionSchemaDropConflict_rejected {name : String} {result : MutationResult}
    (h : s.extensionSchemaDropConflict name = some result) : result ≠ .applied := by
  obtain ⟨extension, -, rfl⟩ := Option.map_eq_some_iff.mp h
  intro happlied
  cases happlied

theorem scanDropSchemas_error {ifExists unknown : Bool} {names : List String}
    {refused : MutationResult × AnalysisState}
    (h : s.scanDropSchemas ifExists names unknown = .error refused) : refused.1 ≠ .applied := by
  induction names generalizing s unknown with
  | nil => cases h
  | cons name rest ih =>
    unfold scanDropSchemas at h
    split at h
    · split at h
      · exact ih h
      · cases h
        intro happlied
        cases happlied
    · split at h
      · exact ih h
      · cases h
        intro happlied
        cases happlied
    · exact ih h
    · exact ih h

/-- The schemas of the statement that are there. -/
def presentSchemas (s : AnalysisState) (names : List String) : List String :=
  names.filter s.schemaIsPresent

theorem catalog_tombstoneSchemas (names : List String) (s : AnalysisState) :
    (names.foldl tombstoneSchema s).catalog = s.catalog := by
  induction names generalizing s with
  | nil => rfl
  | cons name names ih =>
    rw [List.foldl_cons, ih]
    exact s.catalog_pushUndo _

/-- A cascading schema drop that applies leaves what its sweeps leave. -/
theorem catalog_applyDropSchema
    {typeCascade : AnalysisState → List ObjectId → Bool × AnalysisState} {names : List String}
    {ifExists : Bool} (h : (s.applyDropSchema typeCascade ⟨names, ifExists, true⟩).1 = .applied) :
    (s.applyDropSchema typeCascade ⟨names, ifExists, true⟩).2.catalog =
      (s.dropSchemasCascade typeCascade (s.presentSchemas names)).catalog := by
  unfold applyDropSchema at h ⊢
  dsimp only at h ⊢
  split at h
  · rename_i result hresult
    obtain ⟨name, -, hname⟩ := List.exists_of_findSome?_eq_some hresult
    exact absurd h (extensionSchemaDropConflict_rejected hname)
  · split at h
    · rename_i hscan
      exact absurd h (scanDropSchemas_error hscan)
    · cases h
    · rename_i t hscan
      obtain ⟨-, rfl⟩ := scanDropSchemas_known hscan
      split at h
      · cases h
      · rename_i hsome
        rw [if_neg hsome]
        simp only [if_true]
        have hpath (u : AnalysisState) :
            u.snapshotSearchPath.refreshRoleSensitiveSearchPath.catalog = u.catalog :=
          u.catalog_pushUndo _
        exact (hpath _).trans (catalog_tombstoneSchemas _ _)

end Statement

end AnalysisState

end SafeMigrate
