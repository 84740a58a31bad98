import SafeMigrate.CatalogSweep
import SafeMigrate.LastingEdges
import SafeMigrate.MapRebuild

/-! `DROP TABLE ... CASCADE` and the family drop as sweeps of the catalog. -/

namespace SafeMigrate

open Removal

section PresentIn

variable {α β : Type} [DecidableEq α]

/-- The present object of an overlay map. -/
def presentIn (m : KeyedMap α (Overlay β)) (k : α) : Option β :=
  match m.lookup k with
  | some (.present v) => some v
  | _ => none

theorem presentIn_insert_dropped (m : KeyedMap α (Overlay β)) (id : α) :
    presentIn (m.insert id .dropped) = without (fun k => decide (k = id)) (presentIn m) := by
  funext k
  by_cases hk : k = id
  · subst hk
    simp [presentIn, without]
  · simp [presentIn, without, hk, AList.lookup_insert_ne hk]

theorem lookup_erase_eq_without {γ : Type} (m : KeyedMap α γ) (key : α) :
    (m.erase key).lookup = without (fun k => decide (k = key)) m.lookup := by
  funext k
  by_cases hk : k = key
  · subst hk
    simp [without]
  · simp [without, hk, AList.lookup_erase_ne hk]

theorem mem_entries_present {m : KeyedMap α (Overlay β)} {k : α} {v : β} :
    (⟨k, .present v⟩ : Sigma fun _ : α => Overlay β) ∈ m.entries ↔ presentIn m k = some v := by
  rw [MapRebuild.mem_entries_iff]
  unfold presentIn
  cases m.lookup k with
  | none => simp
  | some overlay => cases overlay <;> simp

end PresentIn

namespace AnalysisState

/-- The objects that an explicit publication lists. -/
def explicitScope (s : AnalysisState) (name : String) : Option (List PublicationObjectFact) :=
  match presentIn s.publications name with
  | some publication =>
    match publication.scope with
    | .explicit objects => some objects
    | .allTables _ => none
  | none => none

def catalog (s : AnalysisState) : Catalog where
  relations := presentIn s.relations
  sequences := presentIn s.sequences
  triggers := presentIn s.triggers
  constraints := s.constraints.lookup
  pending := s.pendingValidation
  scopes := s.explicitScope
  edges := s.graph.edges

section Stages

variable (s : AnalysisState)

@[simp] theorem catalog_pushUndo (change : StateChange) :
    (s.pushUndo change).catalog = s.catalog := by
  unfold pushUndo
  split <;> rfl

@[simp] theorem catalog_taint (code : EvidenceCode) (scope : EvidenceScope) :
    (s.taint code scope).catalog = s.catalog := by
  have hmark (t : AnalysisState) : t.markTainted.catalog = t.catalog := by
    unfold markTainted
    split
    · rfl
    · exact t.catalog_pushUndo _
  unfold taint recordEvidence
  dsimp only
  split
  · rfl
  · exact (hmark _).trans (s.catalog_pushUndo _)

@[simp] theorem catalog_taintIncomplete (incomplete : Bool) :
    (s.taintIncomplete incomplete).catalog = s.catalog := by
  unfold taintIncomplete
  split
  · exact s.catalog_taint _ _
  · rfl

/-- A loop whose steps each remove one object. -/
theorem catalog_foldl {α : Type} [DecidableEq α] {step : AnalysisState → α → AnalysisState}
    {w : (α → Bool) → Sweep} (hnone : w (fun _ => false) = {})
    (hor : ∀ p q, (w p).or (w q) = w fun a => p a || q a)
    (hstep : ∀ s a, (step s a).catalog = s.catalog.without (w fun b => decide (b = a))) (l : List α)
    (s : AnalysisState) :
    (l.foldl step s).catalog = s.catalog.without (w fun a => decide (a ∈ l)) := by
  induction l generalizing s with
  | nil => simp [hnone, Catalog.without_nothing]
  | cons a l ih =>
    rw [List.foldl_cons, ih, hstep, Catalog.without_without, hor]
    congr 2
    funext b
    simp

theorem catalog_tombstoneRelation (id : ObjectId) :
    (s.tombstoneRelation id).catalog = s.catalog.without { relations := fun k => decide (k = id) } := by
  have hrelations : (s.snapshotRelation id).relations = s.relations := s.pushUndo_relations _
  have hcatalog : (s.snapshotRelation id).catalog = s.catalog := s.catalog_pushUndo _
  change { (s.snapshotRelation id).catalog with
    relations := presentIn ((s.snapshotRelation id).relations.insert id .dropped) } = _
  rw [hcatalog, hrelations, presentIn_insert_dropped]
  simp [Catalog.without, catalog, without_none]

theorem catalog_tombstoneRelations (ids : List ObjectId) :
    (ids.foldl tombstoneRelation s).catalog =
      s.catalog.without { relations := fun id => decide (id ∈ ids) } :=
  catalog_foldl (w := fun p => { relations := p }) rfl (fun _ _ => rfl)
    (fun s id => s.catalog_tombstoneRelation id) ids s

theorem catalog_tombstoneSequence (id : ObjectId) :
    (s.tombstoneSequence id).catalog = s.catalog.without { sequences := fun k => decide (k = id) } := by
  have hcatalog : (s.snapshotSequence id).catalog = s.catalog := s.catalog_pushUndo _
  have hsequences : (s.snapshotSequence id).sequences = s.sequences := by
    unfold snapshotSequence pushUndo
    split <;> rfl
  change { (s.snapshotSequence id).catalog with
    sequences := presentIn ((s.snapshotSequence id).sequences.insert id .dropped) } = _
  rw [hcatalog, hsequences, presentIn_insert_dropped]
  simp [Catalog.without, catalog, without_none]

theorem catalog_tombstoneTrigger (id : ObjectId) :
    (s.tombstoneTrigger id).catalog = s.catalog.without { triggers := fun k => decide (k = id) } := by
  have hcatalog : (s.snapshotTrigger id).catalog = s.catalog := s.catalog_pushUndo _
  have htriggers : (s.snapshotTrigger id).triggers = s.triggers := s.pushUndo_triggers _
  change { (s.snapshotTrigger id).catalog with
    triggers := presentIn ((s.snapshotTrigger id).triggers.insert id .dropped) } = _
  rw [hcatalog, htriggers, presentIn_insert_dropped]
  simp [Catalog.without, catalog, without_none]

theorem catalog_removeConstraint (key : ObjectId × String) :
    (s.removeConstraint key).catalog = s.catalog.without { constraints := fun k => decide (k = key) } := by
  have hcatalog : (s.snapshotConstraint key.1 key.2).catalog = s.catalog := s.catalog_pushUndo _
  have hconstraints : (s.snapshotConstraint key.1 key.2).constraints = s.constraints := by
    unfold snapshotConstraint pushUndo
    split <;> rfl
  change { (s.snapshotConstraint key.1 key.2).catalog with
    constraints := ((s.snapshotConstraint key.1 key.2).constraints.erase key).lookup } = _
  rw [hcatalog, hconstraints, lookup_erase_eq_without]
  simp [Catalog.without, catalog, without_none]

theorem catalog_retainGraphEdges (keep : DependencyEdge → Bool) :
    (s.retainGraphEdges keep).catalog = s.catalog.without { edges := fun e => !keep e } := by
  have hcatalog : s.snapshotGraphFull.catalog = s.catalog := s.catalog_pushUndo _
  have hgraph : s.snapshotGraphFull.graph = s.graph := s.pushUndo_graph _
  change { s.snapshotGraphFull.catalog with
    edges := (s.snapshotGraphFull.graph.retainEdges keep).edges } = _
  rw [hcatalog, hgraph]
  simp [Catalog.without, catalog, without_none, DependencyGraph.retainEdges]

/-- The constraints and pending validations of dropped relations, and those
that the cascade names. -/
def goesWith (resolve : ObjectId → ObjectId) (closure : CascadeResult) (key : ObjectId × String) :
    Bool :=
  decide (resolve key.1 ∈ closure.droppedRelations) ||
    dropsConstraint closure (resolve key.1, key.2)

theorem catalog_filterPending (p : ObjectId × String → Bool) :
    AnalysisState.catalog (if ∃ key ∈ s.pendingValidation, p key = true then
        s.snapshotPendingValidation.setPendingValidation
          (s.snapshotPendingValidation.pendingValidation.filter fun key => !p key)
      else s) = s.catalog.without { pending := p } := by
  have hcatalog : s.snapshotPendingValidation.catalog = s.catalog := s.catalog_pushUndo _
  have hpending : s.snapshotPendingValidation.pendingValidation = s.pendingValidation :=
    congrArg Catalog.pending hcatalog
  split
  · change { s.snapshotPendingValidation.catalog with
      pending := s.snapshotPendingValidation.pendingValidation.filter fun key => !p key } = _
    rw [hcatalog, hpending]
    simp [Catalog.without, catalog, without_none]
  · rename_i hnone
    rw [← s.catalog.without_nothing.symm.trans (Catalog.without_congr ?_)]
    exact {
      relations := fun _ _ _ => rfl
      sequences := fun _ _ _ => rfl
      triggers := fun _ _ _ => rfl
      constraints := fun _ _ _ => rfl
      pending := fun key hkey => by
        by_contra hne
        exact hnone ⟨key, hkey, by simpa using Ne.symm hne⟩
      objects := fun _ _ _ _ _ => rfl
      edges := fun _ _ _ => rfl }

theorem catalog_removeConstraints (p : ObjectId × String → Bool) :
    ((s.constraints.keys.filter p).foldl removeConstraint s).catalog =
      s.catalog.without { constraints := p } := by
  refine (catalog_foldl (w := fun p => { constraints := p }) rfl (fun _ _ => rfl)
    (fun s key => s.catalog_removeConstraint key) _ s).trans ?_
  refine Catalog.without_congr {
    relations := fun _ _ _ => rfl
    sequences := fun _ _ _ => rfl
    triggers := fun _ _ _ => rfl
    constraints := fun key state hkey => ?_
    pending := fun _ _ => rfl
    objects := fun _ _ _ _ _ => rfl
    edges := fun _ _ _ => rfl }
  have hmem : key ∈ s.constraints.keys := by
    have hsome : (s.constraints.lookup key).isSome := by
      rw [show s.constraints.lookup key = some state from hkey]
      rfl
    exact AList.lookup_isSome.mp hsome
  simp [hmem]

theorem catalog_removeDroppedConstraints (closure : CascadeResult) :
    (s.removeDroppedConstraints closure.droppedRelations closure.droppedConstraints).catalog =
      s.catalog.without { constraints := goesWith s.graph.resolveRename closure,
                          pending := goesWith s.graph.resolveRename closure } := by
  have hbaseline (t : AnalysisState) (c : Prop) [Decidable c]
      (keys : Finset (ObjectId × String)) :
      AnalysisState.catalog (if c then t.snapshotBaselineForeignKeys.setBaselineForeignKeys keys
        else t) = t.catalog := by
    split
    · exact t.catalog_pushUndo _
    · rfl
  have hremoved := s.catalog_removeConstraints (goesWith s.graph.resolveRename closure)
  have hpending := catalog_filterPending
    ((s.constraints.keys.filter (goesWith s.graph.resolveRename closure)).foldl removeConstraint s)
    (goesWith s.graph.resolveRename closure)
  rw [hremoved, Catalog.without_without] at hpending
  refine (hbaseline _ _ _).trans (hpending.trans ?_)
  simp [Sweep.or]

theorem explicitScope_eq_some {name : String} {objects : List PublicationObjectFact} :
    s.explicitScope name = some objects ↔ ∃ publication,
      presentIn s.publications name = some publication ∧ publication.scope = .explicit objects := by
  unfold explicitScope
  cases presentIn s.publications name with
  | none => simp
  | some publication => cases h : publication.scope <;> simp [h]

/-- The catalog after one explicit publication lists other objects. -/
def relisted (c : Catalog) (update : String × List PublicationObjectFact) : Catalog :=
  { c with
    scopes := fun name =>
      if name = update.1 then (c.scopes name).map fun _ => update.2 else c.scopes name }

theorem relisted_of_none {c : Catalog} {update : String × List PublicationObjectFact}
    (h : c.scopes update.1 = none) : relisted c update = c := by
  refine Catalog.ext rfl rfl rfl rfl rfl (funext fun name => ?_) rfl
  by_cases hname : name = update.1
  · subst hname
    simp [relisted, h]
  · simp [relisted, hname]

theorem catalog_retainPublicationObjects (update : String × List PublicationObjectFact) :
    (s.retainPublicationObjects update).catalog = relisted s.catalog update := by
  have hcatalog : (s.snapshotPublication update.1).catalog = s.catalog := s.catalog_pushUndo _
  have hpublications : (s.snapshotPublication update.1).publications = s.publications := by
    unfold snapshotPublication pushUndo
    split <;> rfl
  have hunlisted (h : s.explicitScope update.1 = none) :
      (s.snapshotPublication update.1).catalog = relisted s.catalog update :=
    hcatalog.trans (relisted_of_none h).symm
  unfold retainPublicationObjects
  dsimp only
  rw [hpublications]
  cases hlookup : s.publications.lookup update.1 with
  | none => exact hunlisted (by simp [explicitScope, presentIn, hlookup])
  | some overlay =>
    cases overlay with
    | dropped => exact hunlisted (by simp [explicitScope, presentIn, hlookup])
    | present publication =>
      cases hscope : publication.scope with
      | allTables _ =>
        simp only [hscope]
        exact hunlisted (by simp [explicitScope, presentIn, hlookup, hscope])
      | explicit objects =>
        simp only [hscope]
        refine Eq.trans (b := relisted (s.snapshotPublication update.1).catalog update) ?_
          (by rw [hcatalog])
        refine Catalog.ext rfl rfl rfl rfl rfl (funext fun name => ?_) rfl
        by_cases hname : name = update.1
        · subst hname
          simp [relisted, catalog, explicitScope, presentIn, setPublications, hpublications, hlookup,
            hscope]
        · simp [relisted, catalog, explicitScope, presentIn, setPublications, hpublications, hname,
            AList.lookup_insert_ne hname]

theorem mem_publicationUpdates {resolve : ObjectId → ObjectId} {droppedRelations : List ObjectId}
    {update : String × List PublicationObjectFact} :
    update ∈ s.publicationUpdates resolve droppedRelations ↔ ∃ objects,
      s.explicitScope update.1 = some objects ∧
        update.2 = objects.filter (s.publicationObjectRetained resolve droppedRelations) ∧
          update.2.length ≠ objects.length := by
  unfold publicationUpdates
  rw [List.mem_filterMap]
  constructor
  · rintro ⟨⟨name, overlay⟩, hentry, hpicked⟩
    cases overlay with
    | dropped => cases hpicked
    | present publication =>
      have hpresent := mem_entries_present.mp hentry
      cases hscope : publication.scope with
      | allTables _ => simp [hscope] at hpicked
      | explicit objects =>
        simp only [hscope] at hpicked
        split at hpicked
        · rename_i hlength
          cases hpicked
          exact ⟨objects, s.explicitScope_eq_some.mpr ⟨publication, hpresent, hscope⟩, rfl, hlength⟩
        · cases hpicked
  · rintro ⟨objects, hscope, hretained, hlength⟩
    obtain ⟨publication, hpresent, hpublication⟩ := s.explicitScope_eq_some.mp hscope
    refine ⟨⟨update.1, .present publication⟩, mem_entries_present.mpr hpresent, ?_⟩
    simp only [hpublication, ← hretained]
    exact if_pos hlength

/-- A loop of rewrites whose lists depend on the publication's name alone. -/
theorem catalog_foldl_retain {retained : String → List PublicationObjectFact}
    (updates : List (String × List PublicationObjectFact))
    (hretained : ∀ update ∈ updates, update.2 = retained update.1) (s : AnalysisState) :
    (updates.foldl retainPublicationObjects s).catalog = { s.catalog with
      scopes := fun name =>
        if name ∈ updates.map (·.1) then (s.catalog.scopes name).map fun _ => retained name
        else s.catalog.scopes name } := by
  induction updates generalizing s with
  | nil => simp
  | cons update updates ih =>
    rw [List.foldl_cons, ih (fun u hu => hretained u (by simp [hu])),
      catalog_retainPublicationObjects]
    refine Catalog.ext rfl rfl rfl rfl rfl (funext fun name => ?_) rfl
    have hupdate := hretained update (by simp)
    by_cases hname : name = update.1
    · subst hname
      simp [relisted, hupdate, Function.comp_def]
    · simp only [relisted, List.map_cons, List.mem_cons, hname, if_false, false_or]

theorem catalog_retainPublications (resolve : ObjectId → ObjectId)
    (droppedRelations : List ObjectId) :
    ((s.publicationUpdates resolve droppedRelations).foldl retainPublicationObjects s).catalog =
      s.catalog.without
        { objects := fun o => !s.publicationObjectRetained resolve droppedRelations o } := by
  let keep := s.publicationObjectRetained resolve droppedRelations
  let retained (name : String) := ((s.explicitScope name).getD []).filter keep
  have hretained : ∀ update ∈ s.publicationUpdates resolve droppedRelations,
      update.2 = retained update.1 := by
    intro update hupdate
    obtain ⟨objects, hscope, hobjects, -⟩ := s.mem_publicationUpdates.mp hupdate
    simp [retained, hobjects, hscope, keep]
  rw [catalog_foldl_retain _ hretained s]
  refine Catalog.ext ?_ ?_ ?_ ?_ ?_ (funext fun name => ?_) ?_
  case refine_6 =>
    change (if name ∈ _ then (s.explicitScope name).map _ else s.explicitScope name) =
      (s.explicitScope name).map _
    cases hscope : s.explicitScope name with
    | none => simp
    | some objects =>
      by_cases hname : name ∈ (s.publicationUpdates resolve droppedRelations).map (·.1)
      · rw [if_pos hname]
        simp [retained, hscope, keep]
      · rw [if_neg hname]
        -- a scope that keeps its length keeps all its objects
        have hlength : (objects.filter keep).length = objects.length := by
          by_contra hne
          exact hname (List.mem_map.mpr ⟨(name, objects.filter keep),
            s.mem_publicationUpdates.mpr ⟨objects, hscope, rfl, hne⟩, rfl⟩)
        have hall := List.filter_eq_self.mpr (List.length_filter_eq_length_iff.mp hlength)
        simpa [keep] using hall.symm
  all_goals simp [Catalog.without, without_none]

theorem graph_eq_of_edges {t : AnalysisState} (h : t.catalog.edges = s.catalog.edges) :
    t.graph = s.graph := DependencyGraph.ext_edges h

end Stages

section Family

variable (s : AnalysisState) (closure : CascadeResult)

/-- The edge touches a dropped relation or a dropped index. -/
def touchesDropped (e : DependencyEdge) : Bool :=
  decide (s.graph.resolveRename e.dependent ∈ closure.droppedRelations) ||
    decide (s.graph.resolveRename e.referenced ∈ closure.droppedRelations) ||
      decide (s.graph.resolveRename e.dependent ∈ closure.droppedIndexes)

theorem catalog_removeDroppedRelationEdges :
    (s.removeDroppedRelationEdges closure.droppedRelations closure.droppedIndexes).catalog =
      s.catalog.without { edges := s.touchesDropped closure } := by
  have hkeeps : (fun e => !(if s.graph.resolveRename e.dependent ∈ closure.droppedIndexes then false
      else if s.graph.resolveRename e.dependent ∈ closure.droppedRelations then false
      else if s.graph.resolveRename e.referenced ∈ closure.droppedRelations then false
      else true)) = s.touchesDropped closure := by
    funext e
    unfold touchesDropped
    split
    · simp_all
    · split
      · simp_all
      · split <;> simp_all
  rw [← hkeeps]
  exact s.catalog_retainGraphEdges _

/-- The table of a present trigger is dropped. -/
def triggerGoes (id : ObjectId) : Bool :=
  (presentIn s.triggers id).any fun trigger =>
    decide (s.graph.resolveRename trigger.tableId ∈ closure.droppedRelations)

/-- What the family drop removes. -/
def familySweep : Sweep where
  relations id := decide (id ∈ closure.droppedRelations)
  triggers := s.triggerGoes closure
  constraints := goesWith s.graph.resolveRename closure
  pending := goesWith s.graph.resolveRename closure
  edges := s.touchesDropped closure

theorem mem_familyTriggersToDrop {id : ObjectId} :
    id ∈ s.familyTriggersToDrop closure.droppedRelations ↔ s.triggerGoes closure id = true := by
  unfold familyTriggersToDrop triggerGoes
  rw [List.mem_filterMap, Option.any_eq_true]
  constructor
  · rintro ⟨⟨k, overlay⟩, hentry, hpicked⟩
    cases overlay with
    | dropped => cases hpicked
    | present trigger =>
      have hpresent := mem_entries_present.mp hentry
      dsimp only at hpicked
      split at hpicked
      · rename_i htable
        cases hpicked
        exact ⟨trigger, hpresent, by simpa using htable⟩
      · cases hpicked
  · rintro ⟨trigger, hpresent, htable⟩
    exact ⟨⟨id, .present trigger⟩, mem_entries_present.mpr hpresent, if_pos (by simpa using htable)⟩

/-- A drop of relations that are all present removes what the sweep names. -/
theorem catalog_dropFamily
    (hpresent : ∀ id ∈ closure.droppedRelations, s.relationIsPresent id = true) :
    (s.dropFamily closure).catalog = s.catalog.without (s.familySweep closure) := by
  have hrelations : closure.droppedRelations.filter s.relationIsPresent = closure.droppedRelations :=
    List.filter_eq_self.mpr hpresent
  unfold dropFamily
  dsimp only
  rw [hrelations]
  let gone := closure.droppedRelations.foldl tombstoneRelation s
  have hgone : gone.catalog = s.catalog.without
      { relations := fun id => decide (id ∈ closure.droppedRelations) } :=
    s.catalog_tombstoneRelations _
  have hgraph : gone.graph = s.graph := (foldl_tombstoneRelation s closure.droppedRelations).1
  have hpicked : (fun id => decide (id ∈ gone.familyTriggersToDrop closure.droppedRelations)) =
      s.triggerGoes closure := by
    funext id
    have hsame : gone.triggerGoes closure = s.triggerGoes closure := by
      have htriggers : presentIn gone.triggers = presentIn s.triggers :=
        congrArg Catalog.triggers hgone
      unfold triggerGoes
      rw [htriggers, hgraph]
    rw [← hsame]
    exact Bool.eq_iff_iff.mpr (by simpa using gone.mem_familyTriggersToDrop closure)
  let rid := (gone.familyTriggersToDrop closure.droppedRelations).foldl tombstoneTrigger gone
  have hrid : rid.catalog = gone.catalog.without { triggers := s.triggerGoes closure } := by
    rw [← hpicked]
    exact catalog_foldl (w := fun p => { triggers := p }) rfl (fun _ _ => rfl)
      (fun s id => s.catalog_tombstoneTrigger id) _ gone
  have hridGraph : rid.graph = s.graph :=
    (gone.graph_eq_of_edges (by rw [hrid]; simp [Catalog.without])).trans hgraph
  let bare := rid.removeDroppedConstraints closure.droppedRelations closure.droppedConstraints
  have hbare : bare.catalog = rid.catalog.without
      { constraints := goesWith s.graph.resolveRename closure,
        pending := goesWith s.graph.resolveRename closure } := by
    rw [← hridGraph]
    exact rid.catalog_removeDroppedConstraints closure
  have hbareGraph : bare.graph = s.graph :=
    (rid.graph_eq_of_edges (by rw [hbare]; simp [Catalog.without])).trans hridGraph
  have htouches : bare.touchesDropped closure = s.touchesDropped closure := by
    unfold touchesDropped
    rw [hbareGraph]
  have hedges := bare.catalog_removeDroppedRelationEdges closure
  rw [htouches, hbare, hrid, hgone, Catalog.without_without, Catalog.without_without,
    Catalog.without_without] at hedges
  refine hedges.trans (congrArg _ (Sweep.ext ?_ ?_ ?_ ?_ ?_ ?_ ?_))
  all_goals simp [Sweep.or, familySweep]

end Family

section Table

variable (s : AnalysisState) (closure : CascadeResult)

/-- The relation that a publication lists by a qualified name. -/
def listedRelation : PublicationObjectFact → Option ObjectId
  | .table name .. => name.schema.map fun schema => ⟨schema.resolve, name.name.resolve⟩
  | _ => none

/-- A publication lists a dropped relation. -/
def objectGoes (resolve : ObjectId → ObjectId) (droppedRelations : List ObjectId)
    (o : PublicationObjectFact) : Bool :=
  (listedRelation o).any fun id => decide (resolve id ∈ droppedRelations)

/-- Every table listed by a publication is written with its schema. -/
def ListsQualified : Prop :=
  ∀ name objects, s.explicitScope name = some objects → ∀ o ∈ objects,
    match o with
    | .table written .. => written.schema.isSome = true
    | _ => True

/-- A foreign key that the cascade names. -/
def namesDropped (e : DependencyEdge) : Bool :=
  e.kind.foreignKeyName.any fun name =>
    dropsConstraint closure (s.graph.resolveRename e.dependent, name)

def ownerGoes (id : ObjectId) : Bool :=
  (presentIn s.sequences id).any fun sequence => sequence.ownedBy.any fun owner =>
    decide (s.graph.resolveRename owner.1 ∈ closure.droppedRelations)

/-- An edge of the trigger leads to a dropped relation. -/
def triggerEdgeGoes (id : ObjectId) : Bool :=
  s.graph.edges.any fun e => e.kind.isTriggerOnTable && e.dependent == id &&
    decide (s.graph.resolveRename e.referenced ∈ closure.droppedRelations)

/-- What `DROP TABLE ... CASCADE` removes. -/
def tableSweep : Sweep where
  relations id := decide (id ∈ closure.droppedRelations)
  sequences := s.ownerGoes closure
  triggers id := s.triggerGoes closure id ||
    ((presentIn s.triggers id).isSome && s.triggerEdgeGoes closure id)
  constraints := goesWith s.graph.resolveRename closure
  pending := goesWith s.graph.resolveRename closure
  objects := objectGoes s.graph.resolveRename closure.droppedRelations
  edges e := s.touchesDropped closure e || s.namesDropped closure e

theorem mem_ownedSequencesToDrop {resolve : ObjectId → ObjectId} {droppedRelations : List ObjectId}
    {id : ObjectId} : id ∈ s.ownedSequencesToDrop resolve droppedRelations ↔
      (presentIn s.sequences id).any (fun sequence => sequence.ownedBy.any fun owner =>
        decide (resolve owner.1 ∈ droppedRelations)) = true := by
  unfold ownedSequencesToDrop
  rw [List.mem_filterMap, Option.any_eq_true]
  constructor
  · rintro ⟨⟨k, overlay⟩, hentry, hpicked⟩
    cases overlay with
    | dropped => cases hpicked
    | present sequence =>
      have hpresent := mem_entries_present.mp hentry
      dsimp only at hpicked
      cases howner : sequence.ownedBy with
      | none => simp [howner] at hpicked
      | some owner =>
        simp only [howner] at hpicked
        split at hpicked
        · rename_i htable
          cases hpicked
          exact ⟨sequence, hpresent, by simpa [howner] using htable⟩
        · cases hpicked
  · rintro ⟨sequence, hpresent, howned⟩
    obtain ⟨owner, howner, htable⟩ := (Option.any_eq_true _ _).mp howned
    refine ⟨⟨id, .present sequence⟩, mem_entries_present.mpr hpresent, ?_⟩
    simp only [howner]
    exact if_pos (by simpa using htable)

theorem mem_triggersToDrop {resolve : ObjectId → ObjectId} {droppedRelations : List ObjectId}
    {id : ObjectId} : id ∈ s.triggersToDrop resolve droppedRelations ↔
      ∃ trigger, presentIn s.triggers id = some trigger ∧
        (resolve trigger.tableId ∈ droppedRelations ∨ s.graph.edges.any (fun edge =>
          edge.kind.isTriggerOnTable && edge.dependent == id &&
            decide (resolve edge.referenced ∈ droppedRelations)) = true) := by
  unfold triggersToDrop
  rw [List.mem_filterMap]
  constructor
  · rintro ⟨⟨k, overlay⟩, hentry, hpicked⟩
    cases overlay with
    | dropped => cases hpicked
    | present trigger =>
      have hpresent := mem_entries_present.mp hentry
      dsimp only at hpicked
      split at hpicked
      · rename_i hgoes
        cases hpicked
        exact ⟨trigger, hpresent, hgoes⟩
      · cases hpicked
  · rintro ⟨trigger, hpresent, hgoes⟩
    exact ⟨⟨id, .present trigger⟩, mem_entries_present.mpr hpresent, if_pos hgoes⟩

/-- The three sweeps of edges together. -/
theorem tableSweep_edges (e : DependencyEdge) :
    ((((!cascadeKeeps s.graph.resolveRename closure e) ||
      !!(e.kind.isTriggerOnTable &&
        decide (s.graph.resolveRename e.referenced ∈ closure.droppedRelations))) ||
      !(decide (s.graph.resolveRename e.dependent ∉ closure.droppedRelations) &&
        decide (s.graph.resolveRename e.referenced ∉ closure.droppedRelations) &&
          decide (s.graph.resolveRename e.dependent ∉ closure.droppedIndexes))) ||
      !(!e.kind.isPublicationIncludes ||
        decide (s.graph.resolveRename e.dependent ∉ closure.droppedRelations))) =
    (s.touchesDropped closure e || s.namesDropped closure e) := by
  unfold touchesDropped namesDropped cascadeKeeps
  by_cases hdependent : s.graph.resolveRename e.dependent ∈ closure.droppedRelations
  · simp [hdependent]
  · by_cases hreferenced : s.graph.resolveRename e.referenced ∈ closure.droppedRelations
    · simp [hreferenced]
    · by_cases hindex : s.graph.resolveRename e.dependent ∈ closure.droppedIndexes
      · simp [hindex]
      · cases hkind : e.kind with
        | foreignKey name _ _ _ _ =>
          cases name <;> simp [hdependent, hreferenced, hindex, DependencyKind.isTriggerOnTable,
            DependencyKind.isPublicationIncludes, DependencyKind.foreignKeyName]
        | _ => simp [hdependent, hreferenced, hindex, DependencyKind.isTriggerOnTable,
            DependencyKind.isPublicationIncludes, DependencyKind.foreignKeyName]

variable {s}

theorem catalog_dropOwnedSequences (s : AnalysisState) :
    ((s.ownedSequencesToDrop s.graph.resolveRename closure.droppedRelations).foldl
      tombstoneSequence s).catalog = s.catalog.without { sequences := s.ownerGoes closure } := by
  have hpicked : (fun id => decide (id ∈ s.ownedSequencesToDrop s.graph.resolveRename
      closure.droppedRelations)) = s.ownerGoes closure := by
    funext id
    exact Bool.eq_iff_iff.mpr (decide_eq_true_iff.trans s.mem_ownedSequencesToDrop)
  rw [← hpicked]
  exact catalog_foldl (w := fun p => { sequences := p }) rfl (fun _ _ => rfl)
    (fun s id => s.catalog_tombstoneSequence id) _ s

theorem mem_triggersToDrop_congr {t : AnalysisState}
    (htriggers : presentIn t.triggers = presentIn s.triggers) (hgraph : t.graph = s.graph)
    {resolve : ObjectId → ObjectId} {droppedRelations : List ObjectId} (id : ObjectId) :
    id ∈ t.triggersToDrop resolve droppedRelations ↔
      id ∈ s.triggersToDrop resolve droppedRelations := by
  rw [mem_triggersToDrop, mem_triggersToDrop, htriggers, hgraph]

/-- Qualified names are resolved without the search path. -/
theorem catalog_retainQualified (t : AnalysisState) (resolve : ObjectId → ObjectId)
    (droppedRelations : List ObjectId) (hlists : t.ListsQualified) :
    ((t.publicationUpdates resolve droppedRelations).foldl retainPublicationObjects t).catalog =
      t.catalog.without { objects := objectGoes resolve droppedRelations } := by
  refine (t.catalog_retainPublications resolve droppedRelations).trans (Catalog.without_congr {
    relations := fun _ _ _ => rfl
    sequences := fun _ _ _ => rfl
    triggers := fun _ _ _ => rfl
    constraints := fun _ _ _ => rfl
    pending := fun _ _ => rfl
    objects := fun name objects hobjects o ho => ?_
    edges := fun _ _ _ => rfl })
  have h := hlists name objects hobjects o ho
  cases o with
  | table written _ _ _ _ =>
    obtain ⟨schema, hschema⟩ := Option.isSome_iff_exists.mp h
    simp [publicationObjectRetained, objectGoes, listedRelation, resolveRelationId, hschema]
  | _ => rfl

/-- Everything that follows the relations and the first edges. -/
theorem catalog_dropTableRemainder {resolve : ObjectId → ObjectId}
    (hresolve : s.graph.resolveRename = resolve) (hlists : s.ListsQualified) :
    (s.dropTableRemainder resolve closure).catalog = s.catalog.without
      { sequences := s.ownerGoes closure
        triggers := fun id => decide (id ∈ s.triggersToDrop resolve closure.droppedRelations)
        constraints := goesWith resolve closure
        pending := goesWith resolve closure
        objects := objectGoes resolve closure.droppedRelations
        edges := fun e =>
          (!!(e.kind.isTriggerOnTable && decide (resolve e.referenced ∈ closure.droppedRelations)) ||
            !(decide (resolve e.dependent ∉ closure.droppedRelations) &&
              decide (resolve e.referenced ∉ closure.droppedRelations) &&
                decide (resolve e.dependent ∉ closure.droppedIndexes))) ||
            !(!e.kind.isPublicationIncludes ||
              decide (resolve e.dependent ∉ closure.droppedRelations)) } := by
  subst hresolve
  unfold dropTableRemainder
  dsimp only
  have ha := s.catalog_dropOwnedSequences closure
  generalize (s.ownedSequencesToDrop s.graph.resolveRename closure.droppedRelations).foldl
    tombstoneSequence s = a at ha ⊢
  have haGraph : a.graph = s.graph := s.graph_eq_of_edges (by rw [ha]; simp [Catalog.without])
  have hb := a.catalog_removeDroppedConstraints closure
  rw [haGraph] at hb
  generalize a.removeDroppedConstraints closure.droppedRelations closure.droppedConstraints = b
    at hb ⊢
  have hbGraph : b.graph = s.graph :=
    (a.graph_eq_of_edges (by rw [hb]; simp [Catalog.without])).trans haGraph
  have hbTriggers : presentIn b.triggers = presentIn s.triggers := by
    rw [ha] at hb
    have h := congrArg Catalog.triggers hb
    simpa [Catalog.without, without_none, catalog] using h
  have hc := catalog_foldl (w := fun p => { triggers := p }) rfl (fun _ _ => rfl)
    (fun s id => s.catalog_tombstoneTrigger id)
    (b.triggersToDrop s.graph.resolveRename closure.droppedRelations) b
  simp only [mem_triggersToDrop_congr hbTriggers hbGraph] at hc
  generalize (b.triggersToDrop s.graph.resolveRename closure.droppedRelations).foldl
    tombstoneTrigger b = c at hc ⊢
  have hd := c.catalog_retainGraphEdges fun e => !(e.kind.isTriggerOnTable &&
    decide (s.graph.resolveRename e.referenced ∈ closure.droppedRelations))
  generalize c.retainGraphEdges (fun e => !(e.kind.isTriggerOnTable &&
    decide (s.graph.resolveRename e.referenced ∈ closure.droppedRelations))) = d at hd ⊢
  have he := d.catalog_retainGraphEdges fun e =>
    decide (s.graph.resolveRename e.dependent ∉ closure.droppedRelations) &&
      decide (s.graph.resolveRename e.referenced ∉ closure.droppedRelations) &&
        decide (s.graph.resolveRename e.dependent ∉ closure.droppedIndexes)
  generalize d.retainGraphEdges (fun e =>
    decide (s.graph.resolveRename e.dependent ∉ closure.droppedRelations) &&
      decide (s.graph.resolveRename e.referenced ∉ closure.droppedRelations) &&
        decide (s.graph.resolveRename e.dependent ∉ closure.droppedIndexes)) = e at he ⊢
  rw [hd, hc, hb, ha] at he
  have hscopes : e.explicitScope = s.explicitScope := by
    have h := congrArg Catalog.scopes he
    simpa [Catalog.without, catalog] using h
  have hf := e.catalog_retainQualified (s.graph.resolveRename) closure.droppedRelations
    fun name objects hobjects => hlists name objects (hscopes ▸ hobjects)
  generalize (e.publicationUpdates s.graph.resolveRename closure.droppedRelations).foldl
    retainPublicationObjects e = f at hf ⊢
  rw [catalog_retainGraphEdges, hf, he]
  simp only [Catalog.without_without]
  refine congrArg _ (Sweep.ext ?_ ?_ ?_ ?_ ?_ ?_ ?_)
  all_goals simp [Sweep.or]

theorem cascadeKeeps_renameTo (resolve : ObjectId → ObjectId) {e : DependencyEdge}
    (h : e.kind.isRenameTo = true) : cascadeKeeps resolve closure e = true := by
  cases hkind : e.kind <;> simp_all [DependencyKind.isRenameTo, cascadeKeeps]

theorem cascadeKeeps_triggerOnTable (resolve : ObjectId → ObjectId) {e : DependencyEdge}
    (h : e.kind.isTriggerOnTable = true) : cascadeKeeps resolve closure e = true := by
  cases hkind : e.kind <;> simp_all [DependencyKind.isTriggerOnTable, cascadeKeeps]

/-- The edges that a cascade keeps lead to the same names as before. -/
theorem resolveRename_cascadeKeeps {t : AnalysisState} {resolve : ObjectId → ObjectId}
    (h : t.graph.edges = s.graph.edges.filter (cascadeKeeps resolve closure)) :
    t.graph.resolveRename = s.graph.resolveRename := by
  funext id
  refine DependencyGraph.resolveRename_congr ?_ id
  unfold DependencyGraph.aliases
  rw [h, List.filter_filter]
  refine List.filter_congr fun e _ => ?_
  cases hkind : e.kind.isRenameTo
  · rfl
  · simp [cascadeKeeps_renameTo closure _ hkind]

/-- `DROP TABLE ... CASCADE` removes what its sweep names. -/
theorem catalog_dropTableCascade (hlists : s.ListsQualified) :
    (s.dropTableCascade s.graph.resolveRename closure).catalog =
      s.catalog.without (s.tableSweep closure) := by
  unfold dropTableCascade
  dsimp only
  have ht : AnalysisState.catalog (if closure.droppedRelations.any fun id =>
      !s.relationIsPresent id && !s.baselineRelationIsKnown id then
        s.taint .unknownObjectState .chain else s) = s.catalog := by
    split
    · exact s.catalog_taint _ _
    · rfl
  generalize (if closure.droppedRelations.any fun id =>
      !s.relationIsPresent id && !s.baselineRelationIsKnown id then
        s.taint .unknownObjectState .chain else s) = t at ht ⊢
  have ha := t.catalog_tombstoneRelations closure.droppedRelations
  have hb := catalog_retainGraphEdges (closure.droppedRelations.foldl tombstoneRelation t)
    (cascadeKeeps s.graph.resolveRename closure)
  rw [ha, ht] at hb
  generalize (closure.droppedRelations.foldl tombstoneRelation t).retainGraphEdges
    (cascadeKeeps s.graph.resolveRename closure) = m at hb ⊢
  have hedges : m.graph.edges = s.graph.edges.filter (cascadeKeeps s.graph.resolveRename closure) := by
    have h := congrArg Catalog.edges hb
    simpa [Catalog.without, catalog] using h
  have hresolve := resolveRename_cascadeKeeps closure hedges
  have hsequences : presentIn m.sequences = presentIn s.sequences := by
    have h := congrArg Catalog.sequences hb
    simpa [Catalog.without, without_none, catalog] using h
  have htriggers : presentIn m.triggers = presentIn s.triggers := by
    have h := congrArg Catalog.triggers hb
    simpa [Catalog.without, without_none, catalog] using h
  have hscopes : m.explicitScope = s.explicitScope := by
    have h := congrArg Catalog.scopes hb
    simpa [Catalog.without, catalog] using h
  have howner : m.ownerGoes closure = s.ownerGoes closure := by
    unfold ownerGoes
    rw [hsequences, hresolve]
  have hpicked : (fun id => decide (id ∈ m.triggersToDrop s.graph.resolveRename
      closure.droppedRelations)) = (s.tableSweep closure).triggers := by
    funext id
    refine Bool.eq_iff_iff.mpr (decide_eq_true_iff.trans (m.mem_triggersToDrop.trans ?_))
    have hany : m.graph.edges.any (fun edge => edge.kind.isTriggerOnTable &&
        edge.dependent == id && decide (s.graph.resolveRename edge.referenced ∈
          closure.droppedRelations)) = s.triggerEdgeGoes closure id := by
      rw [hedges, List.any_filter]
      unfold triggerEdgeGoes
      congr 1
      funext e
      cases hkind : e.kind.isTriggerOnTable
      · simp
      · simp [cascadeKeeps_triggerOnTable closure _ hkind]
    rw [htriggers, hany]
    cases hpresent : presentIn s.triggers id with
    | none => simp [tableSweep, triggerGoes, hpresent]
    | some trigger => simp [tableSweep, triggerGoes, hpresent]
  have hrest := m.catalog_dropTableRemainder closure hresolve
    fun name objects hobjects => hlists name objects (hscopes ▸ hobjects)
  rw [howner, hpicked, hb] at hrest
  simp only [Catalog.without_without] at hrest
  refine hrest.trans (congrArg _ (Sweep.ext ?_ ?_ ?_ ?_ ?_ ?_ (funext fun e => ?_)))
  case refine_7 =>
    have h := s.tableSweep_edges closure e
    simpa [Sweep.or, tableSweep, Bool.or_assoc] using h
  all_goals simp [Sweep.or, tableSweep]

end Table

end AnalysisState

end SafeMigrate
