import SafeMigrate.Bookkeeping
import SafeMigrate.DropPaths
import SafeMigrate.EvidenceUndo

/-! `DROP TABLE ... CASCADE` with the closure that the engine computes over every
listed table, compared with the closure over the present ones. -/

namespace SafeMigrate

open Command Removal
open CascadeResult (SameMembers)

section Maps

variable {α β : Type} [DecidableEq α] {m m' m'' : KeyedMap α (Overlay β)}

/-- Some objects of the map have become tombstones, and nothing else has changed. -/
def Retired (m m' : KeyedMap α (Overlay β)) : Prop :=
  ∀ k, m'.lookup k = m.lookup k ∨ (m.lookup k).isSome ∧ m'.lookup k = some .dropped

theorem Retired.refl (m : KeyedMap α (Overlay β)) : Retired m m := fun _ => Or.inl rfl

theorem Retired.trans (h : Retired m m') (h' : Retired m' m'') : Retired m m'' := by
  intro k
  rcases h' k with hsame | ⟨hsome, hdropped⟩
  · rw [hsame]
    exact h k
  · rcases h k with hsame | ⟨hold, -⟩
    · rw [hsame] at hsome
      exact Or.inr ⟨hsome, hdropped⟩
    · exact Or.inr ⟨hold, hdropped⟩

theorem Retired.isSome (h : Retired m m') {k : α} (hk : (m.lookup k).isSome) :
    (m'.lookup k).isSome := by
  rcases h k with hsame | ⟨-, hdropped⟩
  · rwa [hsame]
  · rw [hdropped]
    rfl

theorem Retired.insert {k : α} (h : (m.lookup k).isSome) : Retired m (m.insert k .dropped) := by
  intro j
  by_cases hj : j = k
  · subst hj
    exact Or.inr ⟨h, AList.lookup_insert m⟩
  · exact Or.inl (AList.lookup_insert_ne hj)

/-- Two maps that retire the same objects are the same. -/
theorem Retired.lookup_eq (h : Retired m m') (h' : Retired m m'')
    (hpresent : presentIn m' = presentIn m'') : m'.lookup = m''.lookup := by
  funext k
  have hk := congrFun hpresent k
  unfold presentIn at hk
  rcases h k with hleft | ⟨hsome, hleft⟩ <;> rcases h' k with hright | ⟨hsome', hright⟩
  · rw [hleft, hright]
  · rw [hleft, hright] at hk ⊢
    obtain ⟨overlay, hoverlay⟩ := Option.isSome_iff_exists.mp hsome'
    cases overlay with
    | present v => simp [hoverlay] at hk
    | dropped => exact hoverlay
  · rw [hleft, hright] at hk ⊢
    obtain ⟨overlay, hoverlay⟩ := Option.isSome_iff_exists.mp hsome
    cases overlay with
    | present v => simp [hoverlay] at hk
    | dropped => exact hoverlay.symm
  · rw [hleft, hright]

theorem isSome_of_presentIn {k : α} {v : β} (h : presentIn m k = some v) :
    (m.lookup k).isSome := by
  unfold presentIn at h
  cases hlookup : m.lookup k with
  | none => simp [hlookup] at h
  | some overlay => rfl

theorem lookup_foldl_dropped (ids : List α) (m : KeyedMap α (Overlay β)) (k : α) :
    (ids.foldl (fun m id => m.insert id .dropped) m).lookup k =
      if k ∈ ids then some .dropped else m.lookup k := by
  induction ids generalizing m with
  | nil => simp
  | cons id ids ih =>
    rw [List.foldl_cons, ih]
    by_cases hk : k = id
    · subst hk
      simp [AList.lookup_insert]
    · simp [hk, AList.lookup_insert_ne hk]

end Maps

/-- A publication without the objects that it lists. -/
def emptied : PublicationOverlay → PublicationOverlay
  | .present publication =>
    match publication.scope with
    | .explicit _ => .present { publication with scope := .explicit [] }
    | .allTables _ => .present publication
  | .dropped => .dropped

namespace AnalysisState

/-- The state without what a drop of tables writes, and without the undo entries. -/
def beyondDrop (s : AnalysisState) : AnalysisState :=
  { s with relations := ∅, sequences := ∅, triggers := ∅, constraints := ∅, publications := ∅,
           pendingValidation := ∅, baselineForeignKeys := ∅, graph := .empty, transactions := [] }

/-- Two states that hold the same: maps by their entries, and whatever order the undo
entries have. -/
structure SameState (t t' : AnalysisState) : Prop where
  relations : t.relations.lookup = t'.relations.lookup
  sequences : t.sequences.lookup = t'.sequences.lookup
  triggers : t.triggers.lookup = t'.triggers.lookup
  constraints : t.constraints.lookup = t'.constraints.lookup
  publications : t.publications.lookup = t'.publications.lookup
  pendingValidation : t.pendingValidation = t'.pendingValidation
  baselineForeignKeys : t.baselineForeignKeys = t'.baselineForeignKeys
  graph : t.graph = t'.graph
  beyond : t.beyondDrop = t'.beyondDrop

theorem SameState.refl (t : AnalysisState) : SameState t t :=
  ⟨rfl, rfl, rfl, rfl, rfl, rfl, rfl, rfl, rfl⟩

/-- What the sweeps that follow the relations may write. -/
structure Swept (s t : AnalysisState) : Prop where
  relations : t.relations = s.relations
  sequences : Retired s.sequences t.sequences
  triggers : Retired s.triggers t.triggers
  publications : ∀ name,
    (t.publications.lookup name).map emptied = (s.publications.lookup name).map emptied
  baselineForeignKeys : t.baselineForeignKeys = s.baselineForeignKeys
  beyond : t.beyondDrop = s.beyondDrop

instance : Std.Refl Swept :=
  ⟨fun _ => ⟨rfl, .refl _, .refl _, fun _ => rfl, rfl, rfl⟩⟩

instance : IsTrans AnalysisState Swept where
  trans _ _ _ h h' := ⟨h'.relations.trans h.relations, h.sequences.trans h'.sequences,
    h.triggers.trans h'.triggers, fun name => (h'.publications name).trans (h.publications name),
    h'.baselineForeignKeys.trans h.baselineForeignKeys, h'.beyond.trans h.beyond⟩

section Stages

variable {s t : AnalysisState}

theorem swept_pushUndo (s : AnalysisState) (change : StateChange) :
    Swept s (s.pushUndo change) := by
  obtain ⟨frames, hframes⟩ := s.pushUndo_eq change
  rw [hframes]
  exact ⟨rfl, .refl _, .refl _, fun _ => rfl, rfl, rfl⟩

theorem Swept.setRelations (h : Swept s t) (m : KeyedMap ObjectId RelationOverlay) :
    Swept (s.setRelations m) (t.setRelations m) :=
  ⟨rfl, h.sequences, h.triggers, h.publications, h.baselineForeignKeys, h.beyond⟩

theorem Swept.setBaselineForeignKeys (h : Swept s t) (keys : Finset (ObjectId × String)) :
    Swept (s.setBaselineForeignKeys keys) (t.setBaselineForeignKeys keys) :=
  ⟨h.relations, h.sequences, h.triggers, h.publications, rfl, h.beyond⟩

theorem Swept.setConstraints (h : Swept s t) (m : KeyedMap (ObjectId × String) ConstraintState) :
    Swept s (t.setConstraints m) :=
  ⟨h.relations, h.sequences, h.triggers, h.publications, h.baselineForeignKeys, h.beyond⟩

theorem Swept.setPendingValidation (h : Swept s t) (keys : Finset (ObjectId × String)) :
    Swept s (t.setPendingValidation keys) :=
  ⟨h.relations, h.sequences, h.triggers, h.publications, h.baselineForeignKeys, h.beyond⟩

theorem Swept.setGraph (h : Swept s t) (g : DependencyGraph) : Swept s (t.setGraph g) :=
  ⟨h.relations, h.sequences, h.triggers, h.publications, h.baselineForeignKeys, h.beyond⟩

theorem swept_retainGraphEdges (s : AnalysisState) (keep : DependencyEdge → Bool) :
    Swept s (s.retainGraphEdges keep) := (s.swept_pushUndo _).setGraph _

theorem swept_tombstoneSequences (ids : List ObjectId) (s : AnalysisState)
    (h : ∀ id ∈ ids, (s.sequences.lookup id).isSome) :
    Swept s (ids.foldl tombstoneSequence s) := by
  induction ids generalizing s with
  | nil => exact Std.Refl.refl s
  | cons id ids ih =>
    have hundo : Swept s (s.snapshotSequence id) := s.swept_pushUndo _
    have hretired : Retired (s.snapshotSequence id).sequences
        ((s.snapshotSequence id).sequences.insert id .dropped) :=
      .insert (hundo.sequences.isSome (h id List.mem_cons_self))
    have hstep : Swept s (s.tombstoneSequence id) :=
      ⟨hundo.relations, hundo.sequences.trans hretired, hundo.triggers, hundo.publications,
        hundo.baselineForeignKeys, hundo.beyond⟩
    exact IsTrans.trans _ _ _ hstep (ih _ fun other hother =>
      hstep.sequences.isSome (h other (List.mem_cons_of_mem id hother)))

theorem swept_tombstoneTriggers (ids : List ObjectId) (s : AnalysisState)
    (h : ∀ id ∈ ids, (s.triggers.lookup id).isSome) :
    Swept s (ids.foldl tombstoneTrigger s) := by
  induction ids generalizing s with
  | nil => exact Std.Refl.refl s
  | cons id ids ih =>
    have hundo : Swept s (s.snapshotTrigger id) := s.swept_pushUndo _
    have hretired : Retired (s.snapshotTrigger id).triggers
        ((s.snapshotTrigger id).triggers.insert id .dropped) :=
      .insert (hundo.triggers.isSome (h id List.mem_cons_self))
    have hstep : Swept s (s.tombstoneTrigger id) :=
      ⟨hundo.relations, hundo.sequences, hundo.triggers.trans hretired, hundo.publications,
        hundo.baselineForeignKeys, hundo.beyond⟩
    exact IsTrans.trans _ _ _ hstep (ih _ fun other hother =>
      hstep.triggers.isSome (h other (List.mem_cons_of_mem id hother)))

theorem swept_retainPublicationObjects (s : AnalysisState)
    (update : String × List PublicationObjectFact) :
    Swept s (s.retainPublicationObjects update) := by
  have hundo : Swept s (s.snapshotPublication update.1) := s.swept_pushUndo _
  unfold retainPublicationObjects
  dsimp only
  cases hlookup : (s.snapshotPublication update.1).publications.lookup update.1 with
  | none => exact hundo
  | some overlay =>
    cases overlay with
    | dropped => exact hundo
    | present publication =>
      cases hscope : publication.scope with
      | allTables _ => simpa only [hscope] using hundo
      | explicit objects =>
        simp only [hscope]
        refine ⟨hundo.relations, hundo.sequences, hundo.triggers, fun name => ?_,
          hundo.baselineForeignKeys, hundo.beyond⟩
        refine Eq.trans ?_ (hundo.publications name)
        by_cases hname : name = update.1
        · subst hname
          simp [setPublications, hlookup, emptied, hscope]
        · simp [setPublications, AList.lookup_insert_ne hname]

theorem swept_removeDroppedConstraints (s : AnalysisState) (closure : CascadeResult) :
    Swept (s.setBaselineForeignKeys
        (s.baselineForeignKeys.filter fun key => !goesWith s.graph.resolveRename closure key))
      (s.removeDroppedConstraints closure.droppedRelations closure.droppedConstraints) := by
  have hremoved : Swept s ((s.constraints.keys.filter
      (goesWith s.graph.resolveRename closure)).foldl removeConstraint s) :=
    keeps_foldl _ (fun key _ s => (s.swept_pushUndo _).setConstraints _) s
  generalize hu : (s.constraints.keys.filter (goesWith s.graph.resolveRename closure)).foldl
    removeConstraint s = u at hremoved
  have hpending : Swept s (if ∃ key ∈ u.pendingValidation,
        goesWith s.graph.resolveRename closure key = true then
      u.snapshotPendingValidation.setPendingValidation
        (u.snapshotPendingValidation.pendingValidation.filter fun key =>
          !goesWith s.graph.resolveRename closure key)
    else u) :=
    keeps_ite (fun _ => IsTrans.trans _ _ _ hremoved ((u.swept_pushUndo _).setPendingValidation _))
      fun _ => hremoved
  generalize hv : (if ∃ key ∈ u.pendingValidation,
        goesWith s.graph.resolveRename closure key = true then
      u.snapshotPendingValidation.setPendingValidation
        (u.snapshotPendingValidation.pendingValidation.filter fun key =>
          !goesWith s.graph.resolveRename closure key)
    else u) = v at hpending
  have hwhole : s.removeDroppedConstraints closure.droppedRelations closure.droppedConstraints =
      if ∃ key ∈ v.baselineForeignKeys, goesWith s.graph.resolveRename closure key = true then
        v.snapshotBaselineForeignKeys.setBaselineForeignKeys
          (v.snapshotBaselineForeignKeys.baselineForeignKeys.filter fun key =>
            !goesWith s.graph.resolveRename closure key)
      else v := by
    rw [← hv, ← hu]
    rfl
  rw [hwhole]
  have hundo := v.swept_pushUndo (.baselineForeignKeysSnapshot v.baselineForeignKeys)
  split
  · have hkeys : v.snapshotBaselineForeignKeys.baselineForeignKeys = s.baselineForeignKeys :=
      hundo.baselineForeignKeys.trans hpending.baselineForeignKeys
    rw [hkeys]
    exact (IsTrans.trans _ _ _ hpending hundo).setBaselineForeignKeys _
  · rename_i hnone
    have hkept : s.baselineForeignKeys.filter
        (fun key => !goesWith s.graph.resolveRename closure key) = v.baselineForeignKeys := by
      rw [hpending.baselineForeignKeys] at hnone ⊢
      refine Finset.filter_true_of_mem fun key hkey => ?_
      rw [Bool.not_eq_true', ← Bool.not_eq_true]
      exact fun hgoes => hnone ⟨key, hkey, hgoes⟩
    rw [hkept]
    exact hpending.setBaselineForeignKeys v.baselineForeignKeys

theorem swept_tombstoneRelations (ids : List ObjectId) (s : AnalysisState) :
    Swept (s.setRelations (ids.foldl (fun m id => m.insert id .dropped) s.relations))
      (ids.foldl tombstoneRelation s) := by
  induction ids generalizing s with
  | nil => exact Std.Refl.refl s
  | cons id ids ih =>
    have hundo := s.swept_pushUndo (.relationSnapshot id (s.relations.lookup id))
    have hwritten : s.tombstoneRelation id =
        (s.pushUndo (.relationSnapshot id (s.relations.lookup id))).setRelations
          (s.relations.insert id .dropped) := by
      unfold tombstoneRelation snapshotRelation
      dsimp only
      rw [hundo.relations]
    have hstep : Swept (s.setRelations (s.relations.insert id .dropped)) (s.tombstoneRelation id) :=
      hwritten ▸ hundo.setRelations _
    have hrest := ih (s.tombstoneRelation id)
    rw [hstep.relations] at hrest
    exact IsTrans.trans _ _ _ (hstep.setRelations _) hrest

theorem swept_dropTableRemainder (s : AnalysisState) (closure : CascadeResult) :
    Swept (s.setBaselineForeignKeys
        (s.baselineForeignKeys.filter fun key => !goesWith s.graph.resolveRename closure key))
      (s.dropTableRemainder s.graph.resolveRename closure) := by
  have howned : ∀ id ∈ s.ownedSequencesToDrop s.graph.resolveRename closure.droppedRelations,
      (s.sequences.lookup id).isSome := by
    intro id hid
    rw [mem_ownedSequencesToDrop] at hid
    obtain ⟨sequence, hpresent, -⟩ := (Option.any_eq_true _ _).mp hid
    exact isSome_of_presentIn hpresent
  unfold dropTableRemainder
  dsimp only
  have ha := swept_tombstoneSequences _ s howned
  have hgraph : ((s.ownedSequencesToDrop s.graph.resolveRename closure.droppedRelations).foldl
      tombstoneSequence s).graph = s.graph :=
    s.graph_eq_of_edges (by rw [catalog_dropOwnedSequences]; simp [Catalog.without])
  generalize (s.ownedSequencesToDrop s.graph.resolveRename closure.droppedRelations).foldl
    tombstoneSequence s = a at ha hgraph ⊢
  have hb := a.swept_removeDroppedConstraints closure
  rw [hgraph, ha.baselineForeignKeys] at hb
  generalize a.removeDroppedConstraints closure.droppedRelations closure.droppedConstraints = b
    at hb ⊢
  have hc := swept_tombstoneTriggers (b.triggersToDrop s.graph.resolveRename
    closure.droppedRelations) b fun id hid => by
      obtain ⟨trigger, hpresent, -⟩ := b.mem_triggersToDrop.mp hid
      exact isSome_of_presentIn hpresent
  refine IsTrans.trans _ _ _ (ha.setBaselineForeignKeys _) (IsTrans.trans _ _ _ hb
    (IsTrans.trans _ _ _ hc ?_))
  refine IsTrans.trans _ _ _ ?_ (swept_retainGraphEdges _ _)
  refine IsTrans.trans _ _ _ ?_
    (keeps_foldl _ (fun update _ s => s.swept_retainPublicationObjects update) _)
  exact IsTrans.trans _ _ _ (swept_retainGraphEdges _ _) (swept_retainGraphEdges _ _)

/-- The relations of a closure, known to the catalog or not. -/
def taintUnmodeled (s : AnalysisState) (closure : CascadeResult) : AnalysisState :=
  if closure.droppedRelations.any fun id =>
      !s.relationIsPresent id && !s.baselineRelationIsKnown id then
    s.taint .unknownObjectState .chain
  else s

theorem swept_dropTableCascade (s : AnalysisState) (closure : CascadeResult) :
    Swept (((s.taintUnmodeled closure).setRelations (closure.droppedRelations.foldl
          (fun m id => m.insert id .dropped) s.relations)).setBaselineForeignKeys
        (s.baselineForeignKeys.filter fun key => !goesWith s.graph.resolveRename closure key))
      (s.dropTableCascade s.graph.resolveRename closure) := by
  have htaint : SameContents s (s.taintUnmodeled closure) :=
    keeps_ite (fun _ => SameContents.taint s _ _) fun _ => SameContents.refl s
  have hgraph : (s.taintUnmodeled closure).graph = s.graph := htaint.graph
  have hrelations := swept_tombstoneRelations closure.droppedRelations (s.taintUnmodeled closure)
  have hcatalog := catalog_tombstoneRelations (s.taintUnmodeled closure) closure.droppedRelations
  rw [htaint.relations] at hrelations
  have hwhole : s.dropTableCascade s.graph.resolveRename closure =
      ((closure.droppedRelations.foldl tombstoneRelation
        (s.taintUnmodeled closure)).retainGraphEdges
          (cascadeKeeps s.graph.resolveRename closure)).dropTableRemainder s.graph.resolveRename
            closure := rfl
  rw [hwhole]
  generalize closure.droppedRelations.foldl tombstoneRelation (s.taintUnmodeled closure) = u
    at hrelations hcatalog
  have huGraph : u.graph = s.graph :=
    (graph_eq_of_edges _ (by rw [hcatalog]; simp [Catalog.without])).trans hgraph
  have hedges := u.swept_retainGraphEdges (cascadeKeeps s.graph.resolveRename closure)
  have hkept : (u.retainGraphEdges (cascadeKeeps s.graph.resolveRename closure)).graph.edges =
      s.graph.edges.filter (cascadeKeeps s.graph.resolveRename closure) := by
    have h := congrArg Catalog.edges
      (u.catalog_retainGraphEdges (cascadeKeeps s.graph.resolveRename closure))
    simpa [Catalog.without, catalog, huGraph] using h
  generalize u.retainGraphEdges (cascadeKeeps s.graph.resolveRename closure) = m at hedges hkept
  have hrest := m.swept_dropTableRemainder closure
  rw [resolveRename_cascadeKeeps closure hkept] at hrest
  have hkeys : m.baselineForeignKeys = s.baselineForeignKeys :=
    (hedges.baselineForeignKeys.trans hrelations.baselineForeignKeys).trans
      htaint.baselineForeignKeys
  rw [hkeys] at hrest
  exact IsTrans.trans _ _ _
    ((IsTrans.trans _ _ _ hrelations hedges).setBaselineForeignKeys _) hrest

end Stages

section Evidence

variable {s t : AnalysisState} {code : EvidenceCode} {scope : EvidenceScope}

/-- The record that a taint leaves. -/
def evidenceRecord (s : AnalysisState) (code : EvidenceCode) (scope : EvidenceScope) :
    EvidenceRecord :=
  { EvidenceRecord.new code scope with location := none <|> s.currentEvidenceLocation }

theorem taint_of_recorded (h : s.evidenceRecord code scope ∈ s.evidence.records) :
    s.taint code scope = s := if_pos h

theorem mem_taint_evidence {r : EvidenceRecord} : r ∈ (s.taint code scope).evidence.records ↔
    r ∈ s.evidence.records ∨ r = s.evidenceRecord code scope := by
  by_cases h : s.evidenceRecord code scope ∈ s.evidence.records
  · rw [taint_of_recorded h]
    exact ⟨Or.inl, fun hr => hr.elim id fun heq => heq ▸ h⟩
  · have hsame : s.snapshotEvidence.markTainted.evidence = s.evidence := by
      unfold markTainted
      split
      · exact s.pushUndo_evidence _
      · exact (pushUndo_evidence _ _).trans (s.pushUndo_evidence _)
    have hwritten : s.taint code scope = s.snapshotEvidence.markTainted.setEvidence
        (s.snapshotEvidence.markTainted.evidence.insert (s.evidenceRecord code scope)) := if_neg h
    rw [hwritten]
    change r ∈ (s.snapshotEvidence.markTainted.evidence.insert _).records ↔ _
    rw [EvidenceLog.mem_insert, hsame, or_comm]

theorem evidence_of_beyond (h : t.beyondDrop = s.beyondDrop) : t.evidence = s.evidence ∧
    t.evidenceRecord code scope = s.evidenceRecord code scope := by
  have hevidence := congrArg AnalysisState.evidence h
  have hrecord := congrArg (fun u : AnalysisState => u.evidenceRecord code scope) h
  exact ⟨hevidence, hrecord⟩

theorem beyondDrop_setEvidence (s : AnalysisState) (log : EvidenceLog) :
    (s.setEvidence log).beyondDrop = s.beyondDrop.setEvidence log := rfl

theorem setConfidence_self {c : Confidence} (h : s.confidence = c) : s.setConfidence c = s := by
  subst h
  rfl

theorem beyondDrop_markTainted (s : AnalysisState) :
    s.markTainted.beyondDrop = s.beyondDrop.setConfidence .tainted := by
  unfold markTainted
  split
  · rename_i htainted
    have hsame : s.beyondDrop.confidence = .tainted := htainted
    rw [setConfidence_self hsame]
  · have hundo := (s.swept_pushUndo (.confidenceSnapshot s.confidence)).beyond
    exact congrArg (setConfidence · .tainted) hundo

theorem beyondDrop_taint_of_new (h : s.evidenceRecord code scope ∉ s.evidence.records) :
    (s.taint code scope).beyondDrop = (s.beyondDrop.setConfidence .tainted).setEvidence
      (s.evidence.insert (s.evidenceRecord code scope)) := by
  have hundo := (s.swept_pushUndo (.evidenceSnapshot s.evidence)).beyond
  have hmark : s.snapshotEvidence.markTainted.beyondDrop = s.beyondDrop.setConfidence .tainted :=
    (beyondDrop_markTainted _).trans (congrArg (setConfidence · .tainted) hundo)
  have hevidence : s.snapshotEvidence.markTainted.evidence = s.evidence := by
    have hsame := congrArg AnalysisState.evidence hmark
    exact hsame
  have hwritten : s.taint code scope = s.snapshotEvidence.markTainted.setEvidence
      (s.snapshotEvidence.markTainted.evidence.insert (s.evidenceRecord code scope)) := if_neg h
  rw [hwritten, beyondDrop_setEvidence, hmark, hevidence]

/-- Beside the undo entries a taint depends on what is beyond the drop alone. -/
theorem beyondDrop_taint (h : t.beyondDrop = s.beyondDrop) (code : EvidenceCode)
    (scope : EvidenceScope) :
    (t.taint code scope).beyondDrop = (s.taint code scope).beyondDrop := by
  obtain ⟨hevidence, hrecord⟩ := @evidence_of_beyond s t code scope h
  by_cases hs : s.evidenceRecord code scope ∈ s.evidence.records
  · have ht : t.evidenceRecord code scope ∈ t.evidence.records := by rwa [hrecord, hevidence]
    rw [taint_of_recorded hs, taint_of_recorded ht, h]
  · have ht : t.evidenceRecord code scope ∉ t.evidence.records := by rwa [hrecord, hevidence]
    rw [beyondDrop_taint_of_new hs, beyondDrop_taint_of_new ht, h, hevidence, hrecord]

end Evidence

/-- A closure adds nothing to another that it holds: what it names besides is gone
already, and what it cannot tell of has been noted before. -/
structure AddsNothing (s : AnalysisState) (full own : CascadeResult) : Prop where
  relations : ∀ id ∈ full.droppedRelations, id ∉ own.droppedRelations →
    s.relations.lookup id = some .dropped
  sweeps : (s.tableSweep full).AlikeOn s.catalog (fun _ => true) (s.tableSweep own)
  foreignKeys : ∀ key ∈ s.baselineForeignKeys,
    goesWith s.graph.resolveRename full key = goesWith s.graph.resolveRename own key
  unmodeled : (∃ id ∈ full.droppedRelations, s.relationIsPresent id = false ∧
      s.baselineRelationIsKnown id = false) →
    (∃ id ∈ own.droppedRelations, s.relationIsPresent id = false ∧
      s.baselineRelationIsKnown id = false) ∨
    s.taint .unknownObjectState .chain = s

section Compare

variable {s t t' u u' : AnalysisState} {full own : CascadeResult}

theorem SameState.catalog (h : SameState t t') : t.catalog = t'.catalog := by
  have hpresent {α β : Type} [DecidableEq α] {m m' : KeyedMap α (Overlay β)}
      (hm : m.lookup = m'.lookup) : presentIn m = presentIn m' := by
    funext k
    unfold presentIn
    rw [show m.lookup k = m'.lookup k from congrFun hm k]
  have hscopes : t.explicitScope = t'.explicitScope := by
    funext name
    unfold explicitScope
    rw [hpresent h.publications]
  exact Catalog.ext (hpresent h.relations) (hpresent h.sequences) (hpresent h.triggers)
    h.constraints h.pendingValidation hscopes (congrArg DependencyGraph.edges h.graph)

theorem sameContents_taintIncomplete (s : AnalysisState) (incomplete : Bool) :
    SameContents s (s.taintIncomplete incomplete) :=
  keeps_ite (fun _ => SameContents.taint s _ _) fun _ => SameContents.refl s

theorem SameState.taintIncomplete (h : SameState t t') (incomplete : Bool) :
    SameState (t.taintIncomplete incomplete) (t'.taintIncomplete incomplete) := by
  have ht := t.sameContents_taintIncomplete incomplete
  have ht' := t'.sameContents_taintIncomplete incomplete
  refine ⟨?_, ?_, ?_, ?_, ?_, ?_, ?_, ?_, ?_⟩
  · rw [ht.relations, ht'.relations, h.relations]
  · rw [ht.sequences, ht'.sequences, h.sequences]
  · rw [ht.triggers, ht'.triggers, h.triggers]
  · rw [ht.constraints, ht'.constraints, h.constraints]
  · rw [ht.publications, ht'.publications, h.publications]
  · rw [ht.pendingValidation, ht'.pendingValidation, h.pendingValidation]
  · rw [ht.baselineForeignKeys, ht'.baselineForeignKeys, h.baselineForeignKeys]
  · rw [ht.graph, ht'.graph, h.graph]
  · unfold AnalysisState.taintIncomplete
    split
    · exact beyondDrop_taint h.beyond _ _
    · exact h.beyond

/-- The same lists of objects and the same publications beside them. -/
theorem publications_eq (hemptied : ∀ name, (t.publications.lookup name).map emptied =
      (t'.publications.lookup name).map emptied)
    (hscopes : t.explicitScope = t'.explicitScope) :
    t.publications.lookup = t'.publications.lookup := by
  funext name
  have hname := hemptied name
  have hscope := congrFun hscopes name
  unfold explicitScope presentIn at hscope
  cases hleft : t.publications.lookup name with
  | none =>
    rw [hleft, Option.map_none, eq_comm, Option.map_eq_none_iff] at hname
    rw [hname]
  | some overlay =>
    rw [hleft, Option.map_some, eq_comm, Option.map_eq_some_iff] at hname
    obtain ⟨overlay', hright, hsame⟩ := hname
    rw [hleft, hright] at hscope
    rw [hright]
    cases overlay with
    | dropped =>
      cases overlay' with
      | dropped => rfl
      | present publication' =>
        cases hscope' : publication'.scope <;> simp [emptied, hscope'] at hsame
    | present publication =>
      cases overlay' with
      | dropped => cases hscope' : publication.scope <;> simp [emptied, hscope'] at hsame
      | present publication' =>
        obtain ⟨_, _, scope, _, _⟩ := publication
        obtain ⟨_, _, scope', _, _⟩ := publication'
        cases scope <;> cases scope' <;> simp_all [emptied]

/-- What only the sweeps write is the same where the catalogs are. -/
theorem Swept.sameState (h : Swept u t) (h' : Swept u' t') (hcatalog : t.catalog = t'.catalog)
    (hrelations : u.relations.lookup = u'.relations.lookup)
    (hsequences : u.sequences = u'.sequences) (htriggers : u.triggers = u'.triggers)
    (hpublications : u.publications = u'.publications)
    (hkeys : u.baselineForeignKeys = u'.baselineForeignKeys)
    (hbeyond : u.beyondDrop = u'.beyondDrop) :
    SameState t t' where
  relations := by rw [h.relations, h'.relations, hrelations]
  sequences := h.sequences.lookup_eq (hsequences ▸ h'.sequences)
    (congrArg Catalog.sequences hcatalog)
  triggers := h.triggers.lookup_eq (htriggers ▸ h'.triggers) (congrArg Catalog.triggers hcatalog)
  constraints := congrArg Catalog.constraints hcatalog
  publications := publications_eq
    (fun name => (h.publications name).trans (hpublications ▸ (h'.publications name).symm))
    (congrArg Catalog.scopes hcatalog)
  pendingValidation := congrArg Catalog.pending hcatalog
  baselineForeignKeys := by rw [h.baselineForeignKeys, h'.baselineForeignKeys, hkeys]
  graph := graph_eq_of_edges _ (congrArg Catalog.edges hcatalog)
  beyond := by rw [h.beyond, h'.beyond, hbeyond]

theorem unmodeled_iff {closure : CascadeResult} :
    (closure.droppedRelations.any fun id =>
      !s.relationIsPresent id && !s.baselineRelationIsKnown id) = true ↔
    ∃ id ∈ closure.droppedRelations, s.relationIsPresent id = false ∧
      s.baselineRelationIsKnown id = false := by
  simp only [List.any_eq_true, Bool.and_eq_true, Bool.not_eq_true']

theorem taintUnmodeled_eq (hwithin : own.droppedRelations ⊆ full.droppedRelations)
    (h : s.AddsNothing full own) : s.taintUnmodeled full = s.taintUnmodeled own := by
  have hnotes := h.unmodeled
  rw [← unmodeled_iff, ← unmodeled_iff] at hnotes
  unfold taintUnmodeled
  by_cases hfull : (full.droppedRelations.any fun id =>
      !s.relationIsPresent id && !s.baselineRelationIsKnown id) = true
  · rw [if_pos hfull]
    rcases hnotes hfull with hown | hnoted
    · rw [if_pos hown]
    · rw [hnoted, ite_self]
  · have hown : ¬(own.droppedRelations.any fun id =>
        !s.relationIsPresent id && !s.baselineRelationIsKnown id) = true := fun hown => by
      obtain ⟨id, hid, hunmodeled⟩ := unmodeled_iff.mp hown
      exact hfull (unmodeled_iff.mpr ⟨id, hwithin hid, hunmodeled⟩)
    rw [if_neg hfull, if_neg hown]

/-- Two cascades of which one holds the other end in the same state exactly if the larger
one adds nothing. -/
theorem dropTableCascade_sameState_iff (hlists : s.ListsQualified)
    (hwithin : own.droppedRelations ⊆ full.droppedRelations) (incomplete : Bool) :
    SameState ((s.dropTableCascade s.graph.resolveRename full).taintIncomplete incomplete)
        ((s.dropTableCascade s.graph.resolveRename own).taintIncomplete incomplete) ↔
      s.AddsNothing full own := by
  have hfull := s.swept_dropTableCascade full
  have hown := s.swept_dropTableCascade own
  have hfullCatalog := s.catalog_dropTableCascade full hlists
  have hownCatalog := s.catalog_dropTableCascade own hlists
  have hcontents (closure : CascadeResult) : SameContents s (s.taintUnmodeled closure) :=
    keeps_ite (fun _ => SameContents.taint s _ _) fun _ => SameContents.refl s
  generalize s.dropTableCascade s.graph.resolveRename full = t at hfull hfullCatalog ⊢
  generalize s.dropTableCascade s.graph.resolveRename own = t' at hown hownCatalog ⊢
  constructor
  · intro h
    have ht := t.sameContents_taintIncomplete incomplete
    have ht' := t'.sameContents_taintIncomplete incomplete
    refine ⟨fun id hid hother => ?_, ?_, ?_, fun hunmodeled => ?_⟩
    · have hlookup := congrFun h.relations id
      rw [ht.relations, ht'.relations, hfull.relations,
        hown.relations] at hlookup
      have hleft := lookup_foldl_dropped full.droppedRelations s.relations id
      have hright := lookup_foldl_dropped own.droppedRelations s.relations id
      rw [if_pos hid] at hleft
      rw [if_neg hother] at hright
      exact (hright.symm.trans hlookup.symm).trans hleft
    · refine Catalog.alike_without_iff.mp ?_
      have hcatalog := h.catalog
      rw [catalog_taintIncomplete, catalog_taintIncomplete, hfullCatalog, hownCatalog] at hcatalog
      rw [hcatalog]
      exact ⟨rfl, rfl, rfl, rfl, rfl, rfl, rfl⟩
    · have hkeys := h.baselineForeignKeys
      rw [ht.baselineForeignKeys, ht'.baselineForeignKeys,
        hfull.baselineForeignKeys, hown.baselineForeignKeys] at hkeys
      intro key hkey
      have hiff := Finset.filter_inj'.mp hkeys hkey
      rw [Bool.not_eq_true', Bool.not_eq_true'] at hiff
      exact Bool.eq_iff_iff.mpr (by simpa using not_congr hiff)
    · by_contra hneither
      push Not at hneither
      obtain ⟨hnone, hnew⟩ := hneither
      have hrecord : s.evidenceRecord .unknownObjectState .chain ∉ s.evidence.records :=
        fun hmem => hnew (taint_of_recorded hmem)
      have hfullTaint : s.taintUnmodeled full = s.taint .unknownObjectState .chain :=
        if_pos (unmodeled_iff.mpr hunmodeled)
      have hownTaint : s.taintUnmodeled own = s := if_neg fun hany => by
        obtain ⟨id, hid, habsent, hunknown⟩ := unmodeled_iff.mp hany
        exact absurd hunknown (by simp [hnone id hid habsent])
      have hleft : s.evidenceRecord .unknownObjectState .chain ∈ t.evidence.records := by
        rw [(@evidence_of_beyond _ _ .unknownObjectState .chain hfull.beyond).1]
        change _ ∈ (s.taintUnmodeled full).evidence.records
        rw [hfullTaint]
        exact mem_taint_evidence.mpr (Or.inr rfl)
      have hright : t'.evidence = s.evidence := by
        rw [(@evidence_of_beyond _ _ .unknownObjectState .chain hown.beyond).1]
        change (s.taintUnmodeled own).evidence = s.evidence
        rw [hownTaint]
      have hsame := (@evidence_of_beyond _ _ .unknownObjectState .chain h.beyond).1
      unfold AnalysisState.taintIncomplete at hsame
      split at hsame
      · have hmem : s.evidenceRecord .unknownObjectState .chain ∈
            (t.taint .catalogCoverageIncomplete .chain).evidence.records :=
          mem_taint_evidence.mpr (Or.inl hleft)
        rw [hsame, mem_taint_evidence, hright] at hmem
        rcases hmem with hmem | heq
        · exact hrecord hmem
        · have hcode : EvidenceCode.unknownObjectState = .catalogCoverageIncomplete :=
            congrArg EvidenceRecord.code heq
          cases hcode
      · rw [hsame, hright] at hleft
        exact hrecord hleft
  · intro h
    rw [taintUnmodeled_eq hwithin h] at hfull
    have hcatalog : t.catalog = t'.catalog := by
      rw [hfullCatalog, hownCatalog, Catalog.without_congr h.sweeps]
    refine SameState.taintIncomplete (hfull.sameState hown hcatalog ?_ rfl rfl rfl ?_ rfl)
      incomplete
    · funext id
      have hleft := lookup_foldl_dropped full.droppedRelations s.relations id
      have hright := lookup_foldl_dropped own.droppedRelations s.relations id
      refine hleft.trans (Eq.trans ?_ hright.symm)
      by_cases hid : id ∈ full.droppedRelations
      · by_cases hother : id ∈ own.droppedRelations
        · rw [if_pos hid, if_pos hother]
        · rw [if_pos hid, if_neg hother, h.relations id hid hother]
      · rw [if_neg hid, if_neg fun hother => hid (hwithin hother)]
    · refine Finset.filter_congr fun key hkey => ?_
      rw [h.foreignKeys key hkey]

end Compare

section Closures

variable {s : AnalysisState} {dropTable : DropTable} {present : List ObjectRef}

/-- The drop comes to its cascade: these of the listed tables are present, and none is
unknown. -/
structure DropsPresent (s : AnalysisState) (dropTable : DropTable) (present : List ObjectRef) :
    Prop where
  notMembers : (dropTable.ids.findSome? fun r =>
    s.extensionMemberDropConflict .relation r "table") = none
  scanned : s.scanDropTargets dropTable.ifExists dropTable.ids [] false = .ok (present, false)
  nonempty : present ≠ []

/-- The closure that the statement computes itself. -/
def ownClosure (s : AnalysisState) (present : List ObjectRef) : CascadeResult :=
  s.cascadeForRelations ((sortTargets present).map (·.id))

/-- The closure goes beyond what the baseline can tell of. -/
def CascadeBlocked (s : AnalysisState) (present : List ObjectRef) (closure : CascadeResult) :
    Prop :=
  s.closureTouchesBaseline (((sortTargets present).map (·.id)).map s.graph.resolveRename).dedup
    closure = true ∧ s.baselineHasCoverage .dependencies = false

theorem scanDropTargets_subset {ifExists unknown : Bool} {ids acc : List ObjectRef} {b : Bool}
    (h : s.scanDropTargets ifExists ids acc unknown = .ok (present, b)) :
    ∀ r ∈ present, r ∈ acc ∨ r ∈ ids := by
  induction ids generalizing acc unknown with
  | nil =>
    simp only [scanDropTargets, Except.ok.injEq, Prod.mk.injEq] at h
    rw [h.1]
    exact fun r hr => Or.inl hr
  | cons id ids ih =>
    intro r hr
    have hskip {acc : List ObjectRef} (hin : r ∈ acc ∨ r ∈ ids) : r ∈ acc ∨ r ∈ id :: ids :=
      hin.imp_right (List.mem_cons_of_mem id)
    rw [scanDropTargets] at h
    split at h
    · rcases ih h r hr with hacc | hids
      · rcases List.mem_append.mp hacc with hold | hnew
        · exact Or.inl hold
        · exact Or.inr (List.mem_singleton.mp hnew ▸ List.mem_cons_self)
      · exact Or.inr (List.mem_cons_of_mem id hids)
    · cases h
    · split at h
      · exact hskip (ih h r hr)
      · cases h
    · split at h
      · exact hskip (ih h r hr)
      · cases h
    · split at h
      · exact hskip (ih h r hr)
      · cases h

/-- A cascade from fewer relations reaches no more. -/
theorem CascadeReachesAny.mono {ids ids' : List ObjectId} (h : ids ⊆ ids') {z : ObjectId}
    (hz : s.CascadeReachesAny ids z) : s.CascadeReachesAny ids' z := by
  obtain ⟨id, hid, hreaches⟩ := hz
  exact ⟨id, h hid, hreaches⟩

theorem ownClosure_within (h : s.DropsPresent dropTable present) :
    (s.ownClosure present).droppedRelations ⊆
        (s.cascadeForRelations (dropTable.ids.map (·.id))).droppedRelations ∧
      (s.ownClosure present).droppedConstraints ⊆
        (s.cascadeForRelations (dropTable.ids.map (·.id))).droppedConstraints := by
  have hids : (sortTargets present).map (·.id) ⊆ dropTable.ids.map (·.id) := by
    intro id hid
    obtain ⟨r, hr, rfl⟩ := List.mem_map.mp (mem_sortTargets_ids.mp hid)
    exact List.mem_map_of_mem ((scanDropTargets_subset h.scanned r hr).resolve_left
      List.not_mem_nil)
  constructor
  · intro id hid
    exact (mem_cascade_droppedRelations _).mpr
      (((mem_cascade_droppedRelations _).mp hid).mono hids)
  · intro key hkey
    obtain ⟨e, he, hcurrent, hname, hreaches, hdependent⟩ :=
      (mem_cascade_droppedConstraints _).mp hkey
    exact (mem_cascade_droppedConstraints _).mpr
      ⟨e, he, hcurrent, hname, hreaches.mono hids, hdependent⟩

theorem CascadeBlocked.mono {own full : CascadeResult}
    (hrelations : own.droppedRelations ⊆ full.droppedRelations)
    (hconstraints : own.droppedConstraints ⊆ full.droppedConstraints)
    (h : s.CascadeBlocked present own) : s.CascadeBlocked present full := by
  obtain ⟨htouches, hcoverage⟩ := h
  refine ⟨?_, hcoverage⟩
  unfold closureTouchesBaseline at htouches ⊢
  rw [Bool.or_eq_true, List.any_eq_true, List.any_eq_true] at htouches ⊢
  rcases htouches with ⟨id, hid, hknown⟩ | ⟨key, hkey, hknown⟩
  · exact Or.inl ⟨id, hrelations hid, hknown⟩
  · exact Or.inr ⟨key, hconstraints hkey, hknown⟩

/-- What the statement does once it comes to its cascade. -/
theorem applyDropTable_cascade (h : s.DropsPresent dropTable present)
    (hcascade : dropTable.cascade = true) (precomputed : Option CascadeResult) :
    (s.CascadeBlocked present (precomputed.getD (s.ownClosure present)) →
      s.applyDropTable dropTable precomputed = s.unresolved .catalogCoverageIncomplete) ∧
    (¬s.CascadeBlocked present (precomputed.getD (s.ownClosure present)) →
      s.applyDropTable dropTable precomputed = (.applied,
        (s.dropTableCascade s.graph.resolveRename
          (precomputed.getD (s.ownClosure present))).taintIncomplete
            (s.incompleteClosure ((sortTargets present).map (·.id))))) := by
  obtain ⟨hmembers, hscan, hpresent⟩ := h
  obtain ⟨r, rest, rfl⟩ := List.exists_cons_of_ne_nil hpresent
  have hids : dropTable.ids.isEmpty = false := by
    cases hids : dropTable.ids with
    | nil => simp [hids, scanDropTargets] at hscan
    | cons _ _ => rfl
  have hreached : s.applyDropTable dropTable precomputed =
      s.dropPresentTables ((sortTargets (r :: rest)).map (·.id))
        (", ".intercalate (dropTable.ids.map (·.display))) true precomputed := by
    simp only [applyDropTable, hids, hmembers, hscan, hcascade, Bool.false_eq_true, if_false]
  have hblocked (closure : CascadeResult) : s.CascadeBlocked (r :: rest) closure ↔
      (s.closureTouchesBaseline (((sortTargets (r :: rest)).map (·.id)).map
        s.graph.resolveRename).dedup closure && !s.baselineHasCoverage .dependencies) = true := by
    rw [Bool.and_eq_true, Bool.not_eq_true']
    exact Iff.rfl
  rw [hreached, hblocked]
  exact ⟨fun h => if_pos h, fun h => if_neg h⟩

/-- Without a cascade to come to, the closure is not looked at. -/
theorem applyDropTable_stops (h : ∀ present, ¬s.DropsPresent dropTable present)
    (precomputed : Option CascadeResult) :
    s.applyDropTable dropTable precomputed = s.applyDropTable dropTable none := by
  unfold applyDropTable
  split
  · rfl
  · cases hmembers : dropTable.ids.findSome? fun r =>
        s.extensionMemberDropConflict .relation r "table" with
    | some result => rfl
    | none =>
      cases hscan : s.scanDropTargets dropTable.ifExists dropTable.ids [] false with
      | error stop => cases stop <;> rfl
      | ok scanned =>
        obtain ⟨present, unknown⟩ := scanned
        cases unknown with
        | true => rfl
        | false =>
          cases present with
          | nil => rfl
          | cons r rest => exact absurd ⟨hmembers, hscan, nofun⟩ (h (r :: rest))

/-- Two applications of one statement end alike. -/
structure EndAlike (x y : MutationResult × AnalysisState) : Prop where
  result : x.1 = y.1
  state : SameState x.2 y.2

/-- A cascading drop with the closure over every listed table ends as the one that computes
its own closure exactly if it comes to no cascade, if its own closure is refused already,
or if the larger closure is not refused and adds nothing. -/
theorem precomputedCascade_agrees_iff (hlists : s.ListsQualified)
    (hcascade : dropTable.cascade = true) :
    let full := s.cascadeForRelations (dropTable.ids.map (·.id))
    EndAlike (s.applyDropTable dropTable (some full)) (s.applyDropTable dropTable none) ↔
      ∀ present, s.DropsPresent dropTable present →
        s.CascadeBlocked present (s.ownClosure present) ∨
          ¬s.CascadeBlocked present full ∧ s.AddsNothing full (s.ownClosure present) := by
  intro full
  by_cases hreached : ∃ present, s.DropsPresent dropTable present
  · obtain ⟨present, hpresent⟩ := hreached
    have honly : ∀ other, s.DropsPresent dropTable other → other = present := by
      intro other hother
      have hsame := hother.scanned.symm.trans hpresent.scanned
      exact congrArg Prod.fst (Except.ok.inj hsame)
    obtain ⟨hrelations, hconstraints⟩ := ownClosure_within hpresent
    obtain ⟨hfullBlocked, hfullRuns⟩ := applyDropTable_cascade hpresent hcascade (some full)
    obtain ⟨hownBlocked, hownRuns⟩ := applyDropTable_cascade hpresent hcascade none
    rw [Option.getD_some] at hfullBlocked hfullRuns
    rw [Option.getD_none] at hownBlocked hownRuns
    have hcollapse : (∀ other, s.DropsPresent dropTable other →
        s.CascadeBlocked other (s.ownClosure other) ∨
          ¬s.CascadeBlocked other full ∧ s.AddsNothing full (s.ownClosure other)) ↔
        (s.CascadeBlocked present (s.ownClosure present) ∨
          ¬s.CascadeBlocked present full ∧ s.AddsNothing full (s.ownClosure present)) := by
      constructor
      · exact fun h => h present hpresent
      · rintro h other hother
        rwa [honly other hother]
    rw [hcollapse]
    by_cases hown : s.CascadeBlocked present (s.ownClosure present)
    · rw [hfullBlocked (hown.mono hrelations hconstraints), hownBlocked hown]
      exact ⟨fun _ => Or.inl hown, fun _ => ⟨rfl, .refl _⟩⟩
    · rw [hownRuns hown, or_iff_right hown]
      by_cases hfull : s.CascadeBlocked present full
      · rw [hfullBlocked hfull]
        constructor
        · intro h
          exact absurd h.result nofun
        · exact fun h => absurd hfull h.1
      · rw [hfullRuns hfull, and_iff_right hfull]
        have hsame := dropTableCascade_sameState_iff hlists hrelations
          (s.incompleteClosure ((sortTargets present).map (·.id)))
        exact ⟨fun h => hsame.mp h.state, fun h => ⟨rfl, hsame.mpr h⟩⟩
  · rw [applyDropTable_stops fun present h => hreached ⟨present, h⟩]
    exact ⟨fun _ present h => absurd ⟨present, h⟩ hreached, fun _ => ⟨rfl, .refl _⟩⟩

end Closures

section Samples

def itemsId : ObjectId := ⟨"public", "items"⟩

def archiveId : ObjectId := ⟨"public", "archive"⟩

def archive2024Id : ObjectId := ⟨"public", "archive_2024"⟩

/-- Two tables of a covered schema, under these aliases. -/
def itemsState (edges : List DependencyEdge) : AnalysisState :=
  let table (id : ObjectId) : RelationOverlay :=
    .present (.new id ⟨"", "postgres"⟩ 0 none .table .permanent 0)
  { baselineAvailable := true
    baselineCoverage := { families := {.relations, .dependencies} }
    relations := ((∅ : KeyedMap ObjectId RelationOverlay).insert itemsId
      (table itemsId)).insert archive2024Id (table archive2024Id)
    graph := .ofEdges edges }

/-- The alias that a rename of `archive` to `archive_2024` leaves. -/
def archiveAlias : DependencyEdge :=
  { dependent := archiveId, referenced := archive2024Id, kind := .renameTo }

/-- `DROP TABLE IF EXISTS archive, items CASCADE` -/
def dropArchiveItems : DropTable :=
  { ids := [⟨archiveId, false⟩, ⟨itemsId, false⟩], ifExists := true, cascade := true }

/-- The closure of the engine drops the table behind the alias, and gives a table that
does not exist a tombstone. -/
theorem dropArchiveItems_disagrees :
    ((itemsState [archiveAlias]).applyDropTable dropArchiveItems none).1 = .applied ∧
    ¬EndAlike ((itemsState [archiveAlias]).applyDropTable dropArchiveItems
        (some ((itemsState [archiveAlias]).cascadeForRelations [archiveId, itemsId])))
      ((itemsState [archiveAlias]).applyDropTable dropArchiveItems none) ∧
    ((itemsState []).applyDropTable dropArchiveItems none).1 = .applied ∧
    ¬EndAlike ((itemsState []).applyDropTable dropArchiveItems
        (some ((itemsState []).cascadeForRelations [archiveId, itemsId])))
      ((itemsState []).applyDropTable dropArchiveItems none) := by
  refine ⟨by decide +kernel, fun h => ?_, by decide +kernel, fun h => ?_⟩
  · have hsame := congrFun h.state.relations archive2024Id
    have hleft : ((itemsState [archiveAlias]).applyDropTable dropArchiveItems
        (some ((itemsState [archiveAlias]).cascadeForRelations
          [archiveId, itemsId]))).2.relations.lookup archive2024Id = some .dropped := by
      decide +kernel
    have hright : ((itemsState [archiveAlias]).applyDropTable dropArchiveItems
        none).2.relations.lookup archive2024Id ≠ some .dropped := by decide +kernel
    exact hright (hsame.symm.trans hleft)
  · have hsame := congrFun h.state.relations archiveId
    have hleft : ((itemsState []).applyDropTable dropArchiveItems
        (some ((itemsState []).cascadeForRelations
          [archiveId, itemsId]))).2.relations.lookup archiveId = some .dropped := by
      decide +kernel
    have hright : ((itemsState []).applyDropTable dropArchiveItems
        none).2.relations.lookup archiveId = none := by decide +kernel
    rw [hleft, hright] at hsame
    cases hsame

def itemsIndex : DependencyEdge :=
  ⟨⟨"public", "items_pkey"⟩, itemsId, .indexOnRelation
    { method := some "btree", keys := [], included := [], expressionKeys := 0, unique := true,
      nullsNotDistinct := some false, predicate := .none, unestablished := false, valid := true,
      ready := true, live := true } ["id"] true false true true⟩

def itemsSequence : SequenceState :=
  { id := ⟨"public", "items_id_seq"⟩, owner := ⟨"", "postgres"⟩, ownedBy := some (itemsId, "id"),
    kind := .serialLike, parameters := {}, runtime := .fresh 1, runtimeExact := true,
    generation := 0 }

/-- The archive was dropped before, and the items have an index and a sequence. -/
def archiveDropped : AnalysisState :=
  { itemsState [itemsIndex] with
    relations := (itemsState []).relations.insert archiveId .dropped
    sequences := AList.singleton itemsSequence.id (.present itemsSequence)
    baselineRelations := {archiveId, itemsId} }

theorem archiveDropped_addsNothing :
    archiveDropped.AddsNothing (archiveDropped.cascadeForRelations [archiveId, itemsId])
      (archiveDropped.ownClosure [⟨itemsId, false⟩]) := by
  have hfull : archiveDropped.cascadeForRelations [archiveId, itemsId] =
      { droppedRelations := [archiveId, itemsId], droppedIndexes := [itemsIndex.dependent] } := rfl
  have hown : archiveDropped.ownClosure [⟨itemsId, false⟩] =
      { droppedRelations := [itemsId], droppedIndexes := [itemsIndex.dependent] } := rfl
  have hbesides (id : ObjectId) (hid : id ∈ [archiveId, itemsId]) (hother : id ∉ [itemsId]) :
      id = archiveId := by
    simpa using (List.mem_cons.mp hid).resolve_right hother
  rw [hfull, hown]
  refine ⟨fun id hid hother => ?_, ⟨fun id relation hlookup => ?_, fun id sequence hlookup => ?_,
    fun _ _ h => ?_, fun _ _ h => ?_, fun _ h => ?_, fun _ _ h => ?_, by decide +kernel⟩,
    by decide +kernel, fun hunknown => ?_⟩
  · rw [hbesides id hid hother]
    decide +kernel
  · -- the archive is not present, so the closures agree on what is
    have hnone : archiveDropped.catalog.relations archiveId = none := by rfl
    have hid : id ≠ archiveId := by
      rintro rfl
      cases hnone.symm.trans hlookup
    simp [tableSweep, hid]
  · by_cases hid : id = itemsSequence.id
    · rw [hid]
      decide +kernel
    · have hnone : archiveDropped.sequences.lookup id = none :=
        AList.lookup_eq_none.mpr fun hmem => hid (List.mem_singleton.mp hmem)
      simp [catalog, presentIn, hnone] at hlookup
  · cases h
  · cases h
  · cases h
  · cases h
  · obtain ⟨id, hid, -, hbaseline⟩ := hunknown
    have hknown : ∀ id ∈ [archiveId, itemsId], archiveDropped.baselineRelationIsKnown id = true := by
      decide +kernel
    rw [hknown id hid] at hbaseline
    cases hbaseline

/-- A table that was dropped before, and that the baseline knows, adds nothing. -/
theorem dropItems_agrees : EndAlike (archiveDropped.applyDropTable dropArchiveItems
      (some (archiveDropped.cascadeForRelations (dropArchiveItems.ids.map (·.id)))))
    (archiveDropped.applyDropTable dropArchiveItems none) := by
  refine (precomputedCascade_agrees_iff (fun name objects h => by cases h) rfl).mpr
    fun present hpresent => Or.inr ⟨?_, ?_⟩
  · rintro ⟨-, hcoverage⟩
    revert hcoverage
    decide +kernel
  · have hscan : archiveDropped.scanDropTargets dropArchiveItems.ifExists dropArchiveItems.ids []
        false = .ok ([⟨itemsId, false⟩], false) := by rfl
    obtain rfl := congrArg Prod.fst (Except.ok.inj (hscan.symm.trans hpresent.scanned))
    exact archiveDropped_addsNothing

end Samples

end AnalysisState

end SafeMigrate
