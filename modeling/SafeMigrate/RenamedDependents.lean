import SafeMigrate.ColumnRenames

/-! What `DROP COLUMN` finds after a rename: the scan reads the edges, the constraint
kinds and the statistics, and comes to what it came to under the old name. -/

namespace SafeMigrate

open Command AnalysisState DependencyEdge

def Overlay.generation : RelationOverlay → Option Nat
  | .present relation => some relation.generation
  | .dropped => none

theorem AnalysisState.lookup_of_presentRelation {s : AnalysisState} {id : ObjectId}
    {relation : RelationState} (h : s.presentRelation id = some relation) :
    s.relations.lookup id = some (.present relation) := by
  unfold presentRelation at h
  split at h
  · rename_i found hfound
    rw [hfound, Option.some.inj h]
  · cases h

/-- Besides the edges, what the scan of the edges reads. -/
structure SameScanFrame (s t : AnalysisState) : Prop where
  generations : ∀ id, (t.relations.lookup id).map Overlay.generation =
    (s.relations.lookup id).map Overlay.generation
  triggers : t.triggers = s.triggers
  kinds : ∀ key, (t.constraints.lookup key).map (·.kind) = (s.constraints.lookup key).map (·.kind)

instance : Std.Refl SameScanFrame := ⟨fun _ => ⟨fun _ => rfl, rfl, fun _ => rfl⟩⟩

instance : IsTrans AnalysisState SameScanFrame :=
  ⟨fun _ _ _ h h' => ⟨fun id => (h'.generations id).trans (h.generations id),
    h'.triggers.trans h.triggers, fun key => (h'.kinds key).trans (h.kinds key)⟩⟩

namespace SameScanFrame

variable {s t : AnalysisState} {oldName newName : String}

theorem of_eq (hrelations : t.relations = s.relations) (htriggers : t.triggers = s.triggers)
    (hconstraints : t.constraints = s.constraints) : SameScanFrame s t :=
  ⟨fun id => by rw [hrelations], htriggers, fun key => by rw [hconstraints]⟩

theorem pushUndo (s : AnalysisState) (change : StateChange) : SameScanFrame s (s.pushUndo change) :=
  .of_eq (s.pushUndo_relations change) (s.pushUndo_triggers change) (s.pushUndo_constraints change)

theorem updateRelation (s : AnalysisState) (id : ObjectId) {f : RelationState → RelationState}
    (hf : ∀ r, (f r).generation = r.generation) : SameScanFrame s (s.updateRelation id f) := by
  have hmodify (s : AnalysisState) : SameScanFrame s (s.modifyRelation id f) := by
    unfold modifyRelation
    cases hpresent : s.presentRelation id with
    | none => exact Std.Refl.refl s
    | some relation =>
      refine ⟨fun k => ?_, rfl, fun _ => rfl⟩
      by_cases hk : k = id
      · rw [hk, lookup_of_presentRelation hpresent]
        show Option.map _ ((s.relations.insert id _).lookup id) = _
        rw [AList.lookup_insert]
        exact congrArg (fun n => some (some n)) (hf relation)
      · exact congrArg (Option.map Overlay.generation) (AList.lookup_insert_ne hk)
  exact IsTrans.trans _ _ _ (pushUndo s _) (hmodify _)

theorem renameInCheck (text : SqlText) (table : ObjectId) (s : AnalysisState)
    (check : String × String) :
    SameScanFrame s (renameInCheck text table oldName newName s check) := by
  have hsnapshot : SameScanFrame s (s.snapshotConstraint table check.1) := pushUndo s _
  unfold AnalysisState.renameInCheck
  dsimp only
  split
  · rename_i constraint hconstraint
    refine IsTrans.trans _ _ _ hsnapshot ⟨fun _ => rfl, rfl, fun key => ?_⟩
    by_cases hkey : key = (table, check.1)
    · rw [hkey, hconstraint]
      simp only [setConstraints, AList.lookup_insert, Option.map_some]
    · exact congrArg (Option.map _) (AList.lookup_insert_ne hkey)
  · exact hsnapshot

theorem renameSequenceOwner (s : AnalysisState) (sequence : ObjectId) :
    SameScanFrame s (s.renameSequenceOwner newName sequence) := by
  have hsnapshot : SameScanFrame s (s.snapshotSequence sequence) := pushUndo s _
  unfold AnalysisState.renameSequenceOwner
  dsimp only
  split
  · exact IsTrans.trans _ _ _ hsnapshot (of_eq rfl rfl rfl)
  · exact hsnapshot

theorem setGraph (s : AnalysisState) (g : DependencyGraph) : SameScanFrame s (s.setGraph g) :=
  of_eq rfl rfl rfl

theorem updatePublicationColumns (s : AnalysisState) (update : String × List Nat) :
    SameScanFrame s (updatePublicationColumns oldName newName s update) := by
  have hsnapshot : SameScanFrame s (s.snapshotPublication update.1) := pushUndo s _
  unfold AnalysisState.updatePublicationColumns
  dsimp only
  split
  · split
    · exact IsTrans.trans _ _ _ hsnapshot (of_eq rfl rfl rfl)
    · exact hsnapshot
  · exact hsnapshot

theorem generation_rename (text : SqlText) (relation : RelationState) :
    (relation.applyColumnAction text (.rename oldName newName)).generation = relation.generation := by
  show (relation.renameColumn text oldName newName).generation = _
  unfold RelationState.renameColumn
  dsimp only
  split <;> rfl

theorem renameRelation (text : SqlText) (s : AnalysisState) (id : ObjectId) :
    SameScanFrame s (s.updateRelation id fun relation =>
      relation.applyColumnAction text (.rename oldName newName)) :=
  updateRelation s id (generation_rename text)

end SameScanFrame

section Sweeps

variable {R : AnalysisState → AnalysisState → Prop} [Std.Refl R] [IsTrans AnalysisState R]
  {oldName newName : String}

/-- What every single write of the sweeps keeps, the sweeps keep. -/
theorem renameRelationColumnMetadata_keeps (text : SqlText) (table : ObjectId)
    (hrelation : ∀ s : AnalysisState, R s (s.updateRelation table fun relation =>
      relation.applyColumnAction text (.rename oldName newName)))
    (hcheck : ∀ s check, R s (renameInCheck text table oldName newName s check))
    (howner : ∀ s sequence, R s (renameSequenceOwner newName s sequence))
    (hsnapshot : ∀ s : AnalysisState, R s s.snapshotGraphFull)
    (hgraph : ∀ (s : AnalysisState) g, R s (s.setGraph g)) (s : AnalysisState) :
    R s (s.renameRelationColumnMetadata text table oldName newName) := by
  unfold renameRelationColumnMetadata
  dsimp only
  have hchecks (checks : List (String × String)) (s : AnalysisState) :
      R s (checks.foldl (renameInCheck text table oldName newName) s) :=
    keeps_foldl checks (fun check _ s => hcheck s check) s
  have hsequences (sequences : List ObjectId) (s : AnalysisState) :
      R s (sequences.foldl (renameOwnedSequence oldName newName) s) :=
    keeps_foldl sequences (fun sequence _ s =>
      IsTrans.trans _ _ _ (howner s sequence) (hgraph _ _)) s
  refine IsTrans.trans _ _ _ (hrelation s) ?_
  generalize s.updateRelation table _ = renamed
  refine IsTrans.trans _ _ _ (hchecks (renamed.checkSources table) renamed) ?_
  generalize List.foldl _ renamed _ = checked
  exact IsTrans.trans _ _ _ (hsnapshot checked) (IsTrans.trans _ _ _ (hgraph _ _) (hsequences _ _))

theorem renameEverywhere_keeps (text : ColumnText) (alter : AlterColumn)
    (hrelation : ∀ s : AnalysisState, R s (s.updateRelation alter.id.id fun relation =>
      relation.applyColumnAction text.toSqlText (.rename oldName newName)))
    (hcheck : ∀ s check, R s (renameInCheck text.toSqlText alter.id.id oldName newName s check))
    (howner : ∀ s sequence, R s (renameSequenceOwner newName s sequence))
    (hpublication : ∀ s update, R s (updatePublicationColumns oldName newName s update))
    (hsnapshot : ∀ s : AnalysisState, R s s.snapshotGraphFull)
    (hgraph : ∀ (s : AnalysisState) g, R s (s.setGraph g)) (sequences : List ObjectId)
    (s : AnalysisState) :
    R (s.updateRelation alter.id.id fun relation =>
        relation.applyColumnAction text.toSqlText (.rename oldName newName))
      (alter.renameEverywhere text oldName newName [] sequences s) := by
  unfold AlterColumn.renameEverywhere
  dsimp only [List.foldl_nil]
  generalize s.updateRelation alter.id.id _ = renamed
  have hmetadata : R renamed
      (renamed.renameRelationColumnMetadata text.toSqlText alter.id.id oldName newName) :=
    renameRelationColumnMetadata_keeps text.toSqlText alter.id.id hrelation hcheck howner hsnapshot
      hgraph renamed
  have hupdates (updates : List (String × List Nat)) (s : AnalysisState) :
      R s (updates.foldl (updatePublicationColumns oldName newName) s) :=
    keeps_foldl updates (fun update _ s => hpublication s update) s
  have hsequences (s : AnalysisState) : R s (sequences.foldl (fun s sequence =>
      let s := s.renameSequenceOwner newName sequence
      let s := s.snapshotGraphFull
      s.setGraph (s.graph.renameOwnedSequenceColumn sequence oldName newName)) s) :=
    keeps_foldl sequences (fun sequence _ s => IsTrans.trans _ _ _ (howner s sequence)
      (IsTrans.trans _ _ _ (hsnapshot _) (hgraph _ _))) s
  refine IsTrans.trans _ _ _ hmetadata ?_
  generalize renamed.renameRelationColumnMetadata _ _ _ _ = below
  refine IsTrans.trans _ _ _ (hupdates (below.columnPublicationUpdates alter.id.id oldName) below) ?_
  generalize List.foldl _ below _ = listed
  exact IsTrans.trans _ _ _ (hsnapshot listed) (IsTrans.trans _ _ _ (hgraph _ _) (hsequences _))

theorem SameScanFrame.renameEverywhere (text : ColumnText) (alter : AlterColumn)
    (sequences : List ObjectId) (s : AnalysisState) :
    SameScanFrame s (alter.renameEverywhere text oldName newName [] sequences s) :=
  IsTrans.trans _ _ _ (renameRelation text.toSqlText s alter.id.id)
    (renameEverywhere_keeps text alter (fun s => renameRelation text.toSqlText s _)
      (fun s check => renameInCheck text.toSqlText _ s check) renameSequenceOwner
      updatePublicationColumns (fun s => pushUndo s _) setGraph sequences s)

/-- The relation with the new column is there as it was. -/
structure KeepsNamed (table : ObjectId) (newName : String) (s t : AnalysisState) : Prop where
  present : ∀ relation : RelationState, relation.hasColumn newName = true →
    s.presentRelation table = some relation → t.presentRelation table = some relation

instance (table : ObjectId) : Std.Refl (KeepsNamed table newName) := ⟨fun _ => ⟨fun _ _ h => h⟩⟩

instance (table : ObjectId) : IsTrans AnalysisState (KeepsNamed table newName) :=
  ⟨fun _ _ _ h h' => ⟨fun relation hnew hs => h'.present relation hnew (h.present relation hnew hs)⟩⟩

namespace KeepsNamed

variable {table : ObjectId} {s t : AnalysisState}

theorem of_relations (h : t.relations = s.relations) : KeepsNamed table newName s t :=
  ⟨fun _ _ hs => (presentRelation_congr (by rw [h])).trans hs⟩

theorem pushUndo (s : AnalysisState) (change : StateChange) :
    KeepsNamed table newName s (s.pushUndo change) :=
  of_relations (s.pushUndo_relations change)

theorem renameRelation (text : SqlText) (s : AnalysisState) :
    KeepsNamed table newName s (s.updateRelation table fun relation =>
      relation.applyColumnAction text (.rename oldName newName)) := by
  refine ⟨fun relation hnew hs => ?_⟩
  -- the column is there already, so the rename does nothing
  have hsame : relation.applyColumnAction text (.rename oldName newName) = relation := by
    show relation.renameColumn text oldName newName = relation
    unfold RelationState.renameColumn
    simp [hnew]
  have hsnapshot : (s.snapshotRelation table).presentRelation table = some relation :=
    (presentRelation_pushUndo s _ table).trans hs
  rw [AnalysisState.updateRelation, presentRelation_modifyRelation, if_pos rfl, hsnapshot,
    Option.map_some, hsame]

theorem renameInCheck (text : SqlText) (s : AnalysisState) (check : String × String) :
    KeepsNamed table newName s (renameInCheck text table oldName newName s check) := by
  have hsnapshot : KeepsNamed table newName s (s.snapshotConstraint table check.1) := pushUndo s _
  unfold AnalysisState.renameInCheck
  dsimp only
  split
  · exact IsTrans.trans _ _ _ hsnapshot (of_relations rfl)
  · exact hsnapshot

theorem renameSequenceOwner (s : AnalysisState) (sequence : ObjectId) :
    KeepsNamed table newName s (s.renameSequenceOwner newName sequence) := by
  have hsnapshot : KeepsNamed table newName s (s.snapshotSequence sequence) := pushUndo s _
  unfold AnalysisState.renameSequenceOwner
  dsimp only
  split
  · exact IsTrans.trans _ _ _ hsnapshot (of_relations rfl)
  · exact hsnapshot

theorem updatePublicationColumns (s : AnalysisState) (update : String × List Nat) :
    KeepsNamed table newName s (updatePublicationColumns oldName newName s update) := by
  have hsnapshot : KeepsNamed table newName s (s.snapshotPublication update.1) := pushUndo s _
  unfold AnalysisState.updatePublicationColumns
  dsimp only
  split
  · split
    · exact IsTrans.trans _ _ _ hsnapshot (of_relations rfl)
    · exact hsnapshot
  · exact hsnapshot

end KeepsNamed

theorem hasColumn_renameColumn (text : SqlText) {relation : RelationState}
    (hold : relation.hasColumn oldName = true) (hnew : relation.hasColumn newName = false) :
    (relation.renameColumn text oldName newName).hasColumn newName = true := by
  unfold RelationState.renameColumn
  simp only [hold, hnew, Bool.not_true, Bool.or_self, Bool.false_eq_true, if_false]
  unfold RelationState.hasColumn at hold ⊢
  obtain ⟨column, hcolumn, hname⟩ := List.any_eq_true.mp hold
  dsimp only
  generalize relation.columns = columns at hcolumn
  induction columns with
  | nil => cases hcolumn
  | cons head rest ih =>
    unfold updateFirst
    by_cases hhead : (head.name == oldName) = true
    · simp [hhead]
    · have hrest : column ∈ rest := by
        rcases List.mem_cons.mp hcolumn with rfl | hrest
        · exact absurd hname hhead
        · exact hrest
      simp [hhead, ih hrest]

/-- The relation after the rename, which happens once. -/
theorem presentRelation_renameEverywhere (text : ColumnText) (alter : AlterColumn)
    (sequences : List ObjectId) {s : AnalysisState} {relation : RelationState}
    (hrelation : s.presentRelation alter.id.id = some relation)
    (hold : relation.hasColumn oldName = true) (hnew : relation.hasColumn newName = false) :
    (alter.renameEverywhere text oldName newName [] sequences s).presentRelation alter.id.id =
      some (relation.renameColumn text.toSqlText oldName newName) := by
  have hkeeps : KeepsNamed alter.id.id newName
      (s.updateRelation alter.id.id fun relation =>
        relation.applyColumnAction text.toSqlText (.rename oldName newName))
      (alter.renameEverywhere text oldName newName [] sequences s) :=
    renameEverywhere_keeps text alter (KeepsNamed.renameRelation text.toSqlText)
      (KeepsNamed.renameInCheck text.toSqlText) KeepsNamed.renameSequenceOwner
      KeepsNamed.updatePublicationColumns (fun s => KeepsNamed.pushUndo s _)
      (fun _ _ => .of_relations rfl) sequences s
  refine hkeeps.present _ (hasColumn_renameColumn text.toSqlText hold hnew) ?_
  have hsnapshot : (s.snapshotRelation alter.id.id).presentRelation alter.id.id = some relation :=
    (presentRelation_pushUndo s _ alter.id.id).trans hrelation
  rw [updateRelation, presentRelation_modifyRelation, if_pos rfl, hsnapshot]
  rfl

end Sweeps

end SafeMigrate
