import SafeMigrate.Aliases
import SafeMigrate.CreateTableWrites
import SafeMigrate.DropTable
import SafeMigrate.RelationRename

/-! What `CREATE TABLE`, `DROP TABLE` and relation renames do to names: the
relations that are present, and the rename aliases of the graph. -/

namespace SafeMigrate

open Command AnalysisState

namespace AnalysisState

theorem relationIsPresent_congr {s t : AnalysisState} {id : ObjectId}
    (h : t.relations.lookup id = s.relations.lookup id) :
    t.relationIsPresent id = s.relationIsPresent id := by
  rw [relationIsPresent, relationIsPresent, h]

end AnalysisState

@[simp] theorem AnalysisState.pushUndo_relationIsPresent (s : AnalysisState) (change : StateChange)
    (id : ObjectId) : (s.pushUndo change).relationIsPresent id = s.relationIsPresent id :=
  relationIsPresent_congr (by rw [pushUndo_relations])

/-! `CREATE TABLE` adds no alias, and one relation. -/

section Create

/-- Only the relation `id` may differ, and the aliases are the same. -/
structure SameAliases (id : ObjectId) (s t : AnalysisState) : Prop where
  relations : ∀ k, k ≠ id → t.relations.lookup k = s.relations.lookup k
  aliases : t.graph.aliases = s.graph.aliases

variable {id : ObjectId} {s t : AnalysisState}

theorem SameAliases.of_eq (hr : t.relations = s.relations) (hg : t.graph = s.graph) :
    SameAliases id s t := ⟨fun k _ => by rw [hr], by rw [hg]⟩

instance : KeepsEvidence (SameAliases id) where
  refl _ := .of_eq rfl rfl
  trans _ _ _ h h' :=
    ⟨fun k hk => (h'.relations k hk).trans (h.relations k hk), h'.aliases.trans h.aliases⟩
  taint s code scope := .of_eq (s.taint_relations code scope) (s.taint_graph code scope)

theorem SameAliases.setGraph {g : DependencyGraph} (h : SameAliases id s t)
    (hg : g.aliases = t.graph.aliases) : SameAliases id s (t.setGraph g) :=
  ⟨h.relations, hg.trans h.aliases⟩

theorem SameAliases.insert (h : SameAliases id s t) (overlay : RelationOverlay) :
    SameAliases id s (t.setRelations (t.relations.insert id overlay)) :=
  ⟨fun k hk => (AList.lookup_insert_ne hk).trans (h.relations k hk), h.aliases⟩

theorem SameAliases.modifyRelation (h : SameAliases id s t) (f : RelationState → RelationState) :
    SameAliases id s (t.modifyRelation id f) := by
  unfold AnalysisState.modifyRelation
  split
  · exact h.insert _
  · exact h

theorem sameAliases_pushUndo (s : AnalysisState) (change : StateChange) :
    SameAliases id s (s.pushUndo change) :=
  .of_eq (s.pushUndo_relations change) (s.pushUndo_graph change)

theorem sameAliases_putConstraint (s : AnalysisState) (constraint : ConstraintState) :
    SameAliases id s (s.putConstraint constraint) :=
  .of_eq (s.pushUndo_relations _) (s.pushUndo_graph _)

theorem sameAliases_bumpGeneration (s : AnalysisState) : SameAliases id s s.bumpGeneration :=
  .of_eq (s.pushUndo_relations _) (s.pushUndo_graph _)

theorem keepsTableWrites_sameAliases (parent : Option ObjectId) :
    KeepsTableWrites id parent (SameAliases id) where
  openTable s := IsTrans.trans _ _ _ (sameAliases_pushUndo s _) (sameAliases_bumpGeneration _)
  putRelation s relation := SameAliases.insert (Std.Refl.refl s) _
  modifyRelation s f := SameAliases.modifyRelation (Std.Refl.refl s) f
  listTrigger s _ := (sameAliases_pushUndo s _).modifyRelation _
  bumpGeneration s := sameAliases_bumpGeneration s
  addGraphEdge s _ h := (sameAliases_pushUndo s _).setGraph (DependencyGraph.aliases_addEdge h.1)
  addGraphEdges s _ h := (sameAliases_pushUndo s _).setGraph
    (DependencyGraph.aliases_addEdges fun edge hedge => (h edge hedge).1)
  addGraphEdgeFull s _ h :=
    (sameAliases_pushUndo s _).setGraph (DependencyGraph.aliases_addEdge h.1)
  putConstraint s constraint := sameAliases_putConstraint s constraint
  putConstraintEdges s writes h := by
    refine IsTrans.trans _ _ _ (sameAliases_pushUndo s _)
      (keeps_foldl writes (fun write hwrite s => ?_) _)
    exact (sameAliases_putConstraint s write.1).setGraph
      (DependencyGraph.aliases_addEdge (h write hwrite).1)
  putSequence s _ _ := IsTrans.trans _ _ _ (sameAliases_pushUndo s _)
    (.of_eq (pushUndo_relations _ _) (pushUndo_graph _ _))
  putTrigger s _ := .of_eq (s.pushUndo_relations _) (s.pushUndo_graph _)
  setIndexDefinition s _ f :=
    (sameAliases_pushUndo s _).setGraph (DependencyGraph.aliases_updateIndexDefinition _ f)

end Create

/-! `DROP TABLE` removes relations, and the aliases that touch them. -/

section Drop

theorem isLasting_isRenameTo : IsLasting DependencyKind.isRenameTo := by
  intro kind h
  cases kind <;> simp_all [DependencyKind.isRenameTo]

/-- Neither the relations nor the aliases differ. -/
abbrev SameNames (s t : AnalysisState) : Prop := SameEdges DependencyKind.isRenameTo s t

variable {s t : AnalysisState}

theorem SameEdges.aliases (h : SameNames s t) : t.graph.aliases = s.graph.aliases := h.edges

theorem DropsEdges.aliases {dropped : CascadeResult}
    (h : DropsEdges DependencyKind.isRenameTo s dropped t) :
    t.graph.aliases = s.graph.aliases.filter (s.aliasSurvives dropped) := h.edges

end Drop

/-! A rename moves one relation, and leaves aliases behind. -/

section Rename

open DependencyGraph

/-- Live relations stay, and new aliases start only at `sources`. -/
structure AliasesGrow (sources : List ObjectId) (s t : AnalysisState) : Prop where
  present : ∀ k, t.relationIsPresent k = s.relationIsPresent k
  keep : ∀ a b, s.graph.renameBySource a = some b → t.graph.renameBySource a = some b
  new : ∀ a, a ∉ sources → t.graph.renameBySource a = s.graph.renameBySource a

variable {sources : List ObjectId} {s t : AnalysisState}

instance : Std.Refl (AliasesGrow sources) where
  refl _ := ⟨fun _ => rfl, fun _ _ h => h, fun _ _ => rfl⟩

instance : IsTrans AnalysisState (AliasesGrow sources) where
  trans _ _ _ h h' :=
    ⟨fun k => (h'.present k).trans (h.present k), fun a b hab => h'.keep a b (h.keep a b hab),
      fun a ha => (h'.new a ha).trans (h.new a ha)⟩

theorem AliasesGrow.of_aliases (hr : ∀ k, t.relationIsPresent k = s.relationIsPresent k)
    (ha : t.graph.aliases = s.graph.aliases) : AliasesGrow sources s t :=
  ⟨hr, fun a b h => by rwa [renameBySource_congr ha],
    fun a _ => by rw [renameBySource_congr ha]⟩

theorem AliasesGrow.of_sameNames (h : SameNames s t) : AliasesGrow sources s t :=
  .of_aliases (fun _ => relationIsPresent_congr (by rw [h.relations])) h.aliases

theorem aliasesGrow_addAlias (s : AnalysisState) {oldId : ObjectId} (newId : ObjectId)
    (hold : oldId ∈ sources) : AliasesGrow sources s (s.addAlias oldId newId) := by
  refine ⟨fun _ => rfl, fun a b h => ?_, fun a ha => ?_⟩
  · simp [addAlias, setGraph, renameBySource_addAlias, h]
  · have hne : oldId ≠ a := fun h => ha (h ▸ hold)
    simp [addAlias, setGraph, renameBySource_addAlias, hne]

theorem sameNames_mapEdges (s : AnalysisState) {f : DependencyEdge → DependencyEdge}
    (hf : ∀ e, e.kind.isRenameTo = true → f e = e)
    (hkind : ∀ e, (f e).kind.isRenameTo = e.kind.isRenameTo) :
    SameNames s (s.setGraph (s.graph.mapEdges f)) := ⟨rfl, aliases_mapEdges hf hkind⟩

theorem Rename.keeps_check {R : AnalysisState → AnalysisState → Prop} [KeepsEvidence R]
    (rename : Rename) : Keeps R rename.check := by
  refine Keeps.bind Keeps.get fun s => Keeps.bind (keeps_refuseFound _ _) fun _ =>
    Keeps.bind ?_ fun _ => Keeps.bind (keeps_refuseIf _ _) fun _ =>
      Keeps.bind ?_ fun _ => keeps_refuseFound _ _
  · refine Keeps.bind Keeps.get fun s => ?_
    split
    · exact Keeps.pure _
    · exact Keeps.ite (fun _ => keeps_refuse _) fun _ => keeps_leaveUnresolved _
  · exact Keeps.bind Keeps.get fun s => Keeps.ite
      (fun _ => Keeps.ite (fun _ => keeps_refuse _) fun _ => keeps_leaveUnresolved _)
      fun _ => Keeps.pure _

theorem Rename.isCheck_check (rename : Rename) : IsCheck rename.check := by
  refine IsCheck.bind IsCheck.get fun s => IsCheck.bind (isCheck_refuseFound _ _) fun _ =>
    IsCheck.bind ?_ fun _ => IsCheck.bind (isCheck_refuseIf _ _) fun _ =>
      IsCheck.bind ?_ fun _ => isCheck_refuseFound _ _
  · refine IsCheck.bind IsCheck.get fun s => ?_
    split
    · exact IsCheck.pure _
    · exact IsCheck.ite (fun _ => isCheck_refuse _) fun _ => isCheck_leaveUnresolved _
  · exact IsCheck.bind IsCheck.get fun s => IsCheck.ite
      (fun _ => IsCheck.ite (fun _ => isCheck_refuse _) fun _ => isCheck_leaveUnresolved _)
      fun _ => IsCheck.pure _

/-- A rename is carried out on the state it was checked in, or changes no name. -/
theorem applyRenameRelation_cases (s : AnalysisState) (rename : Rename) :
    s.applyRenameRelation rename = (.applied, rename.execute s) ∨
      SameNames s (s.applyRenameRelation rename).2 := by
  rcases rename.isCheck_check.outcome_bind
      (fun _ => do modify rename.execute; pure .applied) s with ⟨_, h⟩ | ⟨e, h⟩
  · exact Or.inl h
  · refine Or.inr ?_
    have hstate : (s.applyRenameRelation rename).2 = rename.check.after s := congrArg Prod.snd h
    rw [hstate]
    exact rename.keeps_check s

section Moves

theorem sameNames_propagateIndexRename (s : AnalysisState) (oldId newId : ObjectId) :
    SameNames s (s.setGraph (s.graph.propagateIndexRename oldId newId)) := by
  refine sameNames_mapEdges s (fun e he => ?_) fun e => ?_
  · cases hk : e.kind <;>
      simp_all [DependencyEdge.renameIndex, DependencyKind.isRenameTo,
        DependencyKind.isIndexOnRelation]
  · unfold DependencyEdge.renameIndex
    split <;> rfl

theorem sameNames_propagateSequenceRename (s : AnalysisState) (oldId newId : ObjectId) :
    SameNames s (s.setGraph (s.graph.propagateSequenceRename oldId newId)) := by
  refine sameNames_mapEdges s (fun e he => ?_) fun e => ?_
  · cases hk : e.kind <;> simp_all [DependencyEdge.renameSequence, DependencyKind.isRenameTo]
  · unfold DependencyEdge.renameSequence
    split <;> rfl

theorem sameNames_propagateRelationRename (s : AnalysisState) (oldId newId : ObjectId) :
    SameNames s (s.setGraph (s.graph.propagateRelationRename oldId newId)) := by
  refine sameNames_mapEdges s (fun e he => ?_) fun e => ?_
  · cases hk : e.kind <;> simp_all [DependencyEdge.renameRelation, DependencyKind.isRenameTo]
  · unfold DependencyEdge.renameRelation
    split <;> rfl

theorem sameNames_propagateTriggerRename (s : AnalysisState) (oldId newId : ObjectId) :
    SameNames s (s.setGraph (s.graph.propagateTriggerRename oldId newId)) := by
  refine sameNames_mapEdges s (fun e he => ?_) fun e => ?_
  · cases hk : e.kind <;> simp_all [DependencyEdge.renameTrigger, DependencyKind.isRenameTo]
  · unfold DependencyEdge.renameTrigger
    split
    · split <;> simp_all [DependencyKind.isRenameTo]
    · rfl

theorem sameNames_renameConstraint (s : AnalysisState) (tableId : ObjectId)
    (oldName newName : String) :
    SameNames s (s.setGraph (s.graph.renameConstraint tableId oldName newName)) := by
  refine sameNames_mapEdges s (fun e he => ?_) fun e => ?_
  · cases hk : e.kind <;> simp_all [DependencyEdge.renameConstraint, DependencyKind.isRenameTo]
  · unfold DependencyEdge.renameConstraint
    dsimp only
    split
    · rfl
    · split <;> simp_all [DependencyKind.isRenameTo]

theorem sameNames_renameBackedConstraint (oldId newId : ObjectId) (s : AnalysisState)
    (constraint : ConstraintState) : SameNames s (renameBackedConstraint oldId newId s constraint) := by
  unfold renameBackedConstraint
  dsimp only
  generalize (if isIndexBacked constraint.kind = true ∧ oldId.name ≠ newId.name then newId.name
    else constraint.name) = name
  have herased : SameNames s (s.setConstraints (s.constraints.erase
    (constraint.tableId, constraint.name))) := .of_eq rfl rfl
  have hrenamed := IsTrans.trans _ _ _ herased (keeps_ite (p := constraint.name ≠ name)
    (fun _ => sameNames_renameConstraint _ constraint.tableId constraint.name name)
    fun _ => Std.Refl.refl _)
  exact ⟨hrenamed.relations, hrenamed.aliases⟩

/-- Overlays are replaced by present ones only where one is present. -/
theorem aliasesGrow_renameIndexNames (oldId newId : ObjectId)
    (entries : List (ObjectId × RelationOverlay)) (s : AnalysisState)
    (h : ∀ entry ∈ entries, entry.2.isPresent = true → s.relationIsPresent entry.1 = true) :
    AliasesGrow sources s (entries.foldl (renameIndexNameIn oldId newId) s) := by
  induction entries generalizing s with
  | nil => exact Std.Refl.refl s
  | cons entry entries ih =>
    have hstep : AliasesGrow sources s (renameIndexNameIn oldId newId s entry) := by
      have hentry := h entry List.mem_cons_self
      unfold renameIndexNameIn
      split
      · rename_i relation hrelation
        refine keeps_ite (fun _ => ?_) fun _ => Std.Refl.refl s
        refine .of_aliases (fun k => ?_) rfl
        by_cases hk : k = entry.1
        · subst hk
          rw [hentry (by rw [hrelation]; rfl)]
          simp [relationIsPresent, setRelations, AList.lookup_insert, Overlay.isPresent]
        · exact relationIsPresent_congr (AList.lookup_insert_ne hk)
      · exact Std.Refl.refl s
    refine IsTrans.trans _ _ _ hstep (ih _ fun e he hpresent => ?_)
    rw [hstep.present]
    exact h e (List.mem_cons_of_mem _ he) hpresent

theorem aliasesGrow_renameIndexCatalogReferences (s : AnalysisState) (oldId newId : ObjectId) :
    AliasesGrow sources s (s.renameIndexCatalogReferences oldId newId) := by
  unfold renameIndexCatalogReferences
  dsimp only
  have hbacked (l : List ConstraintState) :
      SameNames s (l.foldl (renameBackedConstraint oldId newId) s) :=
    keeps_foldl l (fun constraint _ s => sameNames_renameBackedConstraint oldId newId s constraint) s
  refine IsTrans.trans _ _ _ (AliasesGrow.of_sameNames (hbacked _))
    (keeps_ite (fun _ => Std.Refl.refl _) fun _ => aliasesGrow_renameIndexNames _ _ _ _ ?_)
  rintro ⟨k, overlay⟩ hentry hpresent
  obtain ⟨⟨k, overlay⟩, hmem, ⟨⟩⟩ := List.mem_map.mp hentry
  rw [relationIsPresent, AList.mem_lookup_iff.mpr hmem]
  exact hpresent

theorem aliasesGrow_moveIndex (s : AnalysisState) (move : ObjectId × ObjectId)
    (hmove : move.1 ∈ sources) : AliasesGrow sources s (s.moveIndex move) :=
  IsTrans.trans _ _ _ (.of_sameNames (sameNames_propagateIndexRename s move.1 move.2)) <|
    IsTrans.trans _ _ _ (aliasesGrow_renameIndexCatalogReferences _ _ _)
      (aliasesGrow_addAlias _ _ hmove)

theorem aliasesGrow_moveSequence (rename : Rename) (s : AnalysisState)
    (move : ObjectId × ObjectId) (hmove : move.1 ∈ sources) :
    AliasesGrow sources s (rename.moveSequence s move) := by
  unfold Rename.moveSequence
  dsimp only
  have hnames (m : KeyedMap ObjectId SequenceOverlay) :
      SameNames s (((s.snapshotSequence move.1).snapshotSequence move.2).setSequences m) :=
    .of_eq ((pushUndo_relations _ _).trans (s.pushUndo_relations _))
      ((pushUndo_graph _ _).trans (s.pushUndo_graph _))
  split
  · exact IsTrans.trans _ _ _ (.of_sameNames (hnames _)) <|
      IsTrans.trans _ _ _ (.of_sameNames (sameNames_propagateSequenceRename _ move.1 move.2))
        (aliasesGrow_addAlias _ _ hmove)
  · exact .of_sameNames (hnames _)

theorem aliasesGrow_moveTrigger (rename : Rename) (s : AnalysisState)
    (move : ObjectId × TriggerState) (hmove : move.1 ∈ sources) :
    AliasesGrow sources s (rename.moveTrigger s move) := by
  unfold Rename.moveTrigger
  dsimp only
  refine IsTrans.trans _ _ _ ?_ (aliasesGrow_addAlias _ _ hmove)
  refine IsTrans.trans _ _ _ ?_ (.of_sameNames (sameNames_propagateTriggerRename _ _ _))
  exact .of_sameNames (.of_eq rfl rfl)

theorem sameNames_updateOwnedSequence (rename : Rename) (s : AnalysisState) (id : ObjectId) :
    SameNames s (rename.updateOwnedSequence s id) := by
  unfold Rename.updateOwnedSequence
  dsimp only
  split <;> exact .of_eq (s.pushUndo_relations _) (s.pushUndo_graph _)

theorem sameNames_moveConstraint (rename : Rename) (s : AnalysisState)
    (constraint : String × ConstraintState) : SameNames s (rename.moveConstraint s constraint) :=
  .of_eq ((pushUndo_relations _ _).trans (s.pushUndo_relations _))
    ((pushUndo_graph _ _).trans (s.pushUndo_graph _))

theorem sameNames_updatePublication (rename : Rename) (s : AnalysisState)
    (update : String × List Nat) : SameNames s (rename.updatePublication s update) := by
  unfold Rename.updatePublication
  dsimp only
  split
  · split <;> exact .of_eq (s.pushUndo_relations _) (s.pushUndo_graph _)
  · exact .of_eq (s.pushUndo_relations _) (s.pushUndo_graph _)

end Moves

/-- The identities that a rename leaves an alias behind for, besides its own. -/
def Rename.aliasSources (rename : Rename) (s : AnalysisState) : List ObjectId :=
  (rename.sequenceMoves s ++ rename.indexMoves s).map (·.1) ++
    (rename.triggersToMove s).map (·.1)

/-- The relation moves, and everything else keeps its place. -/
theorem Rename.moveRelation_present (rename : Rename) (s : AnalysisState) {id : ObjectId}
    (h : (rename.moveRelation s).relationIsPresent id = true) :
    id = rename.newName ∧ s.relationIsPresent rename.oldName = true ∨
      id ≠ rename.oldName ∧ s.relationIsPresent id = true := by
  have herase : ((s.relations.erase rename.oldName).lookup id).any Overlay.isPresent = true →
      id ≠ rename.oldName ∧ s.relationIsPresent id = true := by
    intro hpresent
    have hne : id ≠ rename.oldName := by
      rintro rfl
      simp [AList.lookup_erase] at hpresent
    rw [AList.lookup_erase_ne hne] at hpresent
    exact ⟨hne, hpresent⟩
  unfold Rename.moveRelation at h
  dsimp only at h
  split at h
  · rename_i relation hrelation
    by_cases hnew : id = rename.newName
    · exact Or.inl ⟨hnew, by simp [relationIsPresent, hrelation, Overlay.isPresent]⟩
    · refine Or.inr (herase ?_)
      rwa [relationIsPresent, setRelations, AList.lookup_insert_ne hnew] at h
  · exact Or.inr (herase h)

section Triggers

theorem sameTriggers_moveRelation (rename : Rename) (s : AnalysisState) :
    SameTriggers s (rename.moveRelation s) := by
  unfold Rename.moveRelation
  dsimp only
  split <;> rfl

theorem sameTriggers_updateOwnedSequence (rename : Rename) (s : AnalysisState) (id : ObjectId) :
    SameTriggers s (rename.updateOwnedSequence s id) := by
  unfold Rename.updateOwnedSequence
  dsimp only
  split <;> exact s.pushUndo_triggers _

theorem sameTriggers_moveSequence (rename : Rename) (s : AnalysisState)
    (move : ObjectId × ObjectId) : SameTriggers s (rename.moveSequence s move) := by
  have hsnapshots : SameTriggers s ((s.snapshotSequence move.1).snapshotSequence move.2) :=
    (pushUndo_triggers _ _).trans (s.pushUndo_triggers _)
  have hset (m : KeyedMap ObjectId SequenceOverlay) (t : AnalysisState) :
      SameTriggers t (t.setSequences m) := rfl
  have hgraph (g : DependencyGraph) (t : AnalysisState) : SameTriggers t (t.setGraph g) := rfl
  unfold Rename.moveSequence
  dsimp only
  split
  · exact IsTrans.trans _ _ _ (IsTrans.trans _ _ _ hsnapshots (hset _ _)) <|
      IsTrans.trans _ _ _ (hgraph _ _) (hgraph _ _)
  · exact IsTrans.trans _ _ _ hsnapshots (hset _ _)

theorem sameTriggers_renameIndexCatalogReferences (s : AnalysisState) (oldId newId : ObjectId) :
    SameTriggers s (s.renameIndexCatalogReferences oldId newId) := by
  have hbacked (l : List ConstraintState) :
      SameTriggers s (l.foldl (renameBackedConstraint oldId newId) s) := by
    refine keeps_foldl l (fun constraint _ t => ?_) s
    unfold renameBackedConstraint
    dsimp only
    generalize (if isIndexBacked constraint.kind = true ∧ oldId.name ≠ newId.name then
      newId.name else constraint.name) = name
    change (if _ then _ else _ : AnalysisState).triggers = t.triggers
    split <;> rfl
  have hnames (l : List (ObjectId × RelationOverlay)) (t : AnalysisState) :
      SameTriggers t (l.foldl (renameIndexNameIn oldId newId) t) := by
    refine keeps_foldl l (fun entry _ t => ?_) t
    unfold renameIndexNameIn
    split
    · exact keeps_ite (fun _ => rfl) fun _ => rfl
    · rfl
  unfold renameIndexCatalogReferences
  exact IsTrans.trans _ _ _ (hbacked _) (keeps_ite (fun _ => rfl) fun _ => hnames _ _)

theorem sameTriggers_moveIndex (s : AnalysisState) (move : ObjectId × ObjectId) :
    SameTriggers s (s.moveIndex move) :=
  sameTriggers_renameIndexCatalogReferences (s.setGraph _) move.1 move.2

end Triggers

theorem Rename.moveRelation_graph (rename : Rename) (s : AnalysisState) :
    (rename.moveRelation s).graph = s.graph := by
  unfold Rename.moveRelation
  dsimp only
  split <;> rfl

theorem aliasesGrow_moveObjects (rename : Rename) (s : AnalysisState) :
    AliasesGrow (rename.aliasSources s) (rename.moveRelation s.snapshotNamespace)
      (rename.moveObjects (rename.sequenceMoves s) (rename.indexMoves s) s) := by
  unfold Rename.moveObjects
  dsimp only
  generalize hu : rename.moveRelation s.snapshotNamespace = u
  have husame : SameTriggers s u := by
    rw [← hu]
    exact IsTrans.trans _ _ _ (s.pushUndo_triggers _) (sameTriggers_moveRelation rename _)
  generalize hw : (rename.indexMoves s).foldl moveIndex _ = w
  have hwsame : SameTriggers s w := by
    rw [← hw]
    refine IsTrans.trans _ _ _ husame <| IsTrans.trans _ _ _
      (keeps_foldl _ (fun id _ t => sameTriggers_updateOwnedSequence rename t id) _) <|
      IsTrans.trans _ _ _
        (keeps_foldl _ (fun move _ t => sameTriggers_moveSequence rename t move) _)
        (keeps_foldl _ (fun move _ t => sameTriggers_moveIndex t move) _)
  have htriggers : rename.triggersToMove w = rename.triggersToMove s := by
    unfold Rename.triggersToMove
    rw [show w.triggers = s.triggers from hwsame]
  have hgrow : AliasesGrow (rename.aliasSources s) u w := by
    rw [← hw]
    refine IsTrans.trans _ _ _ (.of_sameNames
      (keeps_foldl _ (fun id _ t => sameNames_updateOwnedSequence rename t id) _)) <|
      IsTrans.trans _ _ _
        (keeps_foldl (R := AliasesGrow (rename.aliasSources s)) _
          (fun move hmove t => aliasesGrow_moveSequence rename t move ?_) _)
        (keeps_foldl (R := AliasesGrow (rename.aliasSources s)) _
          (fun move hmove t => aliasesGrow_moveIndex t move ?_) _)
    · simp only [Rename.aliasSources, List.map_append, List.mem_append]
      exact Or.inl (Or.inl (List.mem_map_of_mem hmove))
    · simp only [Rename.aliasSources, List.map_append, List.mem_append]
      exact Or.inl (Or.inr (List.mem_map_of_mem hmove))
  have hmoved : AliasesGrow (rename.aliasSources s) w
      ((rename.triggersToMove s).foldl rename.moveTrigger w) := by
    refine keeps_foldl (R := AliasesGrow (rename.aliasSources s)) _
      (fun move hmove t => aliasesGrow_moveTrigger rename t move ?_) w
    simp only [Rename.aliasSources, List.mem_append]
    exact Or.inr (List.mem_map_of_mem hmove)
  rw [htriggers]
  refine IsTrans.trans _ _ _ hgrow (IsTrans.trans _ _ _ hmoved ?_)
  exact IsTrans.trans _ _ _ (.of_sameNames
    (keeps_foldl _ (fun constraint _ t => sameNames_moveConstraint rename t constraint) _)) <|
    IsTrans.trans _ _ _ (.of_sameNames
      (keeps_foldl _ (fun update _ t => sameNames_updatePublication rename t update) _))
      (.of_sameNames (.of_eq rfl rfl))

/-- The relations and aliases after a rename, against those before. -/
theorem Rename.execute_names (rename : Rename) (s : AnalysisState) :
    ∃ v, AliasesGrow (rename.aliasSources s) (rename.moveRelation s.snapshotNamespace) v ∧
      AliasesGrow [] (v.addAlias rename.oldName rename.newName) (rename.execute s) := by
  refine ⟨_, aliasesGrow_moveObjects rename s, ?_⟩
  unfold Rename.execute
  dsimp only
  generalize rename.moveObjects (rename.sequenceMoves s) (rename.indexMoves s) s = v
  have hedges (renamesRelation renamesIndex : Bool) :
      AliasesGrow [] (v.addAlias rename.oldName rename.newName)
        (rename.moveEdges renamesRelation renamesIndex v) := by
    unfold Rename.moveEdges
    dsimp only
    cases renamesRelation <;> cases renamesIndex
    · exact Std.Refl.refl _
    · exact IsTrans.trans _ _ _ (.of_sameNames (sameNames_propagateIndexRename _ _ _))
        (aliasesGrow_renameIndexCatalogReferences _ _ _)
    · exact .of_sameNames (sameNames_propagateRelationRename _ _ _)
    · exact IsTrans.trans _ _ _ (.of_sameNames (sameNames_propagateRelationRename _ _ _)) <|
        IsTrans.trans _ _ _ (.of_sameNames (sameNames_propagateIndexRename _ _ _))
          (aliasesGrow_renameIndexCatalogReferences _ _ _)
  have hbaseline (t : AnalysisState) (renamesRelation renamesIndex : Bool) :
      SameNames t (rename.moveBaseline (rename.sequenceMoves s) (rename.indexMoves s)
        renamesRelation renamesIndex t) := by
    unfold Rename.moveBaseline
    dsimp only
    cases renamesRelation <;> exact .of_eq rfl rfl
  exact IsTrans.trans _ _ _ (hedges _ _) (.of_sameNames (hbaseline _ _ _))

end Rename

end SafeMigrate
