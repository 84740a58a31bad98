import SafeMigrate.CoveredWrites
import SafeMigrate.DropSequence
import SafeMigrate.PublicationSteps
import SafeMigrate.SequenceAlterations
import SafeMigrate.SequenceWrites
import SafeMigrate.TriggerCommands

/-! Statements on triggers, publications and sequences push the entries that
restore what they change. -/

namespace SafeMigrate

open Command AnalysisState

variable {cells : List Cell}

section Triggers

variable {R : AnalysisState → AnalysisState → Prop} [KeepsEvidence R]

theorem keeps_ensureRoutineTarget (r : ObjectRef) (expected : RoutineKind)
    (missingReason wrongKindReason : String) :
    Keeps R (ensureRoutineTarget r expected missingReason wrongKindReason) := by
  refine Keeps.bind Keeps.get fun s => Keeps.ite (fun _ => keeps_leaveUnresolved _) fun _ => ?_
  split
  · exact keeps_refuseIf _ _
  · exact keeps_refuse _
  · exact Keeps.ite (fun _ => keeps_refuse _) fun _ => keeps_leaveUnresolved _

theorem CreateTrigger.keeps_checkFunction {create : CreateTrigger} :
    Keeps R create.checkFunction := by
  refine Keeps.bind (keeps_ensureRoutineTarget _ _ _ _) fun _ => Keeps.bind Keeps.get fun s => ?_
  split
  · exact Keeps.bind (keeps_leaveUnresolvedIf _ _) fun _ => keeps_refuseIf _ _
  · exact keeps_leaveUnresolved _

theorem CreateTrigger.logged_write (create : CreateTrigger) (s : AnalysisState) :
    Logged s (create.write s) := by
  unfold write
  dsimp only
  refine Logged.trans ?_ (logged_addGraphEdgeFull _ _)
  refine Logged.trans ?_ (logged_updateRelation _ _ _)
  exact s.logged_bumpGeneration.trans (logged_putTrigger _ _)

theorem CreateTrigger.logged_command (create : CreateTrigger) : Keeps Logged create.command := by
  refine Keeps.bind Keeps.get fun s => Keeps.bind (keeps_refuseIf _ _) fun _ => ?_
  refine Keeps.bind (keeps_ensureRelationTarget _ _ _ _) fun _ => ?_
  refine Keeps.bind keeps_checkFunction fun _ => ?_
  exact Keeps.bind (Keeps.modify create.logged_write) fun _ => Keeps.pure _

theorem DropTrigger.logged_command (drop : DropTrigger) : Keeps Logged drop.command := by
  have hwrite (s : AnalysisState) : Logged s (drop.write s) := by
    unfold write
    dsimp only
    refine Logged.trans ?_ (logged_retainGraphEdges _ _)
    exact (s.logged_tombstoneTrigger drop.id).trans (logged_updateRelation _ _ _)
  refine Keeps.bind (keeps_ensureRelationTarget _ _ _ _) fun _ => Keeps.bind Keeps.get fun s => ?_
  split
  · exact Keeps.throw _
  · have hrest : Keeps Logged (modify drop.write >>= fun _ => pure .applied : Statement MutationResult) :=
      Keeps.bind (Keeps.modify hwrite) fun _ => Keeps.pure _
    refine Keeps.ite (fun _ => Keeps.ite (fun _ => ?_) fun _ => ?_) fun _ => hrest
    · exact Keeps.bind (Keeps.throw _) fun _ => hrest
    · exact Keeps.bind (keeps_refuse _) fun _ => hrest

/-- Both identities, the table and the graph are recorded before the first write. -/
theorem RenameTrigger.logged_write (rename : RenameTrigger) (trigger : TriggerState)
    (s : AnalysisState) : Logged s (rename.write trigger s) := by
  have hold := s.covering_snapshotTrigger rename.oldId
  have hnew := hold.trans ((s.snapshotTrigger rename.oldId).covering_snapshotTrigger rename.newId)
  have htable := hnew.trans (covering_snapshotRelation _ rename.table.id)
  have hopen := htable.trans (covering_snapshotGraphFull _)
  unfold write
  dsimp only
  generalize snapshotGraphFull _ = u at hopen ⊢
  have herased : LoggedCovering _ s (u.setTriggers (u.triggers.erase rename.oldId)) :=
    hopen.setTriggers (by simp) fun k hk => AList.lookup_erase_ne hk
  have hmoved : LoggedCovering _ s (u.setTriggers ((u.triggers.erase rename.oldId).insert rename.newId
      (.present { trigger with id := rename.newId, name := rename.newName }))) :=
    herased.setTriggers (by simp) fun k hk => AList.lookup_insert_ne hk
  exact (((hmoved.modifyRelation (by simp) _).setGraph (by simp) _).setGraph (by simp) _).logged

theorem RenameTrigger.logged_command (rename : RenameTrigger) : Keeps Logged rename.command := by
  have htarget : Keeps Logged rename.checkTarget := by
    refine Keeps.bind Keeps.get fun s => ?_
    split
    · split
      · exact Keeps.pure _
      · exact keeps_leaveUnresolved _
    · exact keeps_refuse _
    · exact keeps_refuse _
    · exact keeps_leaveUnresolved _
  refine Keeps.bind (keeps_ensureRelationTarget _ _ _ _) fun _ => Keeps.bind htarget fun trigger => ?_
  refine Keeps.bind Keeps.get fun s => Keeps.bind (keeps_refuseIf _ _) fun _ => ?_
  exact Keeps.bind (Keeps.modify (rename.logged_write trigger)) fun _ => Keeps.pure _

end Triggers

section Publications

theorem LoggedCovering.modifyPublication {s t : AnalysisState} (h : LoggedCovering cells s t)
    {name : String} (hc : .publication name ∈ cells) (f : PublicationState → PublicationState) :
    LoggedCovering cells s (t.modifyPublication name f) := by
  unfold AnalysisState.modifyPublication
  split
  · exact h.setPublications hc fun k hk => AList.lookup_insert_ne hk
  · exact h

theorem LoggedCovering.tainted {s t : AnalysisState} (h : LoggedCovering cells s t)
    (code : EvidenceCode) (scope : EvidenceScope) : LoggedCovering cells s (t.taint code scope) :=
  h.then (t.logged_taint code scope)

theorem keeps_validatePublicationScope {R : AnalysisState → AnalysisState → Prop} [KeepsEvidence R]
    (scope : PublicationScope) : Keeps R (validatePublicationScope scope) := by
  have hobjects (seen : List String) (objects : List PublicationObjectFact) :
      Keeps R (validatePublicationObjects seen objects) := by
    induction objects generalizing seen with
    | nil => exact Keeps.pure _
    | cons object objects ih =>
      exact Keeps.bind Keeps.get fun s => Keeps.bind (keeps_refuseIf _ _) fun _ =>
        Keeps.bind (keeps_checkPublicationObject object) fun _ => ih _
  cases scope with
  | explicit objects => exact hobjects [] objects
  | allTables except => exact Keeps.pure _

theorem keeps_taintInheritance {R : AnalysisState → AnalysisState → Prop} [KeepsEvidence R]
    (scope : PublicationScope) :
    Keeps R (modify fun s => s.taintInheritanceSensitivePublicationScope scope :
      Statement PUnit) := by
  refine Keeps.modify fun s => ?_
  unfold taintInheritanceSensitivePublicationScope
  split
  · exact KeepsEvidence.taint s _ _
  · exact Std.Refl.refl s

namespace AnalysisState

variable (s : AnalysisState)

theorem logged_replacePublicationEdges (publication : String) (scope : PublicationScope) :
    Logged s (s.replacePublicationEdges publication scope) := by
  have h := s.covering_snapshotGraphFull.setGraph (List.mem_singleton_self _)
    (s.snapshotGraphFull.graph.retainEdges fun e => !e.kind.isMembershipOf publication)
  exact (h.setGraph (List.mem_singleton_self _) _).logged

theorem logged_createPublication (create : CreatePublication) (scope : PublicationScope) :
    Logged s (s.createPublication create scope) := by
  have hopen := (s.covering_snapshotPublication create.name).then (logged_bumpGeneration _)
  unfold createPublication
  dsimp only
  generalize bumpGeneration _ = u at hopen ⊢
  have hstored (publication : PublicationOverlay) :
      Logged s (u.setPublications (u.publications.insert create.name publication)) :=
    (hopen.setPublications (List.mem_singleton_self _) fun k hk => AList.lookup_insert_ne hk).logged
  cases scope with
  | explicit objects => exact (hstored _).trans (logged_replaceGraph _ _)
  | allTables except => exact hstored _

theorem logged_dropPublications (names : List String) : Logged s (s.dropPublications names) := by
  refine Logged.trans (Logged.foldl (fun s name => ?_) names s) (logged_retainGraphEdges _ _)
  have h := s.covering_snapshotPublication name
  exact (h.setPublications (List.mem_singleton_self _) fun k hk => AList.lookup_insert_ne hk).logged

/-- The new name gets an entry of its own. -/
theorem covered_renamePublication {name : String} (hc : .publication name ∈ cells)
    (newName : String) : StaysCovered cells s (s.renamePublication name newName) := by
  intro r hr
  have hopen := hr.trans (s.covering_snapshotPublication newName)
  have hcells : cells ⊆ cells ++ [.publication newName] := List.subset_append_left _ _
  unfold renamePublication
  dsimp only
  generalize s.snapshotPublication newName = u at hopen ⊢
  split
  · rename_i publication hpublication
    have herased : LoggedCovering _ r (u.setPublications (u.publications.erase name)) :=
      hopen.setPublications (hcells hc) fun k hk => AList.lookup_erase_ne hk
    have hmoved : LoggedCovering _ r (u.setPublications ((u.publications.erase name).insert newName
        (.present { publication with name := newName }))) :=
      herased.setPublications (by simp) fun k hk => AList.lookup_insert_ne hk
    exact (hmoved.weaken hcells).then (logged_replaceGraph _ _)
  · exact hopen.weaken hcells

end AnalysisState

theorem CreatePublication.logged_command (create : CreatePublication) :
    Keeps Logged create.command := by
  refine Keeps.bind Keeps.get fun s => Keeps.bind (keeps_refuseIf _ _) fun _ => ?_
  refine Keeps.bind (keeps_taintIf _ _ _) fun _ => Keeps.bind Keeps.get fun s => ?_
  refine Keeps.bind (keeps_validatePublicationScope _) fun _ => ?_
  refine Keeps.bind (keeps_taintInheritance _) fun _ => ?_
  exact Keeps.bind (Keeps.modify fun s => s.logged_createPublication create _) fun _ => Keeps.pure _

namespace AlterPublication

variable {alter : AlterPublication}

theorem covered_replacementScope (hc : .publication alter.name ∈ cells)
    (current : PublicationScope) : Keeps (StaysCovered cells) (alter.replacementScope current) := by
  have hmodify (f : PublicationState → PublicationState) (s : AnalysisState) :
      StaysCovered cells s (s.modifyPublication alter.name f) := fun _ hr => hr.modifyPublication hc f
  unfold replacementScope
  split
  · refine Keeps.bind (keeps_validatePublicationScope _) fun _ =>
      Keeps.bind (keeps_taintInheritance _) fun _ => ?_
    split
    · exact keeps_refuse _
    · exact Keeps.bind Keeps.get fun s => Keeps.bind (Keeps.foldlM _ _ fun objects addition =>
        Keeps.bind (keeps_refuseIf _ _) fun _ => Keeps.pure _) fun _ => Keeps.pure _
  · exact Keeps.bind (keeps_validatePublicationScope _) fun _ =>
      Keeps.bind (keeps_taintInheritance _) fun _ => Keeps.pure _
  · refine Keeps.bind (keeps_taintInheritance _) fun _ => ?_
    split
    · exact keeps_refuse _
    · exact Keeps.bind Keeps.get fun s => Keeps.bind (Keeps.foldlM _ _ fun objects removal =>
        Keeps.bind (keeps_refuseIf _ _) fun _ => Keeps.pure _) fun _ => Keeps.pure _
  · exact Keeps.bind (Keeps.modify fun s => hmodify _ s) fun _ => Keeps.pure _
  · refine Keeps.bind (Keeps.modify fun s r hr => ?_) fun _ => Keeps.pure _
    unfold setPublicationOwner
    split
    · dsimp only
      split
      · exact hr.modifyPublication hc _
      · exact (hr.tainted _ _).modifyPublication hc _
    · exact (hr.tainted _ _).modifyPublication hc _
  · exact Keeps.pure _

theorem covered_finish (hc : .publication alter.name ∈ cells) (generation : Nat)
    (replacement : Option PublicationScope) (s : AnalysisState) :
    StaysCovered cells s (alter.finish generation replacement s) := by
  intro r hr
  unfold finish
  cases replacement with
  | some scope =>
    have hstored : LoggedCovering cells r (s.storePublicationScope alter.name scope) :=
      (hr.modifyPublication hc _).then (logged_replacePublicationEdges _ _ _)
    have hnumbered := hstored.modifyPublication hc fun publication => { publication with generation }
    dsimp only
    split
    · exact covered_renamePublication _ hc _ _ hnumbered
    · exact hnumbered
  | none =>
    have hnumbered := hr.modifyPublication hc fun publication => { publication with generation }
    dsimp only
    split
    · exact covered_renamePublication _ hc _ _ hnumbered
    · exact hnumbered

theorem logged_command : Keeps Logged alter.command := by
  have hname : .publication alter.name ∈ [Cell.publication alter.name] := List.mem_singleton_self _
  refine Keeps.bind ?_ fun _ => Keeps.bind ?_ fun _ => ?_
  · refine Keeps.bind Keeps.get fun s => ?_
    split
    · exact Keeps.pure _
    · exact keeps_leaveUnresolved _
    · exact keeps_refuse _
  · refine Keeps.bind Keeps.get fun s => ?_
    split
    · split
      · exact keeps_refuse _
      · exact keeps_leaveUnresolved _
      · exact Keeps.pure _
    · split
      · exact keeps_refuseIf _ _
      · exact Keeps.pure _
    · exact Keeps.pure _
  · refine logged_opened (fun s => (s.covering_snapshotPublication alter.name).then
      (logged_bumpGeneration _)) ?_
    refine Keeps.bind Keeps.get fun s => ?_
    refine Keeps.bind (covered_replacementScope hname _) fun replacement => ?_
    exact Keeps.bind (Keeps.modify fun s => covered_finish hname _ _ s) fun _ => Keeps.pure _

end AlterPublication

theorem DropPublication.logged_command (drop : DropPublication) : Keeps Logged drop.command := by
  refine Keeps.bind (Keeps.foldlM _ _ (keeps_scanPublication drop)) fun found => ?_
  refine Keeps.bind (keeps_leaveUnresolvedIf _ _) fun _ => ?_
  exact Keeps.bind (Keeps.modify fun s => s.logged_dropPublications _) fun _ => Keeps.pure _

end Publications

section Sequences

theorem LoggedCovering.putPresentSequence {s t : AnalysisState} (h : LoggedCovering cells s t)
    {id : ObjectId} (hc : .sequence id ∈ cells) (sequence : SequenceState) :
    LoggedCovering cells s (t.setSequences (t.sequences.insert id (.present sequence))) :=
  h.setSequences hc fun _ hk => AList.lookup_insert_ne hk

theorem AnalysisState.logged_updateSequence (s : AnalysisState) (id : ObjectId)
    (f : SequenceState → SequenceState) : Logged s (s.updateSequence id f) := by
  have h := s.covering_snapshotSequence id
  unfold updateSequence
  dsimp only
  split
  · exact (h.putPresentSequence (List.mem_singleton_self _) _).logged
  · exact h.logged

theorem CreateSequence.logged_command (create : CreateSequence) : Keeps Logged create.command := by
  have hname : .sequence create.id.id ∈ [Cell.sequence create.id.id] := List.mem_singleton_self _
  have hwrite (parameters : SequenceParameters) (s : AnalysisState) :
      StaysCovered [.sequence create.id.id] s (create.write parameters s) := by
    intro r hr
    unfold write
    dsimp only
    split
    · exact (hr.putPresentSequence hname _).then (logged_addGraphEdge _ _)
    · exact hr.putPresentSequence hname _
  refine Keeps.bind (keeps_ensureCreationTarget _) fun _ => Keeps.bind Keeps.get fun s => ?_
  dsimp only
  refine Keeps.ite (fun _ => Keeps.bind (Keeps.throw _) fun _ => ?_) fun _ => ?_
  all_goals
    refine Keeps.bind (keeps_refuseIf _ _) fun _ => Keeps.bind keeps_checkOwner fun _ => ?_
    refine logged_opened (fun s => (s.covering_snapshotSequence create.id.id).then
      (logged_bumpGeneration _)) ?_
    split
    · exact keeps_refuse _
    · exact Keeps.bind (Keeps.modify (hwrite _)) fun _ => Keeps.pure _

namespace AlterSequence

variable {alter : AlterSequence}

theorem logged_alterParameters (current : SequenceState) :
    Keeps Logged (alter.alterParameters current) := by
  unfold alterParameters
  split
  · exact keeps_refuse _
  · split
    · exact keeps_refuse _
    · unfold writeParameters
      split
      · exact Keeps.modify fun s => s.logged_updateSequence alter.id.id _
      · exact Keeps.bind (keeps_checkRuntime _) fun _ =>
          Keeps.ite (fun _ => Keeps.modify fun s => s.logged_updateSequence alter.id.id _)
            fun _ => Keeps.pure _

theorem logged_writeOwner (owner : Option (ObjectRef × String)) (s : AnalysisState) :
    Logged s (alter.writeOwner owner s) := by
  have hopen := (s.covering_snapshotSequence alter.id.id).trans (covering_snapshotGraphFull _)
  unfold writeOwner
  dsimp only
  generalize snapshotGraphFull _ = u at hopen ⊢
  have hcleared := hopen.setGraph (by simp) (u.graph.retainEdges fun e =>
    !(e.kind.isSequenceOwnedBy && e.dependent == alter.id.id))
  generalize u.setGraph _ = v at hcleared ⊢
  cases owner with
  | some owner =>
    dsimp only
    split
    · exact ((hcleared.putPresentSequence (by simp) _).setGraph (by simp) _).logged
    · exact (hcleared.setGraph (by simp) _).logged
  | none =>
    dsimp only
    split
    · exact (hcleared.putPresentSequence (by simp) _).logged
    · exact hcleared.logged

theorem logged_alterOwnedBy (current : SequenceState) (owner : Option (ObjectRef × String)) :
    Keeps Logged (alter.alterOwnedBy current owner) := by
  have hwrite : Keeps Logged (modify (alter.writeOwner owner) : Statement PUnit) :=
    Keeps.modify (logged_writeOwner owner)
  refine Keeps.bind (keeps_refuseIf _ _) fun _ => ?_
  split
  · exact hwrite
  · refine Keeps.bind (keeps_refuseIf _ _) fun _ =>
      Keeps.bind (keeps_ensureRelationTarget _ _ _ _) fun _ => Keeps.bind Keeps.get fun s => ?_
    split
    · exact Keeps.bind (keeps_leaveUnresolved _) fun _ => hwrite
    · exact Keeps.bind (keeps_refuseIf _ _) fun _ => Keeps.bind (keeps_refuseIf _ _) fun _ => hwrite

theorem logged_ownerTo (current : SequenceState) (owner : RoleFact) :
    Keeps Logged (alter.ownerTo current owner) := by
  refine Keeps.bind (keeps_refuseIf _ _) fun _ => Keeps.bind Keeps.get fun s => ?_
  split
  · exact keeps_leaveUnresolved _
  · rename_i name known _
    have hwrite : Keeps Logged (modify fun s => s.updateSequence alter.id.id fun sequence =>
        { sequence with owner := ⟨"", name⟩ } : Statement PUnit) :=
      Keeps.modify fun s => s.logged_updateSequence alter.id.id _
    refine Keeps.bind (keeps_refuseIf _ _) fun _ => Keeps.bind (keeps_taintIf _ _ _) fun _ => ?_
    split
    · exact hwrite
    · refine Keeps.bind (keeps_ensureRelationTarget _ _ _ _) fun _ => Keeps.bind Keeps.get fun s => ?_
      split
      · exact Keeps.bind (keeps_leaveUnresolved _) fun _ => hwrite
      · exact Keeps.bind (keeps_refuseIf _ _) fun _ => hwrite

/-- The namespace entry covers the sequence, its alias and the baseline. -/
theorem logged_move (newId : ObjectId) (s : AnalysisState) : Logged s (alter.move newId s) := by
  refine s.covering_snapshotNamespace.close (SameOutsideNamespace.staysCovered ?_ (by simp))
  unfold move
  dsimp only
  generalize s.snapshotNamespace = u
  split <;> exact ⟨rfl, rfl, rfl, rfl, rfl, rfl, rfl, rfl, rfl⟩

theorem logged_moveTo (current : SequenceState) (newId : ObjectId) :
    Keeps Logged (alter.moveTo current newId) :=
  Keeps.bind (keeps_refuseIf _ _) fun _ => Keeps.bind (keeps_ensureSchemaTarget _) fun _ =>
    Keeps.bind Keeps.get fun _ => Keeps.bind (keeps_refuseIf _ _) fun _ =>
      Keeps.bind (keeps_refuseIf _ _) fun _ => Keeps.modify (logged_move newId)

theorem logged_command : Keeps Logged alter.command := by
  refine Keeps.bind keeps_checkTarget fun current => ?_
  refine Keeps.bind (logged_alterParameters current) fun _ => Keeps.bind ?_ fun _ => Keeps.pure _
  unfold execute
  split
  · exact logged_alterOwnedBy current _
  · split
    · exact logged_ownerTo current _
    · exact logged_moveTo current _
    · exact logged_moveTo current _
    · exact Keeps.pure _

end AlterSequence

namespace AnalysisState

variable (s : AnalysisState)

theorem logged_clearColumnDefault (key : ObjectId × String) : Logged s (s.clearColumnDefault key) := by
  have h := s.covering_snapshotRelation key.1
  unfold clearColumnDefault
  dsimp only
  split
  · exact (h.setRelations (List.mem_singleton_self _) fun k hk => AList.lookup_insert_ne hk).logged
  · exact h.logged

theorem logged_clearSequenceDefaultsOnCascade (sequence : ObjectId) (kind : SequenceKind)
    (ownedBy : Option (ObjectId × String)) :
    Logged s (s.clearSequenceDefaultsOnCascade sequence kind ownedBy) :=
  Logged.foldl logged_clearColumnDefault _ s

end AnalysisState

namespace DropSequence

variable {drop : DropSequence}

theorem logged_write (present : List ObjectId) (s : AnalysisState) :
    Logged s (drop.write present s) := by
  unfold write
  dsimp only
  refine Logged.trans ?_ (logged_retainGraphEdges _ _)
  refine Logged.trans ?_ (Logged.foldl logged_tombstoneSequence present _)
  refine Logged.ite (fun _ => ?_) fun _ => Logged.refl s
  exact Logged.foldl (fun s sequence => s.logged_clearSequenceDefaultsOnCascade _ _ _) _ s

theorem logged_command : Keeps Logged drop.command := by
  refine Keeps.bind ?_ fun present => Keeps.bind (Keeps.forM _ fun r => ?_) fun _ => ?_
  · refine Keeps.bind (Keeps.forM _ fun r => Keeps.bind Keeps.get fun s => ?_) fun _ => ?_
    · split
      · exact Keeps.throw _
      · exact Keeps.pure _
    · refine Keeps.bind (Keeps.forM _ fun r => Keeps.bind Keeps.get fun s => ?_) fun _ => ?_
      · split
        · exact Keeps.pure _
        · exact keeps_refuseIf _ _
        · exact keeps_refuseIf _ _
        · exact keeps_leaveUnresolved _
      · refine Keeps.bind Keeps.get fun s => Keeps.ite (fun _ => Keeps.bind (Keeps.throw _) fun _ => ?_)
          fun _ => ?_
        all_goals exact Keeps.bind (keeps_leaveUnresolvedIf _ _) fun _ => Keeps.pure _
  · refine Keeps.bind Keeps.get fun s => ?_
    split
    · exact Keeps.pure _
    · exact Keeps.bind (keeps_refuseIf _ _) fun _ => keeps_refuseIf _ _
  · exact Keeps.bind (Keeps.modify (logged_write _)) fun _ => Keeps.pure _

end DropSequence

end Sequences

end SafeMigrate
