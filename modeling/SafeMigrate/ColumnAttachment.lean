import SafeMigrate.ColumnAlterations
import SafeMigrate.DefaultPartitions

/-! `ATTACH` and `DETACH PARTITION` against the order of partitioned tables: a
child that is accepted as compatible mirrors its parent from then on. -/

namespace SafeMigrate

open Command AnalysisState MirroredLinks

namespace AlterPartition

variable {text : PartitionText} {alter : AlterPartition} {s t : AnalysisState}

section Detach

theorem quiet_invalidate (s : AnalysisState) (root : ObjectId) :
    Quiet s (s.invalidateDescendantPartitionPredicates root) := by
  have hforget (s : AnalysisState) (id : ObjectId) : Quiet s (s.forgetPartitionPredicate id) :=
    .updateRelation s id fun _ => rfl
  exact keeps_foldl _ (fun id _ s => hforget s id) s

theorem quiet_retainCheck (s : AnalysisState) (parent child : ObjectId) :
    Quiet s (s.retainCheck text parent child) := by
  have hwrites : KeepsObjectWrites ⟨"", ""⟩ none Quiet := keepsObjectWrites_records
  unfold retainCheck
  split
  · exact Std.Refl.refl s
  · exact KeepsEvidence.taint s _ _
  · unfold registerRetainedPartitionCheck
    split
    · exact KeepsEvidence.taint s _ _
    · exact IsTrans.trans _ _ _ (hwrites.putConstraint s _) (hwrites.addGraphEdge _ (.of_kind rfl rfl))

theorem quiet_removeTriggerClones (s : AnalysisState) (parent child : ObjectId) :
    Quiet s (s.removePartitionTriggerClones parent child) := by
  have hclone (s : AnalysisState) (clone : ObjectId × String) :
      Quiet s (removeTriggerClone child s clone) := by
    unfold removeTriggerClone
    refine IsTrans.trans _ _ _ (quiet_tombstoneTrigger s clone.1) (IsTrans.trans _ _ _ ?_
      (AnalysisState.Records.retainEdges _ _))
    exact AnalysisState.Records.modifyRelation _ child fun _ => rfl
  unfold removePartitionTriggerClones
  dsimp only
  split
  · exact Std.Refl.refl s
  · exact IsTrans.trans _ _ _ (AnalysisState.Records.pushUndo s _) (IsTrans.trans _ _ _
      (.pushUndo _ _) (keeps_foldl _ (fun clone _ s => hclone s clone) _))

theorem quiet_detachPartition (s : AnalysisState) (parent child : ObjectId)
    (mode : DetachPartitionMode) : Quiet s (s.detachPartition text parent child mode) := by
  unfold detachPartition
  dsimp only
  refine IsTrans.trans _ _ _ ?_ (quiet_removeTriggerClones _ _ _)
  refine IsTrans.trans _ _ _ ?_ (AnalysisState.Records.updateRelation _ child fun _ => rfl)
  refine IsTrans.trans _ _ _ ?_ (quiet_invalidate _ _)
  exact IsTrans.trans _ _ _ (quiet_retainGraphEdges s _)
    (keeps_ite (fun _ => quiet_retainCheck _ _ _) fun _ => Std.Refl.refl _)

theorem quiet_detachIndexPartitions (s : AnalysisState) (table : ObjectId) :
    Quiet s (s.detachIndexPartitionsOfTable table) := by
  unfold detachIndexPartitionsOfTable
  exact keeps_ite (fun _ => Std.Refl.refl s) fun _ => quiet_retainGraphEdges s _

theorem quiet_detach (child : ObjectRef) (mode : DetachPartitionMode) :
    Keeps Quiet (alter.detach text child mode) :=
  Keeps.bind (Keeps.modify fun s => quiet_detachIndexPartitions s _) fun _ =>
    Keeps.bind (Keeps.modify fun s => .pushUndo s _) fun _ =>
      Keeps.bind (Keeps.modify fun s => quiet_detachPartition s _ _ _) fun _ => Keeps.pure _

end Detach

section Attach

theorem records_attachPartition (s : AnalysisState) (parent child : ObjectId)
    (bound : Option String) : AnalysisState.Records child (some parent) s
      (s.attachPartition text parent child bound) := by
  have hwrites : KeepsObjectWrites child (some parent) (AnalysisState.Records child (some parent)) :=
    keepsObjectWrites_records
  have hforget (s : AnalysisState) (id : ObjectId) :
      AnalysisState.Records child (some parent) s (s.forgetPartitionPredicate id) :=
    .updateRelation s id fun _ => rfl
  have hrefresh (s : AnalysisState) : AnalysisState.Records child (some parent) s
      (s.refreshDefaultPartitionConstraints text parent) := by
    have hmember (s : AnalysisState) (id : ObjectId) (constraint : Option String) :
        AnalysisState.Records child (some parent) s (s.modifyRelation id fun relation =>
          { relation with partitionConstraint := constraint }) := .modifyRelation s id fun _ => rfl
    exact keeps_foldl _ (fun member _ s => hmember s member _) s
  unfold attachPartition
  dsimp only
  refine IsTrans.trans _ _ _ ?_ (hwrites.ensurePartitionIndexesAndConstraints _ _ _)
  refine IsTrans.trans _ _ _ ?_ (hrefresh _)
  refine IsTrans.trans _ _ _ ?_ (AnalysisState.Records.updateRelation _ child fun _ => rfl)
  refine IsTrans.trans _ _ _ ?_ (keeps_foldl _ (fun id _ s => hforget s id) _)
  exact hwrites.addGraphEdge s ⟨rfl, fun _ => ⟨rfl, rfl⟩⟩

theorem records_attach (child : ObjectRef) (bound : Option String) :
    Keeps (AnalysisState.Records child.id (some alter.id.id)) (alter.attach text child bound) := by
  have hwrites : KeepsObjectWrites child.id (some alter.id.id)
      (AnalysisState.Records child.id (some alter.id.id)) := keepsObjectWrites_records
  refine Keeps.bind (Keeps.modify fun s => .pushUndo s _) fun _ => Keeps.bind Keeps.get fun _ =>
    Keeps.bind (keeps_refuseIf _ _) fun _ =>
      Keeps.bind (Keeps.modify fun s => records_attachPartition s _ _ _) fun _ =>
        Keeps.bind (hwrites.cloneRowTriggersToPartition _ rfl) fun _ => Keeps.pure _

/-- A child that passes the checks is compatible, or was left open by the catalog. -/
theorem checkAttach_ok {child : ObjectRef} {strategy : Option String} {a : Unit}
    (h : (alter.checkAttach text child strategy).run.run s = (.ok a, t)) :
    t = s ∧ s.partitionAttachmentIsCompatible text alter.id child = .ok true ∨
      t = s.taint .catalogCoverageIncomplete .chain := by
  obtain ⟨_, u, hchild, hrest⟩ := exists_run_of_bind h
  obtain rfl := isCheck_ensureRelationTarget _ _ _ _ s _ u hchild
  obtain ⟨v, w, hget, hparent⟩ := exists_run_of_bind hrest
  cases hget
  split at hparent
  · cases hparent
  · obtain ⟨_, v, hstrategy, hcycle⟩ := exists_run_of_bind hparent
    obtain rfl := isCheck_refuseIf _ _ _ _ v hstrategy
    obtain ⟨_, w, hacyclic, hfound⟩ := exists_run_of_bind hcycle
    obtain rfl := isCheck_refuseIf _ _ _ _ w hacyclic
    obtain ⟨_, x, hattached, hcompatible⟩ := exists_run_of_bind hfound
    obtain rfl := isCheck_refuseFound _ _ _ _ x hattached
    split at hcompatible
    · rename_i hverdict
      cases hcompatible
      exact Or.inl ⟨rfl, hverdict⟩
    · cases hcompatible
      exact Or.inr rfl
    · cases hcompatible

/-- Only present relations are compatible. -/
theorem present_of_compatible {parentId childId : ObjectRef}
    (h : s.partitionAttachmentIsCompatible text parentId childId = .ok true) :
    ∃ parent child, s.presentRelation parentId.id = some parent ∧
      s.presentRelation childId.id = some child := by
  unfold partitionAttachmentIsCompatible at h
  cases hparent : s.presentRelation parentId.id with
  | none =>
    rw [hparent] at h
    cases h
  | some parent =>
    cases hchild : s.presentRelation childId.id with
    | none =>
      rw [hparent, hchild] at h
      cases h
    | some child => exact ⟨parent, child, rfl, rfl⟩

/-- A new link between relations that are compatible keeps the order. -/
theorem settled_link {child : ObjectRef} (hs : s.Settled text)
    (hcompatible : s.partitionAttachmentIsCompatible text alter.id child = .ok true)
    (h : AnalysisState.Records child.id (some alter.id.id) s t) : t.Settled text := by
  obtain ⟨parent, mirror, hparent, hmirror⟩ := present_of_compatible hcompatible
  have hsource : s.columnNet.objects alter.id.id = some parent.tableColumns :=
    congrArg (Option.map RelationState.tableColumns) hparent
  have hchild : s.columnNet.objects child.id = some mirror.tableColumns :=
    congrArg (Option.map RelationState.tableColumns) hmirror
  have hlinks (link : ObjectId × ObjectId) (hlink : link ∈ t.columnNet.links) :
      link ∈ s.columnNet.links ∨ link = (child.id, alter.id.id) := by
    obtain ⟨e, he, hkind, rfl⟩ := mem_columnLinks.mp hlink
    rcases h.edges e he with hold | hnew
    · exact Or.inl (mem_columnLinks.mpr ⟨e, hold, hkind, rfl⟩)
    · obtain ⟨hdependent, hreferenced⟩ := hnew.2 hkind
      exact Or.inr (Prod.ext hdependent (Option.some.inj hreferenced))
  refine hs.of_keeps h.certainty fun horder => ⟨fun e he => ?_, ?_, fun k table hk => ?_, ?_⟩
  · rcases h.edges e he with hold | hnew
    · exact horder.aliases e hold
    · exact hnew.1
  · refine horder.placed.link h.objects hlinks ?_ ?_
    · rw [hchild]
      rfl
    · rw [hsource]
      rfl
  · exact horder.distinct k table (by rwa [h.objects] at hk)
  · refine horder.mirrored.link h.objects hlinks fun source mirror' hsource' hmirror' => ?_
    rw [hsource] at hsource'
    rw [hchild] at hmirror'
    cases hsource'
    cases hmirror'
    intro hcomplete hcomplete'
    exact sameColumns_of_compatible hcompatible hparent hmirror
      (horder.distinct _ _ hsource hcomplete) (horder.distinct _ _ hchild hcomplete')

theorem tainted_of_keeps (h : KeepsCertainty s t) (hs : s.confidence = .tainted) :
    t.confidence = .tainted := by
  rcases h with htainted | ⟨-, hconfidence⟩
  · exact htainted
  · exact hconfidence.trans hs

theorem settled_attach {child : ObjectRef} {strategy bound : Option String} (hs : s.Settled text) :
    ((do
      alter.checkAttach text child strategy
      alter.attach text child bound : Statement MutationResult).after s).Settled text := by
  refine hs.bind (keeps_checkAttach child strategy) fun _ t hcheck _ ht => ?_
  have hattached : AnalysisState.Records child.id (some alter.id.id) t
      ((alter.attach text child bound).after t) := records_attach child bound t
  rcases checkAttach_ok hcheck with ⟨rfl, hcompatible⟩ | htaint
  · exact settled_link ht hcompatible hattached
  · refine Or.inl (tainted_of_keeps hattached.certainty ?_)
    rcases hs with htainted | ⟨hrecords, -⟩
    · rw [htaint]
      exact tainted_of_keeps (keepsCertainty_taint s _ _) htainted
    · rw [htaint]
      exact taint_of_no_evidence hrecords _ _

end Attach

/-- Both partition actions keep partitioned tables in order, whatever their outcome. -/
theorem settled_command (hs : s.Settled text) : ((alter.command text).after s).Settled text := by
  refine hs.bind Keeps.get fun _ _ hget _ hsettled => ?_
  cases hget
  refine hsettled.bind (keeps_refuseIf _ _) fun _ u _ _ hsettled => ?_
  refine hsettled.bind keeps_checkTarget fun _ v _ _ hsettled => ?_
  split
  · exact settled_attach hsettled
  · refine hsettled.bind (keeps_checkDetach _ _) fun _ w _ _ hsettled => ?_
    exact hsettled.loses (quiet_detach _ _ w).loses

end AlterPartition

end SafeMigrate
