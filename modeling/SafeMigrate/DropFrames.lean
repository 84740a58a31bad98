import SafeMigrate.Transaction
import SafeMigrate.Statement

/-! What holds of `DROP TABLE` and of the actions at the end of a transaction
because it holds of each single write they make. -/

namespace SafeMigrate

open Command

/-- A relation that every single write of `DROP TABLE` keeps. -/
class KeepsDrop (R : AnalysisState → AnalysisState → Prop) : Prop extends KeepsEvidence R where
  tombstoneRelation (s : AnalysisState) (id : ObjectId) : R s (s.tombstoneRelation id)
  tombstoneSequence (s : AnalysisState) (id : ObjectId) : R s (s.tombstoneSequence id)
  tombstoneTrigger (s : AnalysisState) (id : ObjectId) : R s (s.tombstoneTrigger id)
  retainGraphEdges (s : AnalysisState) (keep : DependencyEdge → Bool) :
    R s (s.retainGraphEdges keep)
  removeConstraint (s : AnalysisState) (key : ObjectId × String) : R s (s.removeConstraint key)
  setPendingValidation (s : AnalysisState) (p : Finset (ObjectId × String)) :
    R s (s.snapshotPendingValidation.setPendingValidation p)
  setBaselineForeignKeys (s : AnalysisState) (b : Finset (ObjectId × String)) :
    R s (s.snapshotBaselineForeignKeys.setBaselineForeignKeys b)
  retainPublicationObjects (s : AnalysisState) (update : String × List PublicationObjectFact) :
    R s (s.retainPublicationObjects update)
  setRelations (s : AnalysisState) (m : KeyedMap ObjectId RelationOverlay) :
    R s (s.setRelations m)

namespace AnalysisState

variable {R : AnalysisState → AnalysisState → Prop} [KeepsDrop R] (s : AnalysisState)

theorem keeps_removeDroppedConstraints (droppedRelations : List ObjectId)
    (droppedConstraints : List (ObjectId × String)) :
    R s (s.removeDroppedConstraints droppedRelations droppedConstraints) := by
  unfold removeDroppedConstraints
  refine IsTrans.trans _ _ _ (keeps_foldl _ (fun key _ s => KeepsDrop.removeConstraint s key) s)
    (IsTrans.trans _ _ _ (keeps_ite (fun _ => ?_) fun _ => Std.Refl.refl _)
      (keeps_ite (fun _ => ?_) fun _ => Std.Refl.refl _))
  · exact KeepsDrop.setPendingValidation _ _
  · exact KeepsDrop.setBaselineForeignKeys _ _

theorem keeps_dropTableRemainder (resolve : ObjectId → ObjectId) (dropped : CascadeResult) :
    R s (s.dropTableRemainder resolve dropped) := by
  unfold dropTableRemainder
  dsimp only
  refine IsTrans.trans _ _ _ ?_ (KeepsDrop.retainGraphEdges _ _)
  refine IsTrans.trans _ _ _ ?_
    (keeps_foldl _ (fun update _ s => KeepsDrop.retainPublicationObjects s update) _)
  refine IsTrans.trans _ _ _ ?_ (KeepsDrop.retainGraphEdges _ _)
  refine IsTrans.trans _ _ _ ?_ (KeepsDrop.retainGraphEdges _ _)
  refine IsTrans.trans _ _ _ ?_ (keeps_foldl _ (fun id _ s => KeepsDrop.tombstoneTrigger s id) _)
  refine IsTrans.trans _ _ _ ?_ (keeps_removeDroppedConstraints _ _ _)
  exact keeps_foldl _ (fun id _ s => KeepsDrop.tombstoneSequence s id) s

theorem keeps_tombstoneRelations (ids : List ObjectId) : R s (ids.foldl tombstoneRelation s) :=
  keeps_foldl _ (fun id _ s => KeepsDrop.tombstoneRelation s id) s

theorem keeps_dropTableCascade (resolve : ObjectId → ObjectId) (closure : CascadeResult) :
    R s (s.dropTableCascade resolve closure) := by
  unfold dropTableCascade
  dsimp only
  refine IsTrans.trans _ _ _ ?_ (IsTrans.trans _ _ _ (keeps_tombstoneRelations _ _)
    (IsTrans.trans _ _ _ (KeepsDrop.retainGraphEdges _ _) (keeps_dropTableRemainder _ _ _)))
  exact keeps_ite (fun _ => KeepsEvidence.taint s _ _) fun _ => Std.Refl.refl s

theorem keeps_dropTableRestrict (resolve : ObjectId → ObjectId) (roots : List ObjectId) :
    R s (s.dropTableRestrict resolve roots) :=
  IsTrans.trans _ _ _ (keeps_tombstoneRelations s roots)
    (IsTrans.trans _ _ _ (KeepsDrop.retainGraphEdges _ _) (keeps_dropTableRemainder _ _ _))

theorem keeps_taintIncomplete (incomplete : Bool) : R s (s.taintIncomplete incomplete) :=
  keeps_ite (fun _ => KeepsEvidence.taint s _ _) fun _ => Std.Refl.refl s

theorem keeps_dropPresentTables (targets : List ObjectId) (displayNames : String)
    (cascade : Bool) (precomputedCascade : Option CascadeResult) :
    R s (s.dropPresentTables targets displayNames cascade precomputedCascade).2 := by
  unfold dropPresentTables
  dsimp only
  split
  · split
    · exact KeepsEvidence.taint s _ _
    · exact IsTrans.trans _ _ _ (keeps_dropTableCascade s _ _) (keeps_taintIncomplete _ _)
  · split
    · exact Std.Refl.refl s
    · exact IsTrans.trans _ _ _ (keeps_dropTableRestrict s _ _) (keeps_taintIncomplete _ _)

theorem keeps_applyDropTable (dropTable : DropTable) (precomputedCascade : Option CascadeResult) :
    R s (s.applyDropTable dropTable precomputedCascade).2 := by
  unfold applyDropTable
  split
  · exact Std.Refl.refl s
  · split
    · exact Std.Refl.refl s
    · split
      · exact Std.Refl.refl s
      · exact KeepsEvidence.taint s _ _
      · exact KeepsEvidence.taint s _ _
      · exact Std.Refl.refl s
      · exact keeps_dropPresentTables s _ _ _ _

theorem keeps_applyOnCommitActions (inferred : ObjectId → Bool) :
    R s (s.applyOnCommitActions inferred) := by
  unfold applyOnCommitActions
  refine keeps_foldl _ (fun action _ s => ?_) s
  unfold applyOnCommitAction
  split
  · exact Std.Refl.refl s
  · split
    · exact KeepsDrop.setRelations s _
    · exact Std.Refl.refl s
  · exact keeps_applyDropTable s _ _

end AnalysisState

end SafeMigrate
