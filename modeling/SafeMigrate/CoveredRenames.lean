import SafeMigrate.CoveredWrites
import SafeMigrate.SchemaRename
import SafeMigrate.StatementNames
import SafeMigrate.TypeRename

/-! The renames of relations, types and schemas move objects of many kinds under
one entry for the whole namespace. -/

namespace SafeMigrate

open Command AnalysisState

variable {cells : List Cell}

instance : Std.Refl SameOutsideNamespace := ⟨SameOutsideNamespace.refl⟩

instance : IsTrans AnalysisState SameOutsideNamespace := ⟨fun _ _ _ => .trans⟩

namespace AnalysisState

variable (s : AnalysisState)

theorem outside_setRelations (m : KeyedMap ObjectId RelationOverlay) :
    SameOutsideNamespace s (s.setRelations m) := ⟨rfl, rfl, rfl, rfl, rfl, rfl, rfl, rfl, rfl⟩

theorem outside_setSequences (m : KeyedMap ObjectId SequenceOverlay) :
    SameOutsideNamespace s (s.setSequences m) := ⟨rfl, rfl, rfl, rfl, rfl, rfl, rfl, rfl, rfl⟩

theorem outside_setTriggers (m : KeyedMap ObjectId TriggerOverlay) :
    SameOutsideNamespace s (s.setTriggers m) := ⟨rfl, rfl, rfl, rfl, rfl, rfl, rfl, rfl, rfl⟩

theorem outside_setConstraints (m : KeyedMap (ObjectId × String) ConstraintState) :
    SameOutsideNamespace s (s.setConstraints m) := ⟨rfl, rfl, rfl, rfl, rfl, rfl, rfl, rfl, rfl⟩

theorem outside_setPublications (m : KeyedMap String PublicationOverlay) :
    SameOutsideNamespace s (s.setPublications m) := ⟨rfl, rfl, rfl, rfl, rfl, rfl, rfl, rfl, rfl⟩

theorem outside_setFunctions (m : KeyedMap ObjectId FunctionOverlay) :
    SameOutsideNamespace s (s.setFunctions m) := ⟨rfl, rfl, rfl, rfl, rfl, rfl, rfl, rfl, rfl⟩

theorem outside_setExtensions (m : KeyedMap String ExtensionOverlay) :
    SameOutsideNamespace s (s.setExtensions m) := ⟨rfl, rfl, rfl, rfl, rfl, rfl, rfl, rfl, rfl⟩

theorem outside_setPendingValidation (p : Finset (ObjectId × String)) :
    SameOutsideNamespace s (s.setPendingValidation p) := ⟨rfl, rfl, rfl, rfl, rfl, rfl, rfl, rfl, rfl⟩

theorem outside_setGraph (g : DependencyGraph) : SameOutsideNamespace s (s.setGraph g) :=
  ⟨rfl, rfl, rfl, rfl, rfl, rfl, rfl, rfl, rfl⟩

theorem outside_renameBackedConstraint (oldId newId : ObjectId) (constraint : ConstraintState) :
    SameOutsideNamespace s (renameBackedConstraint oldId newId s constraint) := by
  unfold renameBackedConstraint
  dsimp only
  refine SameOutsideNamespace.trans ?_ (outside_setConstraints _ _)
  exact keeps_ite (fun _ => (s.outside_setConstraints _).trans (outside_setGraph _ _))
    fun _ => s.outside_setConstraints _

theorem outside_renameIndexNameIn (oldId newId : ObjectId) (entry : ObjectId × RelationOverlay) :
    SameOutsideNamespace s (renameIndexNameIn oldId newId s entry) := by
  unfold renameIndexNameIn
  split
  · exact keeps_ite (fun _ => s.outside_setRelations _) fun _ => .refl s
  · exact .refl s

theorem outside_renameIndexCatalogReferences (oldId newId : ObjectId) :
    SameOutsideNamespace s (s.renameIndexCatalogReferences oldId newId) := by
  unfold renameIndexCatalogReferences
  dsimp only
  generalize List.filter _ _ = constraints
  have hbacked : SameOutsideNamespace s
      (constraints.foldl (renameBackedConstraint oldId newId) s) :=
    keeps_foldl constraints
      (fun constraint _ t => t.outside_renameBackedConstraint oldId newId constraint) s
  refine keeps_ite (fun _ => hbacked) fun _ => hbacked.trans ?_
  exact keeps_foldl _ (fun entry _ t => t.outside_renameIndexNameIn oldId newId entry) _

theorem outside_moveIndex (move : ObjectId × ObjectId) : SameOutsideNamespace s (s.moveIndex move) :=
  ((s.outside_setGraph _).trans (outside_renameIndexCatalogReferences _ _ _)).trans
    (outside_setGraph _ _)

end AnalysisState

namespace Rename

variable {rename : Rename} (hc : .namespace ∈ cells)

section Relation

variable (rename)

theorem outside_moveRelation (s : AnalysisState) : SameOutsideNamespace s (rename.moveRelation s) := by
  unfold moveRelation
  dsimp only
  split <;> exact s.outside_setRelations _

theorem outside_moveTrigger (s : AnalysisState) (move : ObjectId × TriggerState) :
    SameOutsideNamespace s (rename.moveTrigger s move) :=
  ((s.outside_setTriggers _).trans (outside_setGraph _ _)).trans (outside_setGraph _ _)

include hc

theorem covered_updateOwnedSequence (s : AnalysisState) (id : ObjectId) :
    StaysCovered cells s (rename.updateOwnedSequence s id) := by
  have hopen : StaysCovered cells s _ := (s.covering_snapshotSequence id).logged.staysCovered
  refine IsTrans.trans _ _ _ hopen (SameOutsideNamespace.staysCovered ?_ hc)
  unfold updateOwnedSequence
  dsimp only
  split
  · exact outside_setSequences _ _
  · exact .refl _

theorem covered_moveSequence (s : AnalysisState) (move : ObjectId × ObjectId) :
    StaysCovered cells s (rename.moveSequence s move) := by
  have hopen : StaysCovered cells s _ := ((s.covering_snapshotSequence move.1).logged.trans
    ((s.snapshotSequence move.1).covering_snapshotSequence move.2).logged).staysCovered
  refine IsTrans.trans _ _ _ hopen (SameOutsideNamespace.staysCovered ?_ hc)
  unfold moveSequence
  dsimp only
  split
  · exact ((outside_setSequences _ _).trans (outside_setGraph _ _)).trans (outside_setGraph _ _)
  · exact outside_setSequences _ _

theorem covered_moveConstraint (s : AnalysisState) (constraint : String × ConstraintState) :
    StaysCovered cells s (rename.moveConstraint s constraint) := by
  have hold : LoggedCovering _ s (s.snapshotConstraint rename.oldName constraint.1) :=
    logged_of_records (.constraint rename.oldName constraint.1)
  have hnew : LoggedCovering _ (s.snapshotConstraint rename.oldName constraint.1) _ :=
    logged_of_records (.constraint rename.newName constraint.1)
  exact IsTrans.trans _ _ _ (hold.logged.trans hnew.logged).staysCovered
    ((outside_setConstraints _ _).staysCovered hc)

theorem covered_updatePublication (s : AnalysisState) (update : String × List Nat) :
    StaysCovered cells s (rename.updatePublication s update) := by
  have hopen : StaysCovered cells s _ :=
    (s.covering_snapshotPublication update.1).logged.staysCovered
  refine IsTrans.trans _ _ _ hopen (SameOutsideNamespace.staysCovered ?_ hc)
  unfold updatePublication
  dsimp only
  split
  · split
    · exact outside_setPublications _ _
    · exact .refl _
  · exact .refl _

omit hc in
theorem outside_moveEdges (renamesRelation renamesIndex : Bool) (s : AnalysisState) :
    SameOutsideNamespace s (rename.moveEdges renamesRelation renamesIndex s) := by
  unfold moveEdges
  dsimp only
  have halias : SameOutsideNamespace s (s.addAlias rename.oldName rename.newName) :=
    outside_setGraph _ _
  have hrelation := halias.trans (keeps_ite (p := renamesRelation = true)
    (fun _ => outside_setGraph (s.addAlias rename.oldName rename.newName)
      ((s.addAlias rename.oldName rename.newName).graph.propagateRelationRename rename.oldName
        rename.newName)) fun _ => .refl _)
  refine hrelation.trans (keeps_ite (fun _ => ?_) fun _ => .refl _)
  exact (outside_setGraph _ _).trans (outside_renameIndexCatalogReferences _ _ _)

omit hc in
theorem outside_moveBaseline (sequenceMoves indexMoves : List (ObjectId × ObjectId))
    (renamesRelation renamesIndex : Bool) (s : AnalysisState) :
    SameOutsideNamespace s
      (rename.moveBaseline sequenceMoves indexMoves renamesRelation renamesIndex s) := by
  unfold moveBaseline
  cases renamesRelation <;> exact ⟨rfl, rfl, rfl, rfl, rfl, rfl, rfl, rfl, rfl⟩

theorem covered_moveObjects (sequenceMoves indexMoves : List (ObjectId × ObjectId))
    (s : AnalysisState) :
    StaysCovered cells s.snapshotNamespace (rename.moveObjects sequenceMoves indexMoves s) := by
  unfold moveObjects
  dsimp only
  have hrelation := (rename.outside_moveRelation s.snapshotNamespace).staysCovered hc
  have hsequences := IsTrans.trans _ _ _ (IsTrans.trans _ _ _ hrelation (keeps_foldl
    (rename.ownedSequences (rename.moveRelation s.snapshotNamespace))
      (fun id _ t => rename.covered_updateOwnedSequence hc t id) _))
    (keeps_foldl sequenceMoves
      (fun move _ t => rename.covered_moveSequence hc t move) _)
  have hindexes := IsTrans.trans _ _ _ hsequences (keeps_foldl indexMoves
    (fun move _ t => (t.outside_moveIndex move).staysCovered hc) _)
  refine IsTrans.trans _ _ _ ?_ ((outside_setPendingValidation _ _).staysCovered hc)
  refine IsTrans.trans _ _ _ ?_ (keeps_foldl _
    (fun update _ t => rename.covered_updatePublication hc t update) _)
  refine IsTrans.trans _ _ _ ?_ (keeps_foldl _
    (fun constraint _ t => rename.covered_moveConstraint hc t constraint) _)
  exact IsTrans.trans _ _ _ hindexes (keeps_foldl _
    (fun move _ t => (rename.outside_moveTrigger t move).staysCovered hc) _)

omit hc in
theorem logged_execute (s : AnalysisState) : Logged s (rename.execute s) := by
  have hc : .namespace ∈ [Cell.namespace] := List.mem_singleton_self _
  refine s.covering_snapshotNamespace.close ?_
  have hmoved := rename.covered_moveObjects hc (rename.sequenceMoves s)
    (rename.indexMoves s) s
  refine IsTrans.trans _ _ _ hmoved (SameOutsideNamespace.staysCovered ?_ hc)
  exact (rename.outside_moveEdges _ _ _).trans (rename.outside_moveBaseline _ _ _ _ _)

variable {rename}

omit hc in
theorem logged_command : Keeps Logged rename.command :=
  .bind rename.keeps_check fun _ => .bind (.modify rename.logged_execute) fun _ => .pure _

end Relation

end Rename

section Types

variable (s : AnalysisState) (text : SqlText) (rename : Rename)

namespace AnalysisState

theorem outside_moveRoutine (move : RoutineMove) :
    SameOutsideNamespace s (s.moveRoutine rename move) := by
  unfold moveRoutine
  split
  · exact keeps_ite (fun _ => (s.outside_setFunctions _).trans (outside_setGraph _ _))
      fun _ => s.outside_setFunctions _
  · exact s.outside_setFunctions _

theorem outside_moveRoutines (moves : List RoutineMove) :
    SameOutsideNamespace s (moves.foldl (fun s move => s.moveRoutine rename move) s) :=
  keeps_foldl moves (fun move _ t => outside_moveRoutine t rename move) s

/-- Everything that a type rename retypes lies under its namespace entry. -/
theorem logged_renameType : Logged s (s.renameType text rename) := by
  refine s.covering_snapshotNamespace.close (SameOutsideNamespace.staysCovered ?_
    (List.mem_singleton_self _))
  unfold renameType
  extract_lets moves start retyped moved
  have hretyped : SameOutsideNamespace s.snapshotNamespace retyped :=
    ⟨rfl, rfl, rfl, rfl, rfl, rfl, rfl, rfl, rfl⟩
  have hmoved : SameOutsideNamespace s.snapshotNamespace moved :=
    hretyped.trans (outside_moveRoutines retyped rename moves)
  exact hmoved.trans (outside_setExtensions moved _)

theorem logged_applyRenameType : Logged s (s.applyRenameType text rename).2 := by
  have htaint := s.logged_taint .unknownObjectState .chain
  unfold applyRenameType
  split
  all_goals split_ifs <;> first | exact .refl s | exact htaint | skip
  all_goals split <;> first | exact .refl s | exact s.logged_renameType text rename

theorem logged_applyRenameDomain : Logged s (s.applyRenameDomain text rename).2 := by
  unfold applyRenameDomain
  split
  · exact s.logged_applyRenameType text rename
  · exact .refl s
  · exact .refl s
  · exact .refl s
  · exact s.logged_taint _ _

end AnalysisState

end Types

section Schemas

variable (s : AnalysisState) (oldName newName : String)

namespace AnalysisState

theorem logged_renameSchemaNamespace :
    Logged s (s.renameSchemaNamespace oldName newName) := by
  refine s.covering_snapshotNamespace.close (SameOutsideNamespace.staysCovered ?_
    (List.mem_singleton_self _))
  exact ⟨rfl, rfl, rfl, rfl, rfl, rfl, rfl, rfl, rfl⟩

theorem logged_applyAlterSchemaRename :
    Logged s (s.applyAlterSchemaRename oldName newName).2 := by
  have hpath : Logged s s.snapshotSearchPath := (logged_of_records .searchPath).logged
  have hrename := hpath.trans (logged_renameSchemaNamespace _ oldName newName)
  have htaint := s.logged_taint .unknownObjectState .chain
  unfold applyAlterSchemaRename
  cases s.schemaLookup oldName <;> cases s.schemaLookup newName <;>
    first | exact .refl s | exact htaint | exact hrename

end AnalysisState

end Schemas

end SafeMigrate
