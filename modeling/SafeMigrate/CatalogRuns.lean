import SafeMigrate.CoveredObjects
import SafeMigrate.CoveredRenames
import SafeMigrate.CoveredRoles
import SafeMigrate.CoveredTables
import SafeMigrate.CoveredTypes
import SafeMigrate.ColumnRuns
import SafeMigrate.SavepointRuns
import SafeMigrate.SettingRuns

/-! Runs of catalog statements of every kind, with transaction control between
them. All but two record what they change, so the way back to a savepoint or to
the start of a transaction restores the catalog whatever else was run. -/

namespace SafeMigrate

open NestedUndo AnalysisState

/-- What the parsers of texts find, as the statements need it. -/
structure CatalogText where
  columns : ColumnText
  types : TypeText

inductive CatalogStatement
  | createTable (create : CreateTable)
  | dropTable (drop : DropTable) (precomputedCascade : Option CascadeResult)
  | renameRelation (rename : Rename)
  | alterColumn (alter : AlterColumn)
  | alterNotNull (alter : AlterNotNull)
  | alterPartition (alter : AlterPartition)
  | createTrigger (create : CreateTrigger)
  | dropTrigger (drop : DropTrigger)
  | renameTrigger (rename : RenameTrigger)
  | publication (statement : PublicationStatement)
  | createSequence (create : CreateSequence)
  | alterSequence (alter : AlterSequence)
  | dropSequence (drop : DropSequence)
  | createType (create : CreateType)
  | createDomain (create : CreateDomain)
  | addDomainConstraint (domain : ObjectRef) (constraint : DomainConstraintFact)
  | renameType (rename : Rename)
  | renameDomain (rename : Rename)
  | renameSchema (oldName newName : String)
  | role (statement : RoleStatement)
  | setting (change : SettingChange)

namespace AnalysisState

/-- `apply_inner`. -/
def applyCatalogStatement (s : AnalysisState) (text : CatalogText) :
    CatalogStatement → MutationResult × AnalysisState
  | .createTable create => s.applyCreateTable text.columns.toSqlText create
  | .dropTable drop precomputedCascade => s.applyDropTable drop precomputedCascade
  | .renameRelation rename => s.applyRenameRelation rename
  | .alterColumn alter => s.applyAlterColumn text.columns alter
  | .alterNotNull alter => s.applyAlterNotNull text.columns.toSqlText alter
  | .alterPartition alter => s.applyAlterPartition text.columns.toPartitionText alter
  | .createTrigger create => create.command.outcome s
  | .dropTrigger drop => drop.command.outcome s
  | .renameTrigger rename => rename.command.outcome s
  | .publication statement => s.applyPublicationStatement statement
  | .createSequence create => create.command.outcome s
  | .alterSequence alter => alter.command.outcome s
  | .dropSequence drop => s.applyDropSequence drop
  | .createType create => (create.apply text.types).outcome s
  | .createDomain create => (create.apply text.types).outcome s
  | .addDomainConstraint domain constraint => (SafeMigrate.addDomainConstraint domain constraint).outcome s
  | .renameType rename => s.applyRenameType text.columns.toSqlText rename
  | .renameDomain rename => s.applyRenameDomain text.columns.toSqlText rename
  | .renameSchema oldName newName => s.applyAlterSchemaRename oldName newName
  | .role statement => s.applyRoleStatement statement
  | .setting change => s.applySettingChange change

section Settings

variable (s : AnalysisState)

theorem logged_applySearchPath (change : SearchPathChange) :
    Logged s (s.applySearchPath change).2 := by
  unfold applySearchPath
  split
  · exact Logged.refl s
  · obtain ⟨target, isLocal⟩ := change
    cases target with
    | default =>
      dsimp only
      rw [s.defaultSearchPathTemplate_snapshotSearchPath]
      exact (s.assigns_setSearchPathTemplate isLocal s.defaultSearchPathTemplate).logged
    | schemas schemas => exact (s.assigns_setSearchPathTemplate isLocal schemas).logged

theorem logged_applyTimeoutSetting (change : TimeoutSettingChange) :
    Logged s (s.applyTimeoutSetting change).2 := by
  unfold applyTimeoutSetting
  split
  · exact Logged.refl s
  · obtain ⟨setting, value, isLocal⟩ := change
    have hassigns (next : Option Nat) := (s.assigns_setTimeout isLocal next setting).logged
    cases value with
    | default => exact hassigns _
    | milliseconds milliseconds => exact hassigns _
    | current => exact hassigns _
    | invalid reason => exact Logged.refl s

theorem logged_applyResetSettings (target : ResetSettingTarget) :
    Logged s (s.applyResetSettings target).2 := by
  have hpath := s.assigns_resetSearchPath.logged
  cases target with
  | searchPath => exact hpath
  | lockTimeout => exact (s.assigns_resetTimeouts .lockTimeout nofun fun v => rfl).logged
  | statementTimeout => exact (s.assigns_resetTimeouts .statementTimeout nofun fun v => rfl).logged
  | all => exact hpath.trans (s.resetSearchPath.assigns_resetTimeouts .all nofun fun v => rfl).logged

theorem logged_applySwitchRole (role : Option RoleFact) (isLocal isSessionAuth : Bool) :
    Logged s (s.applySwitchRole role isLocal isSessionAuth).2 := by
  unfold applySwitchRole
  split
  · exact Logged.refl s
  · split
    · exact s.logged_taint _ _
    · next target htarget =>
      dsimp only
      split
      · exact Logged.refl s
      · -- the evidence of an unproven membership comes before the snapshots
        generalize hu : (if s.switchAuthorized role isSessionAuth target.1 = none then
          s.taint .catalogCoverageIncomplete .chain else s) = u
        have hlogged : Logged s u :=
          hu ▸ Logged.ite (fun _ => s.logged_taint _ _) fun _ => Logged.refl s
        have hsame : SameSession s u :=
          hu ▸ Command.keeps_ite (fun _ => SameSession.taint s _ _) fun _ => Std.Refl.refl s
        have hcovered : LoggedCovering ([] ++ [.roleContext, .searchPath]) s
            u.snapshotRoleContext.snapshotSearchPath.snapshotConfidence :=
          LoggedCovering.trans hlogged u.covering_snapshotRoles
        obtain ⟨f, -, hassigns⟩ := assigns_switchRole s role isLocal isSessionAuth htarget hcovered
          (hsame.trans u.sameSession_snapshotRoles)
        exact hassigns.logged

theorem logged_applySettingChange (change : SettingChange) :
    Logged s (s.applySettingChange change).2 := by
  cases change with
  | searchPath change => exact s.logged_applySearchPath change
  | timeout change => exact s.logged_applyTimeoutSetting change
  | reset target => exact s.logged_applyResetSettings target
  | switchRole role isLocal isSessionAuth => exact s.logged_applySwitchRole role isLocal isSessionAuth

end Settings

end AnalysisState

/-- The two that do not record all they write: a temporary table also changes the
search path (`note_temp_object_created`), and `ATTACH PARTITION` refreshes the other
default partitions of its parent (`refresh_default_partition_constraints`). -/
def CatalogStatement.IsRecorded (s : AnalysisState) : CatalogStatement → Prop
  | .createTable create => create.persistence ≠ .temporary
  | .alterPartition alter => alter.RefreshesOnlyItself s
  | _ => True

namespace AnalysisState

variable (s : AnalysisState) (text : CatalogText)

theorem logged_applyPublicationStatement (statement : PublicationStatement) :
    Logged s (s.applyPublicationStatement statement).2 := by
  cases statement with
  | create fact => exact (s.resolveCreatePublication fact).logged_command.outcome s
  | alter fact => exact (s.resolveAlterPublication fact).logged_command.outcome s
  | drop fact => exact fact.logged_command.outcome s

theorem logged_applyCatalogStatement {statement : CatalogStatement} (h : statement.IsRecorded s) :
    Logged s (s.applyCatalogStatement text statement).2 := by
  cases statement with
  | createTable create => exact (CreateTable.logged_command h).outcome s
  | dropTable drop precomputedCascade => exact s.logged_applyDropTable drop precomputedCascade
  | renameRelation rename => exact Rename.logged_command.outcome s
  | alterColumn alter => exact AlterColumn.logged_command.outcome s
  | alterNotNull alter => exact AlterNotNull.logged_command.outcome s
  | alterPartition alter => exact AlterPartition.logged_command.outcome s h
  | createTrigger create => exact create.logged_command.outcome s
  | dropTrigger drop => exact drop.logged_command.outcome s
  | renameTrigger rename => exact rename.logged_command.outcome s
  | publication statement => exact s.logged_applyPublicationStatement statement
  | createSequence create => exact create.logged_command.outcome s
  | alterSequence alter => exact alter.logged_command.outcome s
  | dropSequence drop => exact drop.logged_command.outcome s
  | createType create => exact CreateType.logged_apply.outcome s
  | createDomain create => exact CreateDomain.logged_apply.outcome s
  | addDomainConstraint domain constraint =>
    exact (logged_addDomainConstraint domain constraint).outcome s
  | renameType rename => exact s.logged_applyRenameType _ rename
  | renameDomain rename => exact s.logged_applyRenameDomain _ rename
  | renameSchema oldName newName => exact s.logged_applyAlterSchemaRename oldName newName
  | role statement => exact logged_applyRoleStatement s statement
  | setting change => exact s.logged_applySettingChange change

end AnalysisState

inductive CatalogStep
  | control (control : TransactionControl)
  | statement (statement : CatalogStatement)

/-- A step that records what it writes and does not end the transaction. -/
def CatalogStep.IsRecorded (s : AnalysisState) : CatalogStep → Prop
  | .control c => c.endsTransaction = false
  | .statement change => change.IsRecorded s

namespace AnalysisState

/-- `AnalysisState::apply`. -/
def applyCatalogStep (s : AnalysisState) (inferred : ObjectId → Bool) (text : CatalogText) :
    CatalogStep → MutationResult × AnalysisState
  | .control control => s.applyTransactionControl inferred control
  | .statement statement =>
    if s.transactionAborted then (.notExecuted, s)
    else match s.applyCatalogStatement text statement with
      | (.conflict kind, s) =>
        (.conflict kind, if s.transactions.isEmpty then s else s.setTransactionAborted true)
      | result => result

end AnalysisState

/-- States reached by recorded steps that leave the outer `depth` frames open. -/
inductive CatalogRun (inferred : ObjectId → Bool) (text : CatalogText) (depth : Nat)
    (s : AnalysisState) : AnalysisState → Prop
  | start : CatalogRun inferred text depth s s
  | step {t : AnalysisState} {step : CatalogStep} (before : CatalogRun inferred text depth s t)
      (hrecorded : step.IsRecorded t)
      (hopen : depth ≤ (t.applyCatalogStep inferred text step).2.transactions.length) :
      CatalogRun inferred text depth s (t.applyCatalogStep inferred text step).2

section Runs

variable {inferred : ObjectId → Bool} {text : CatalogText} {s t u : AnalysisState}

theorem nested_applyCatalogStatement {statement : CatalogStatement} (h : statement.IsRecorded s) :
    (s.applyCatalogStep inferred text (.statement statement)).2.nested =
      s.nested.write (s.applyCatalogStep inferred text (.statement statement)).2.logged := by
  have hlogged := (s.logged_applyCatalogStatement text h).nested
  unfold applyCatalogStep
  dsimp only
  split
  · rfl
  · rcases hresult : s.applyCatalogStatement text statement with ⟨result, v⟩
    rw [hresult] at hlogged
    cases result with
    | conflict kind =>
      dsimp only
      split
      · exact hlogged
      · exact hlogged
    | applied => exact hlogged
    | unresolved cause => exact hlogged
    | noOp => exact hlogged
    | notExecuted => exact hlogged

/-- On the snapshots of the open frames every step is one of the nested machine. -/
theorem nested_applyCatalogStep {step : CatalogStep} (h : step.IsRecorded s) :
    Nested.Step s.nested (s.applyCatalogStep inferred text step).2.nested := by
  cases step with
  | control control =>
    have hlive : LiveStep inferred s _ := .control s h
    exact hlive.nested
  | statement statement =>
    rw [nested_applyCatalogStatement h]
    exact .write _ _

theorem CatalogRun.nested {depth : Nat} (h : CatalogRun inferred text depth s t) :
    Nested.LiveRun depth s.nested t.nested := by
  induction h with
  | start => exact Relation.ReflTransGen.refl
  | step before hrecorded hopen ih =>
    refine ih.tail ⟨nested_applyCatalogStep hrecorded, ?_⟩
    rwa [nested_saved_length]

end Runs

open AnalysisState in
/-- Whatever recorded statements, settings and inner savepoints come after it, the
way back to a savepoint leaves what it found, and so does the end of a
transaction that is given up. -/
theorem catalog_run_is_undone (inferred : ObjectId → Bool) (text : CatalogText)
    (s s₁ u : AnalysisState) :
    (∀ name, s.applyTransactionControl inferred (.savepoint name) = (.applied, s₁) →
      CatalogRun inferred text (s.transactions.length + 1) s₁ u →
      NoneInside name (s.transactions.length + 1) u →
      ∃ t, u.applyTransactionControl inferred (.rollbackToSavepoint name) = (.applied, t) ∧
        t.logged = s₁.logged ∧ t.nested = s₁.nested) ∧
    (∀ control, control.opensTransaction = true →
      s.applyTransactionControl inferred control = (.applied, s₁) →
      CatalogRun inferred text 1 s₁ u →
      ∀ chain, ∃ t, u.applyTransactionControl inferred (.rollback chain) = (.applied, t) ∧
        t.logged = s₁.logged) := by
  refine ⟨fun name hset hrun hnone => ?_, fun control hopens hopen hrun chain => ?_⟩
  · obtain ⟨t, happ, hn⟩ := rollbackToSavepoint_of_nested hset hrun.nested hnone
    exact ⟨t, happ, logged_congr hn, hn⟩
  · have hsaved := nested_opensTransaction hopens hopen fun hc => begin_without_frames (hc ▸ hopen)
    have hone : s₁.transactions.length = 1 := by
      rw [← s₁.nested_saved_length, hsaved]
      rfl
    have hne : s₁.transactions ≠ [] := List.ne_nil_of_length_eq_add_one hone
    have hcurrent : s₁.nested.rollback.current = s₁.logged := by
      simp [Nested.rollback, hsaved]
    rw [← hcurrent]
    exact rollback_of_nested inferred (hone ▸ hrun.nested) hne chain

def catalogText : CatalogText := ⟨columnText, builtinText⟩

/-- `CREATE ROLE app` inside a savepoint of an open transaction. -/
def insideSavepoint : AnalysisState :=
  (openTransaction.applyTransactionControl (fun _ => false) (.savepoint "a")).2

def createApp : CatalogStep := .statement (.role (.create ⟨"app", true, true⟩))

def afterCreateApp : AnalysisState :=
  (insideSavepoint.applyCatalogStep (fun _ => false) catalogText createApp).2

/-- The role is there, and gone after the way back. -/
theorem catalog_run_is_undone_role :
    (afterCreateApp.roles.lookup (roleId "app")).isSome = true ∧
      ∃ t, afterCreateApp.applyTransactionControl (fun _ => false) (.rollbackToSavepoint "a") =
        (.applied, t) ∧ t.roles.lookup (roleId "app") = none := by
  have hrun : CatalogRun (fun _ => false) catalogText 2 insideSavepoint afterCreateApp :=
    .step .start trivial (by decide +kernel)
  obtain ⟨t, happ, hlogged, -⟩ :=
    (catalog_run_is_undone (fun _ => false) catalogText openTransaction insideSavepoint
      afterCreateApp).1 "a" rfl hrun (by unfold NoneInside; decide +kernel)
  refine ⟨by decide +kernel, t, happ, ?_⟩
  exact congrArg (fun v => v.roles (roleId "app")) hlogged

end SafeMigrate
