import SafeMigrate.SettingLevels

/-! The settings of the analyzer follow the reference session. A change is
covered by the entries it pushes and assigns to the two levels, and transaction
control acts on the nested snapshots of both. -/

namespace SafeMigrate

open NestedUndo

namespace ReferenceSession

variable {r : ReferenceSession}

theorem control_begin (hlive : r.aborted = false) (hsaved : r.levels.saved.isEmpty = true) :
    r.control .begin = { r with levels := r.levels.save .root } := by
  simp [control, hlive, hsaved]

theorem control_begin_inside (hsaved : r.levels.saved.isEmpty = false) : r.control .begin = r := by
  simp [control, hsaved]

theorem control_savepoint {name : String} (hlive : r.aborted = false) :
    r.control (.savepoint name) = { r with levels := r.levels.save (.savepoint name) } := by
  simp [control, hlive]

theorem control_release {name : String} (hlive : r.aborted = false) :
    r.control (.releaseSavepoint name) =
      { r with levels := r.levels.release (isNamedSavepoint name) } := by
  simp [control, hlive]

theorem control_of_aborted {control : TransactionControl} (haborted : r.aborted = true)
    (hruns : AnalysisState.runsWhenAborted control = false) : r.control control = r := by
  cases control with
  | commit chain => cases hruns
  | rollback chain => cases hruns
  | rollbackToSavepoint name => cases hruns
  | _ => simp [ReferenceSession.control, haborted]

theorem change_of_aborted {c : SettingChange} (haborted : r.aborted = true) : r.change c = r := by
  simp [ReferenceSession.change, haborted]

end ReferenceSession

namespace AnalysisState

/-- What the reference session reads off a state, its frames aside. -/
def sessionView (s : AnalysisState) : SessionOrigin × SettingLevels :=
  (s.sessionOrigin, s.logged.settingLevels)

theorem sessionView_pushUndo (s : AnalysisState) (change : StateChange) :
    (s.pushUndo change).sessionView = s.sessionView := by
  unfold pushUndo
  split <;> rfl

theorem transactionAborted_pushUndo (s : AnalysisState) (change : StateChange) :
    (s.pushUndo change).transactionAborted = s.transactionAborted := by
  unfold pushUndo
  split <;> rfl

end AnalysisState

/-- The session is as it was. -/
structure SameSession (s t : AnalysisState) : Prop where
  view : t.sessionView = s.sessionView
  aborted : t.transactionAborted = s.transactionAborted

namespace SameSession

variable {s t u : AnalysisState}

theorem trans (h : SameSession s t) (h' : SameSession t u) : SameSession s u where
  view := h'.view.trans h.view
  aborted := h'.aborted.trans h.aborted

theorem pushUndo (s : AnalysisState) (change : StateChange) : SameSession s (s.pushUndo change) where
  view := s.sessionView_pushUndo change
  aborted := s.transactionAborted_pushUndo change

theorem pushed (s : AnalysisState) (change : StateChange) (h : SameSession (s.pushUndo change) t) :
    SameSession s t := (pushUndo s change).trans h

theorem taint (s : AnalysisState) (code : EvidenceCode) (scope : EvidenceScope) :
    SameSession s (s.taint code scope) := by
  have hmark : SameSession s.snapshotEvidence s.snapshotEvidence.markTainted := by
    unfold AnalysisState.markTainted
    split
    · exact ⟨rfl, rfl⟩
    · exact pushed _ _ ⟨rfl, rfl⟩
  unfold AnalysisState.taint AnalysisState.recordEvidence
  dsimp only
  split
  · exact ⟨rfl, rfl⟩
  · exact pushed s _ (hmark.trans ⟨rfl, rfl⟩)

instance : KeepsDrop SameSession where
  refl _ := ⟨rfl, rfl⟩
  trans _ _ _ := trans
  taint := taint
  tombstoneRelation s _ := pushed s _ ⟨rfl, rfl⟩
  tombstoneSequence s _ := pushed s _ ⟨rfl, rfl⟩
  tombstoneTrigger s _ := pushed s _ ⟨rfl, rfl⟩
  retainGraphEdges s _ := pushed s _ ⟨rfl, rfl⟩
  removeConstraint s _ := pushed s _ ⟨rfl, rfl⟩
  setPendingValidation s _ := pushed s _ ⟨rfl, rfl⟩
  setBaselineForeignKeys s _ := pushed s _ ⟨rfl, rfl⟩
  retainPublicationObjects s update := by
    unfold AnalysisState.retainPublicationObjects
    dsimp only
    split
    · split
      · exact pushed s _ ⟨rfl, rfl⟩
      · exact pushUndo s _
    · exact pushUndo s _
  setRelations _ _ := ⟨rfl, rfl⟩

theorem origin (h : SameSession s t) : t.sessionOrigin = s.sessionOrigin := congrArg Prod.fst h.view

theorem levels (h : SameSession s t) : t.logged.settingLevels = s.logged.settingLevels :=
  congrArg Prod.snd h.view

end SameSession

/-- A covered change that assigns to the levels of the session. -/
structure Assigns (isLocal : Bool) (f : SettingValues → SettingValues) (s t : AnalysisState) :
    Prop where
  logged : Logged s t
  origin : t.sessionOrigin = s.sessionOrigin
  levels : t.logged.settingLevels = s.logged.settingLevels.assign isLocal f
  aborted : t.transactionAborted = s.transactionAborted

namespace AnalysisState

variable {s t : AnalysisState} {inferred : ObjectId → Bool}

theorem referenceSession_of_logged (h : Logged s t) (horigin : t.sessionOrigin = s.sessionOrigin)
    (haborted : t.transactionAborted = s.transactionAborted) :
    t.referenceSession = { s.referenceSession with
      levels := s.referenceSession.levels.write t.logged.settingLevels } := by
  unfold referenceSession
  rw [horigin, haborted, h.nested, Nested.map_write]

theorem referenceSession_of_same (h : Logged s t) (hsame : SameSession s t) :
    t.referenceSession = s.referenceSession := by
  rw [referenceSession_of_logged h hsame.origin hsame.aborted, hsame.levels]
  rfl

theorem referenceSession_saved_isEmpty (s : AnalysisState) :
    s.referenceSession.levels.saved.isEmpty = s.transactions.isEmpty := by
  change (List.map _ (saves restore s.transactions s.logged)).isEmpty = _
  cases s.transactions <;> rfl

end AnalysisState

/-- One assignment after another. -/
theorem Assigns.trans {isLocal : Bool} {f g k : SettingValues → SettingValues}
    {s t u : AnalysisState} (h : Assigns isLocal f s t) (h' : Assigns isLocal g t u)
    (hcomp : ∀ v, g (f v) = k v) : Assigns isLocal k s u where
  logged := LoggedCovering.then h.logged h'.logged
  origin := h'.origin.trans h.origin
  levels := by
    rw [h'.levels, h.levels]
    cases isLocal <;> simp [SettingLevels.assign, hcomp]
  aborted := h'.aborted.trans h.aborted

theorem Assigns.referenceSession {isLocal : Bool} {f : SettingValues → SettingValues}
    {s t : AnalysisState} (h : Assigns isLocal f s t) :
    t.referenceSession = { s.referenceSession with
      levels := s.referenceSession.levels.write
        (s.referenceSession.levels.current.assign isLocal f) } := by
  rw [AnalysisState.referenceSession_of_logged h.logged h.origin h.aborted, h.levels]
  rfl

section Writes

variable {s t : AnalysisState}

/-- Entries for the search path and the roles cover both. -/
theorem LoggedCovering.writeSession {cells : List Cell} {u : AnalysisState}
    (h : LoggedCovering cells s t) (hpath : .searchPath ∈ cells)
    (hrole : .roleContext ∈ cells ∨ u.logged.roleContext = t.logged.roleContext)
    (hframes : u.transactions = t.transactions)
    (hrest : u.logged = { t.logged with
      searchPath := u.logged.searchPath, roleContext := u.logged.roleContext }) :
    LoggedCovering cells s u := by
  refine h.write ?_ hframes
  rw [hrest]
  exact { AgreeOutside.refl cells t.logged with
    searchPath := fun _ hnot => absurd hpath hnot
    roleContext := fun hnot => (hrole.resolve_left hnot).symm }

theorem LoggedCovering.writeTimeouts {cells : List Cell} {u : AnalysisState}
    (h : LoggedCovering cells s t) (hcell : .timeouts ∈ cells)
    (hframes : u.transactions = t.transactions)
    (hrest : u.logged = { t.logged with timeouts := u.logged.timeouts }) :
    LoggedCovering cells s u := by
  refine h.write ?_ hframes
  rw [hrest]
  exact { AgreeOutside.refl cells t.logged with timeouts := fun hnot => absurd hcell hnot }

end Writes

namespace AnalysisState

variable {s t : AnalysisState} {inferred : ObjectId → Bool}

/-- A local change outside a transaction writes nothing. -/
theorem change_of_noTransaction {c : SettingChange}
    (h : (ReferenceSession.isLocal c && s.transactions.isEmpty) = true) :
    s.referenceSession.change c = s.referenceSession := by
  unfold ReferenceSession.change
  rw [referenceSession_saved_isEmpty, h, Bool.or_true, if_pos rfl]

theorem change_of_unresolved {role : Option RoleFact} {isLocal isSessionAuth : Bool}
    (htarget : s.switchTarget role isSessionAuth = none) :
    s.referenceSession.change (.switchRole role isLocal isSessionAuth) = s.referenceSession := by
  have hvalue : s.referenceSession.assignment (.switchRole role isLocal isSessionAuth) = none := by
    cases role with
    | none => cases isSessionAuth <;> cases htarget
    | some role => cases role <;> cases isSessionAuth <;> first | rfl | cases htarget
  unfold ReferenceSession.change
  rw [hvalue]
  split <;> rfl

theorem change_of_assigns {c : SettingChange} {f : SettingValues → SettingValues}
    (hlive : s.transactionAborted = false)
    (hopen : ¬(ReferenceSession.isLocal c && s.transactions.isEmpty) = true)
    (hvalue : s.referenceSession.assignment c = some f)
    (h : Assigns (ReferenceSession.isLocal c) f s t) :
    t.referenceSession = s.referenceSession.change c := by
  have hruns : ¬(s.referenceSession.aborted ||
      (ReferenceSession.isLocal c && s.referenceSession.levels.saved.isEmpty)) = true := by
    rw [referenceSession_saved_isEmpty, show s.referenceSession.aborted = false from hlive,
      Bool.false_or]
    exact hopen
  unfold ReferenceSession.change
  rw [if_neg hruns, hvalue]
  exact h.referenceSession

/-- The snapshot of the search path and of the confidence. -/
theorem covering_snapshotSearchPath (s : AnalysisState) :
    LoggedCovering [.searchPath] s s.snapshotSearchPath.snapshotConfidence := by
  have h : LoggedCovering [.searchPath] s s.snapshotSearchPath := logged_of_records .searchPath
  have hconfidence : LoggedCovering [.confidence] s.snapshotSearchPath
      s.snapshotSearchPath.snapshotConfidence := logged_of_records .confidence
  exact h.then hconfidence.logged

theorem sameSession_snapshotSearchPath (s : AnalysisState) :
    SameSession s s.snapshotSearchPath.snapshotConfidence :=
  (SameSession.pushUndo s _).trans (SameSession.pushUndo _ _)

theorem defaultSearchPathTemplate_snapshotSearchPath (s : AnalysisState) :
    s.snapshotSearchPath.snapshotConfidence.defaultSearchPathTemplate =
      s.defaultSearchPathTemplate :=
  congrArg SessionOrigin.searchPathTemplate s.sameSession_snapshotSearchPath.origin

theorem assigns_setSearchPathTemplate (s : AnalysisState) (isLocal : Bool) (template : List String) :
    Assigns isLocal (fun v => { v with searchPathTemplate := template }) s
      (s.snapshotSearchPath.snapshotConfidence.setSearchPathTemplate isLocal
        template).refreshRoleSensitiveSearchPath := by
  have hsame := s.sameSession_snapshotSearchPath
  refine ⟨?_, ?_, ?_, ?_⟩
  · exact (LoggedCovering.writeSession (u := (s.snapshotSearchPath.snapshotConfidence.setSearchPathTemplate
      isLocal template).refreshRoleSensitiveSearchPath)
      s.covering_snapshotSearchPath (by simp) (Or.inr rfl) rfl rfl).logged
  · exact hsame.origin
  · have hlevels := hsame.levels
    generalize s.snapshotSearchPath.snapshotConfidence = u at hlevels ⊢
    rw [← hlevels]
    cases isLocal <;> rfl
  · exact hsame.aborted

theorem referenceSession_applySearchPath (change : SearchPathChange)
    (hlive : s.transactionAborted = false) :
    (s.applySearchPath change).2.referenceSession =
      s.referenceSession.change (.searchPath change) := by
  unfold applySearchPath
  split
  · next h => exact (change_of_noTransaction (c := .searchPath change) h).symm
  · next h =>
    obtain ⟨target, isLocal⟩ := change
    cases target with
    | default =>
      refine change_of_assigns hlive h rfl ?_
      dsimp only
      rw [s.defaultSearchPathTemplate_snapshotSearchPath]
      exact s.assigns_setSearchPathTemplate isLocal s.defaultSearchPathTemplate
    | schemas schemas =>
      exact change_of_assigns hlive h rfl (s.assigns_setSearchPathTemplate isLocal schemas)

theorem covering_snapshotTimeouts (s : AnalysisState) :
    LoggedCovering [.timeouts] s s.snapshotTimeoutSettings := logged_of_records .timeouts

theorem sameSession_snapshotTimeouts (s : AnalysisState) :
    SameSession s s.snapshotTimeoutSettings := SameSession.pushUndo s _

theorem assigns_setTimeout (s : AnalysisState) (isLocal : Bool) (next : Option Nat)
    (setting : TimeoutSetting) :
    Assigns isLocal (fun v => v.setTimeout next setting) s
      (s.snapshotTimeoutSettings.setTimeout
        ((s.snapshotTimeoutSettings.timeout setting).assign isLocal next) setting) := by
  have hsame := s.sameSession_snapshotTimeouts
  have hcovered := s.covering_snapshotTimeouts
  have hlevels := hsame.levels
  have horigin := hsame.origin
  have haborted := hsame.aborted
  generalize s.snapshotTimeoutSettings = u at *
  refine ⟨?_, ?_, ?_, ?_⟩
  · cases setting with
    | lock =>
      exact (LoggedCovering.writeTimeouts
        (u := u.setTimeout (u.lockTimeout.assign isLocal next) .lock) hcovered (by simp)
        rfl rfl).logged
    | statement =>
      exact (LoggedCovering.writeTimeouts
        (u := u.setTimeout (u.statementTimeout.assign isLocal next) .statement) hcovered (by simp)
        rfl rfl).logged
  · cases setting <;> exact horigin
  · rw [← hlevels]
    cases setting <;> cases isLocal <;> rfl
  · cases setting <;> exact haborted

theorem referenceSession_applyTimeoutSetting (change : TimeoutSettingChange)
    (hlive : s.transactionAborted = false) :
    (∃ kind, (s.applyTimeoutSetting change).1 = .conflict kind) ∨
      (s.applyTimeoutSetting change).2.referenceSession =
        s.referenceSession.change (.timeout change) := by
  unfold applyTimeoutSetting
  split
  · next h => exact Or.inr (change_of_noTransaction (c := .timeout change) h).symm
  · next h =>
    obtain ⟨setting, value, isLocal⟩ := change
    have hassigns (next : Option Nat) := s.assigns_setTimeout isLocal next setting
    cases value with
    | default =>
      refine Or.inr (change_of_assigns hlive h rfl ?_)
      cases setting <;> exact hassigns _
    | milliseconds milliseconds => exact Or.inr (change_of_assigns hlive h rfl (hassigns _))
    | current =>
      refine Or.inr (change_of_assigns hlive h rfl ?_)
      cases setting <;> exact hassigns _
    | invalid reason => exact Or.inl ⟨.rejected reason, rfl⟩

/-- One snapshot of both timeouts covers whichever of them are reset. -/
theorem assigns_resetTimeouts (s : AnalysisState) (target : ResetSettingTarget)
    {f : SettingValues → SettingValues} (htarget : target ≠ .searchPath)
    (hf : ∀ v, f v = { v with
      lockTimeout := if target = .all ∨ target = .lockTimeout then
        s.logged.settingLevels.lockDefault else v.lockTimeout,
      statementTimeout := if target = .all ∨ target = .statementTimeout then
        s.logged.settingLevels.statementDefault else v.statementTimeout }) :
    Assigns false f s (s.resetTimeouts target) := by
  have hsame := s.sameSession_snapshotTimeouts
  have hcovered := s.covering_snapshotTimeouts
  have hlevels := hsame.levels
  obtain rfl : f = _ := funext hf
  unfold resetTimeouts
  generalize s.snapshotTimeoutSettings = u at *
  cases target with
  | searchPath => exact absurd rfl htarget
  | all =>
    refine ⟨?_, hsame.origin, by rw [← hlevels]; rfl, hsame.aborted⟩
    exact (LoggedCovering.writeTimeouts (u := (u.resetTimeout .lock).resetTimeout .statement)
      hcovered (by simp) rfl rfl).logged
  | lockTimeout =>
    refine ⟨?_, hsame.origin, by rw [← hlevels]; rfl, hsame.aborted⟩
    exact (LoggedCovering.writeTimeouts (u := u.resetTimeout .lock) hcovered (by simp)
      rfl rfl).logged
  | statementTimeout =>
    refine ⟨?_, hsame.origin, by rw [← hlevels]; rfl, hsame.aborted⟩
    exact (LoggedCovering.writeTimeouts (u := u.resetTimeout .statement) hcovered (by simp)
      rfl rfl).logged

theorem assigns_resetSearchPath (s : AnalysisState) :
    Assigns false (fun v => { v with searchPathTemplate := s.defaultSearchPathTemplate }) s
      s.resetSearchPath := by
  unfold resetSearchPath
  dsimp only
  rw [s.defaultSearchPathTemplate_snapshotSearchPath]
  exact s.assigns_setSearchPathTemplate false s.defaultSearchPathTemplate

theorem referenceSession_applyResetSettings (target : ResetSettingTarget)
    (hlive : s.transactionAborted = false) :
    (s.applyResetSettings target).2.referenceSession = s.referenceSession.change (.reset target) := by
  have hopen : ¬(ReferenceSession.isLocal (.reset target) && s.transactions.isEmpty) = true :=
    Bool.false_ne_true
  cases target with
  | searchPath => exact change_of_assigns hlive hopen rfl s.assigns_resetSearchPath
  | lockTimeout =>
    exact change_of_assigns hlive hopen rfl (s.assigns_resetTimeouts .lockTimeout nofun fun v => rfl)
  | statementTimeout =>
    exact change_of_assigns hlive hopen rfl
      (s.assigns_resetTimeouts .statementTimeout nofun fun v => rfl)
  | all =>
    have hpath := s.assigns_resetSearchPath
    have htimeouts := s.resetSearchPath.assigns_resetTimeouts .all nofun fun v => rfl
    refine change_of_assigns hlive hopen rfl (hpath.trans htimeouts ?_)
    intro v
    rw [hpath.levels]
    rfl

section Roles

theorem covering_snapshotRoles (s : AnalysisState) : LoggedCovering [.roleContext, .searchPath] s
    s.snapshotRoleContext.snapshotSearchPath.snapshotConfidence := by
  have h : LoggedCovering [.roleContext] s s.snapshotRoleContext := logged_of_records .roleContext
  exact h.trans (covering_snapshotSearchPath _)

theorem sameSession_snapshotRoles (s : AnalysisState) :
    SameSession s s.snapshotRoleContext.snapshotSearchPath.snapshotConfidence :=
  (SameSession.pushUndo s _).trans (sameSession_snapshotSearchPath _)

variable {u : AnalysisState} {isLocal : Bool} {f : SettingValues → SettingValues}

theorem assigns_setSessionRole (hcovered : LoggedCovering [.roleContext, .searchPath] s u)
    (hsame : SameSession s u) (isLocal : Bool) (target : String × Bool) :
    Assigns isLocal (fun v => v.setSessionRole target) s
      (u.setSessionRole isLocal target).refreshRoleSensitiveSearchPath := by
  refine ⟨?_, ?_, ?_, ?_⟩
  · refine (LoggedCovering.writeSession (u := (u.setSessionRole isLocal
      target).refreshRoleSensitiveSearchPath) hcovered (by simp) (Or.inl (by simp)) ?_ ?_).logged
    · cases isLocal <;> rfl
    · cases isLocal <;> rfl
  · rw [← hsame.origin]
    cases isLocal <;> rfl
  · rw [← hsame.levels]
    cases isLocal <;> rfl
  · rw [← hsame.aborted]
    cases isLocal <;> rfl

theorem assigns_setCurrentRole (hcovered : LoggedCovering [.roleContext, .searchPath] s u)
    (hsame : SameSession s u) {target persistent : String × Bool}
    (hcurrent : f s.logged.settingLevels.current =
      s.logged.settingLevels.current.setCurrentRole target)
    (hcommit : f s.logged.settingLevels.commit =
      s.logged.settingLevels.commit.setCurrentRole persistent) :
    Assigns isLocal f s
      (u.setCurrentRole isLocal target persistent).refreshRoleSensitiveSearchPath := by
  refine ⟨?_, ?_, ?_, ?_⟩
  · refine (LoggedCovering.writeSession (u := (u.setCurrentRole isLocal target
      persistent).refreshRoleSensitiveSearchPath) hcovered (by simp) (Or.inl (by simp)) ?_ ?_).logged
    · cases isLocal <;> rfl
    · cases isLocal <;> rfl
  · rw [← hsame.origin]
    cases isLocal <;> rfl
  · unfold SettingLevels.assign
    rw [hcurrent, hcommit, ← hsame.levels]
    cases isLocal <;> rfl
  · rw [← hsame.aborted]
    cases isLocal <;> rfl

/-- A switch that is carried out, with the evidence it may have recorded. -/
theorem assigns_switchRole (s : AnalysisState) (role : Option RoleFact) (isLocal isSessionAuth : Bool)
    {target : String × Bool} (htarget : s.switchTarget role isSessionAuth = some target)
    (hcovered : LoggedCovering [.roleContext, .searchPath] s u) (hsame : SameSession s u) :
    ∃ f, s.referenceSession.assignment (.switchRole role isLocal isSessionAuth) = some f ∧
      Assigns isLocal f s (if isSessionAuth then u.setSessionRole isLocal target
        else u.setCurrentRole isLocal target
          ((s.persistentRoleResetTarget role isSessionAuth).getD
            target)).refreshRoleSensitiveSearchPath := by
  cases role with
  | none =>
    cases isSessionAuth with
    | true =>
      obtain rfl : s.sessionOrigin.authenticatedRole = target := Option.some.inj htarget
      exact ⟨_, rfl, assigns_setSessionRole hcovered hsame isLocal _⟩
    | false =>
      obtain rfl : s.settingValues.sessionRole = target := Option.some.inj htarget
      exact ⟨_, rfl, assigns_setCurrentRole hcovered hsame rfl rfl⟩
  | some role =>
    have hnamed : s.referenceSession.levels.current.current.roleNamed role = some target := by
      rw [← htarget]
      cases role <;> rfl
    cases isSessionAuth with
    | true =>
      refine ⟨fun v => v.setSessionRole target, ?_, assigns_setSessionRole hcovered hsame isLocal _⟩
      simp only [ReferenceSession.assignment, hnamed, Option.map_some]
    | false =>
      refine ⟨fun v => v.setCurrentRole target, ?_, assigns_setCurrentRole hcovered hsame rfl rfl⟩
      simp only [ReferenceSession.assignment, hnamed, Option.map_some]

theorem referenceSession_applySwitchRole (role : Option RoleFact) (isLocal isSessionAuth : Bool)
    (hlive : s.transactionAborted = false) :
    (∃ kind, (s.applySwitchRole role isLocal isSessionAuth).1 = .conflict kind) ∨
      (s.applySwitchRole role isLocal isSessionAuth).2.referenceSession =
        s.referenceSession.change (.switchRole role isLocal isSessionAuth) := by
  unfold applySwitchRole
  split
  · next h =>
    exact Or.inr (change_of_noTransaction (c := .switchRole role isLocal isSessionAuth) h).symm
  · next h =>
    split
    · next htarget =>
      refine Or.inr ?_
      change (s.taint .unresolvedReference .chain).referenceSession = _
      rw [referenceSession_of_same (s.logged_taint _ _) (SameSession.taint s _ _)]
      exact (change_of_unresolved htarget).symm
    · next target htarget =>
      dsimp only
      split
      · exact Or.inl ⟨_, rfl⟩
      · have hlogged : Logged s (if s.switchAuthorized role isSessionAuth target.1 = none then
            s.taint .catalogCoverageIncomplete .chain else s) :=
          Logged.ite (fun _ => s.logged_taint _ _) fun _ => Logged.refl s
        have hsame : SameSession s (if s.switchAuthorized role isSessionAuth target.1 = none then
            s.taint .catalogCoverageIncomplete .chain else s) :=
          Command.keeps_ite (fun _ => SameSession.taint s _ _) fun _ => Std.Refl.refl s
        generalize (if s.switchAuthorized role isSessionAuth target.1 = none then
          s.taint .catalogCoverageIncomplete .chain else s) = u at hlogged hsame ⊢
        have hcovered : LoggedCovering ([] ++ [.roleContext, .searchPath]) s
            u.snapshotRoleContext.snapshotSearchPath.snapshotConfidence :=
          LoggedCovering.trans hlogged u.covering_snapshotRoles
        obtain ⟨f, hvalue, hassigns⟩ := assigns_switchRole s role isLocal isSessionAuth
          htarget hcovered (hsame.trans u.sameSession_snapshotRoles)
        exact Or.inr (change_of_assigns hlive h hvalue hassigns)

end Roles

theorem referenceSession_applySettingChange (c : SettingChange)
    (hlive : s.transactionAborted = false) :
    (∃ kind, (s.applySettingChange c).1 = .conflict kind) ∨
      (s.applySettingChange c).2.referenceSession = s.referenceSession.change c := by
  cases c with
  | searchPath change => exact Or.inr (referenceSession_applySearchPath change hlive)
  | timeout change => exact referenceSession_applyTimeoutSetting change hlive
  | reset target => exact Or.inr (referenceSession_applyResetSettings target hlive)
  | switchRole role isLocal isSessionAuth =>
    exact referenceSession_applySwitchRole role isLocal isSessionAuth hlive

section Control

theorem sessionOrigin_rollbackUndoLog (s : AnalysisState) (log : List StateChange) :
    (s.rollbackUndoLog log).sessionOrigin = s.sessionOrigin := by
  induction log with
  | nil => rfl
  | cons change log ih =>
    change ((s.rollbackUndoLog log).undoChange change).sessionOrigin = _
    rw [← ih]
    cases change <;> rfl

theorem sessionOrigin_rollbackFrames (s : AnalysisState) (frames : List TransactionFrame) :
    (s.rollbackFrames frames).sessionOrigin = s.sessionOrigin := by
  induction frames generalizing s with
  | nil => rfl
  | cons frame frames ih =>
    change ((s.rollbackFrame frame).rollbackFrames frames).sessionOrigin = _
    rw [ih, rollbackFrame, sessionOrigin_rollbackUndoLog]

/-- Making the commit values current, and the actions that follow. -/
theorem sameSession_onCommit (inferred : ObjectId → Bool) (s : AnalysisState) :
    SameSession s.restorePersistentRoleContext
      (applyOnCommitActions inferred s.restorePersistentRoleContext) :=
  keeps_applyOnCommitActions _ inferred

theorem referenceSession_eq {origin : SessionOrigin}
    {n : Nested TransactionFrameKind LoggedState} {aborted : Bool}
    (horigin : s.sessionOrigin = origin) (hnested : s.nested = n)
    (haborted : s.transactionAborted = aborted) :
    s.referenceSession = ⟨origin, n.map LoggedState.settingLevels, aborted⟩ := by
  unfold referenceSession
  rw [horigin, hnested, haborted]

theorem referenceSession_rollbackAll (s : AnalysisState) :
    (((s.rollbackFrames s.transactions).setTransactions []).setTransactionAborted
      false).referenceSession = s.referenceSession.rollback := by
  have horigin : (((s.rollbackFrames s.transactions).setTransactions []).setTransactionAborted
      false).sessionOrigin = s.sessionOrigin := s.sessionOrigin_rollbackFrames s.transactions
  rw [referenceSession_eq horigin s.nested_rollbackAll rfl, Nested.map_rollback]
  rfl

theorem referenceSession_chained (s : AnalysisState) (chain : Bool) :
    (if chain then s.setTransactions (rootFrame :: s.transactions) else s).referenceSession =
      s.referenceSession.chained chain := by
  cases chain <;> rfl

theorem referenceSession_rollback {chain : Bool}
    (h : s.applyRollbackTransaction chain = (.applied, t)) :
    t.referenceSession = s.referenceSession.control (.rollback chain) := by
  unfold applyRollbackTransaction at h
  split at h
  · cases h
  · obtain ⟨-, rfl⟩ := Prod.mk.injEq .. ▸ h
    have hchained := referenceSession_chained
      (((s.rollbackFrames s.transactions).setTransactions []).setTransactionAborted false) chain
    rw [s.referenceSession_rollbackAll] at hchained
    exact hchained

theorem referenceSession_commit {chain : Bool}
    (h : s.applyCommitTransaction inferred chain = (.applied, t)) :
    t.referenceSession = s.referenceSession.control (.commit chain) := by
  unfold applyCommitTransaction at h
  split at h
  · cases h
  · obtain ⟨-, rfl⟩ := Prod.mk.injEq .. ▸ h
    refine (referenceSession_chained _ chain).trans ?_
    change _ = s.referenceSession.commit.chained chain
    congr 1
    unfold ReferenceSession.commit
    cases haborted : s.transactionAborted with
    | true =>
      rw [if_pos rfl, show s.referenceSession.aborted = true from haborted, if_pos rfl]
      exact s.referenceSession_rollbackAll
    | false =>
      rw [if_neg Bool.false_ne_true, show s.referenceSession.aborted = false from haborted,
        if_neg Bool.false_ne_true]
      have hsame := sameSession_onCommit inferred (s.setTransactions [])
      have hframes := applyOnCommitActions_transactions inferred
        (s.setTransactions []).restorePersistentRoleContext rfl
      have hlevels := hsame.levels
      have horigin := hsame.origin
      generalize applyOnCommitActions inferred
        (s.setTransactions []).restorePersistentRoleContext = u at hframes hlevels horigin ⊢
      rw [referenceSession_eq (s := u.setTransactionAborted false) horigin
        ((nested_setTransactionAborted u false).trans (nested_of_no_frames hframes)) rfl]
      unfold Nested.map
      rw [hlevels]
      rfl

theorem referenceSession_release {name : String} (hlive : s.transactionAborted = false)
    (h : s.applyReleaseSavepoint name = (.applied, t)) :
    t.referenceSession = s.referenceSession.control (.releaseSavepoint name) := by
  have hnested := nested_release h
  unfold applyReleaseSavepoint at h
  split at h
  · cases h
  · cases h
  · obtain ⟨-, rfl⟩ := Prod.mk.injEq .. ▸ h
    rw [ReferenceSession.control_release hlive, referenceSession_eq rfl hnested rfl,
      Nested.map_release]
    rfl

theorem referenceSession_rollbackTo {name : String}
    (h : s.applyRollbackToSavepoint name = (.applied, t)) :
    t.referenceSession = s.referenceSession.control (.rollbackToSavepoint name) := by
  have hnested := nested_rollbackTo h
  unfold applyRollbackToSavepoint at h
  split at h
  · cases h
  · next frame outer hframes =>
    obtain ⟨-, rfl⟩ := Prod.mk.injEq .. ▸ h
    have horigin := (sessionOrigin_rollbackUndoLog (((s.setTransactions (frame :: outer)).rollbackFrames
      (s.transactions.takeWhile fun frame => !isNamedSavepoint name frame.kind)).setTransactions
      ({ frame with undoLog := [] } :: outer)) frame.undoLog).trans
      (sessionOrigin_rollbackFrames (s.setTransactions (frame :: outer)) _)
    refine (referenceSession_eq (s := AnalysisState.setTransactionAborted _ false) horigin hnested
      rfl).trans ?_
    rw [Nested.map_rollbackTo]
    rfl

theorem referenceSession_control {result : MutationResult} {control : TransactionControl}
    (hgate : ¬(s.transactionAborted = true ∧ runsWhenAborted control = false))
    (hresult : ∀ kind, result ≠ .conflict kind)
    (h : s.applyTransactionInner inferred control = (result, t)) :
    t.referenceSession = s.referenceSession.control control := by
  cases control with
  | begin =>
    have hlive : s.transactionAborted = false := by simpa [runsWhenAborted] using hgate
    simp only [applyTransactionInner, applyBeginTransaction] at h
    split at h
    · next hframes =>
      obtain ⟨-, rfl⟩ := Prod.mk.injEq .. ▸ h
      have hsaved : s.referenceSession.levels.saved.isEmpty = true := by
        rw [referenceSession_saved_isEmpty, hframes]
        rfl
      have hnested : (s.setTransactions [rootFrame]).nested = s.nested.save .root := by
        rw [nested_setTransactions, nested, hframes]
        rfl
      rw [ReferenceSession.control_begin hlive hsaved, referenceSession_eq rfl hnested rfl]
      rfl
    · next frame outer hframes =>
      obtain ⟨-, rfl⟩ := Prod.mk.injEq .. ▸ h
      have hsaved : s.referenceSession.levels.saved.isEmpty = false := by
        rw [referenceSession_saved_isEmpty, hframes]
        rfl
      exact (ReferenceSession.control_begin_inside hsaved).symm
  | savepoint name =>
    have hlive : s.transactionAborted = false := by simpa [runsWhenAborted] using hgate
    simp only [applyTransactionInner, applySavepoint] at h
    split at h
    · obtain ⟨rfl, -⟩ := Prod.mk.injEq .. ▸ h
      exact absurd rfl (hresult _)
    · obtain ⟨-, rfl⟩ := Prod.mk.injEq .. ▸ h
      rw [ReferenceSession.control_savepoint hlive]
      rfl
  | releaseSavepoint name =>
    have hlive : s.transactionAborted = false := by simpa [runsWhenAborted] using hgate
    have happlied : result = .applied := by
      simp only [applyTransactionInner, applyReleaseSavepoint] at h
      split at h
      · exact absurd (congrArg Prod.fst h).symm (hresult _)
      · exact absurd (congrArg Prod.fst h).symm (hresult _)
      · exact (congrArg Prod.fst h).symm
    rw [happlied] at h
    exact referenceSession_release hlive h
  | rollbackToSavepoint name =>
    have happlied : result = .applied := by
      simp only [applyTransactionInner, applyRollbackToSavepoint] at h
      split at h
      · exact absurd (congrArg Prod.fst h).symm (hresult _)
      · exact (congrArg Prod.fst h).symm
    rw [happlied] at h
    exact referenceSession_rollbackTo h
  | rollback chain =>
    have happlied : result = .applied := by
      simp only [applyTransactionInner, applyRollbackTransaction] at h
      split at h
      · exact absurd (congrArg Prod.fst h).symm (hresult _)
      · exact (congrArg Prod.fst h).symm
    rw [happlied] at h
    exact referenceSession_rollback h
  | commit chain =>
    have happlied : result = .applied := by
      simp only [applyTransactionInner, applyCommitTransaction] at h
      split at h
      · exact absurd (congrArg Prod.fst h).symm (hresult _)
      · exact (congrArg Prod.fst h).symm
    rw [happlied] at h
    exact referenceSession_commit h

end Control

theorem referenceSession_step {result : MutationResult} {statement : SettingStatement}
    (hresult : ∀ kind, result ≠ .conflict kind)
    (h : s.applySettingStatement inferred statement = (result, t)) :
    t.referenceSession = s.referenceSession.step statement := by
  cases statement with
  | control control =>
    change s.applyTransactionControl inferred control = (result, t) at h
    rcases s.applyTransactionControl_cases inferred control with
      ⟨haborted, hruns, hgate⟩ | ⟨hgate, hfst, hsnd⟩
    · rw [hgate] at h
      obtain ⟨-, rfl⟩ := Prod.mk.injEq .. ▸ h
      exact (ReferenceSession.control_of_aborted haborted hruns).symm
    · rw [h] at hfst hsnd
      rcases hsnd with hsnd | ⟨⟨kind, hkind⟩, -⟩
      · exact referenceSession_control hgate hresult (Prod.ext hfst.symm hsnd.symm)
      · exact absurd (hfst.trans hkind) (hresult kind)
  | change c =>
    simp only [applySettingStatement] at h
    split at h
    · next haborted =>
      obtain ⟨-, rfl⟩ := Prod.mk.injEq .. ▸ h
      exact (ReferenceSession.change_of_aborted haborted).symm
    · next haborted =>
      have hlive : s.transactionAborted = false := by simpa using haborted
      split at h
      · next kind u hconflict => exact absurd (congrArg Prod.fst h).symm (hresult kind)
      · rcases referenceSession_applySettingChange c hlive with ⟨kind, hkind⟩ | hfollows
        · rw [h] at hkind
          exact absurd hkind (hresult kind)
        · rw [h] at hfollows
          exact hfollows

end AnalysisState

/-- A run of statements about settings, none of them refused. -/
inductive SettingRun (inferred : ObjectId → Bool) :
    AnalysisState → List SettingStatement → AnalysisState → Prop
  | start (s : AnalysisState) : SettingRun inferred s [] s
  | step {s t u : AnalysisState} {statements : List SettingStatement}
      {statement : SettingStatement} {result : MutationResult}
      (hrun : SettingRun inferred s statements t)
      (happly : t.applySettingStatement inferred statement = (result, u))
      (hresult : ∀ kind, result ≠ .conflict kind) :
      SettingRun inferred s (statements ++ [statement]) u

theorem SettingRun.applied {inferred : ObjectId → Bool} {s t u : AnalysisState}
    {statements : List SettingStatement} {statement : SettingStatement}
    (hrun : SettingRun inferred s statements t)
    (happly : t.applySettingStatement inferred statement = (.applied, u)) :
    SettingRun inferred s (statements ++ [statement]) u := hrun.step happly fun _ => nofun

/-- After every step of a run without refusals the analyzer stands for the
reference session, and its effective settings are the current values there. -/
theorem settings_follow_reference {inferred : ObjectId → Bool} {s t : AnalysisState}
    {statements : List SettingStatement} (h : SettingRun inferred s statements t) :
    t.settingValues = (s.referenceSession.run statements).values ∧
      t.referenceSession = s.referenceSession.run statements := by
  have hsession : t.referenceSession = s.referenceSession.run statements := by
    induction h with
    | start => rfl
    | step hrun happly hresult ih =>
      rw [AnalysisState.referenceSession_step hresult happly, ih, ReferenceSession.run,
        ReferenceSession.run, List.foldl_concat]
  rw [← hsession]
  exact ⟨rfl, rfl⟩

/-- A timeout for the session and, inside a block, one for the transaction. -/
def localTimeout : List SettingStatement :=
  [.change (.timeout ⟨.lock, .milliseconds 5, false⟩), .control .begin,
    .change (.timeout ⟨.lock, .milliseconds 9, true⟩), .control (.commit false)]

theorem localTimeout_follows_reference :
    ∃ t, SettingRun (fun _ => false) {} localTimeout t ∧ t.settingValues.lockTimeout = some 5 := by
  have hrun : SettingRun (fun _ => false) {} localTimeout _ :=
    ((((SettingRun.start {}).applied rfl).applied rfl).applied rfl).applied rfl
  refine ⟨_, hrun, ?_⟩
  rw [(settings_follow_reference hrun).1]
  decide

end SafeMigrate
