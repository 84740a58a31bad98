import SafeMigrate.Transaction

/-! Transaction control implements nested snapshots. The frames stand for the
logged fields that each of them restores, and every control statement acts on
these snapshots alone. -/

namespace SafeMigrate

open NestedUndo

namespace AnalysisState

/-- The logged fields now, and as each open frame would restore them. -/
def nested (s : AnalysisState) : Nested TransactionFrameKind LoggedState :=
  observe restore s.transactions s.logged

theorem nested_saved_length (s : AnalysisState) : s.nested.saved.length = s.transactions.length :=
  saves_length _ _ _

theorem nested_saved_kinds (s : AnalysisState) :
    s.nested.saved.map Prod.fst = s.transactions.map (·.kind) := map_fst_saves _ _ _

@[simp] theorem undoChange_transactions (s : AnalysisState) (change : StateChange) :
    (s.undoChange change).transactions = s.transactions := by
  cases change <;> rfl

@[simp] theorem rollbackUndoLog_transactions (s : AnalysisState) (log : List StateChange) :
    (s.rollbackUndoLog log).transactions = s.transactions := by
  induction log with
  | nil => rfl
  | cons change log ih =>
    change ((s.rollbackUndoLog log).undoChange change).transactions = _
    rw [undoChange_transactions, ih]

@[simp] theorem rollbackFrames_transactions (s : AnalysisState) (frames : List TransactionFrame) :
    (s.rollbackFrames frames).transactions = s.transactions := by
  induction frames generalizing s with
  | nil => rfl
  | cons frame frames ih =>
    change ((s.rollbackFrame frame).rollbackFrames frames).transactions = _
    rw [ih, rollbackFrame, rollbackUndoLog_transactions]

theorem logged_rollbackFrames (s : AnalysisState) (frames : List TransactionFrame) :
    (s.rollbackFrames frames).logged = unwind restore frames s.logged := by
  induction frames generalizing s with
  | nil => rfl
  | cons frame frames ih =>
    change ((s.rollbackFrame frame).rollbackFrames frames).logged = _
    rw [ih, rollbackFrame, logged_rollbackUndoLog, unwind_cons]

@[simp] theorem logged_setTransactions (s : AnalysisState) (frames : List TransactionFrame) :
    (s.setTransactions frames).logged = s.logged := rfl

@[simp] theorem logged_setTransactionAborted (s : AnalysisState) (aborted : Bool) :
    (s.setTransactionAborted aborted).logged = s.logged := rfl

theorem nested_setTransactions (s : AnalysisState) (frames : List TransactionFrame) :
    (s.setTransactions frames).nested = observe restore frames s.logged := rfl

@[simp] theorem nested_setTransactionAborted (s : AnalysisState) (aborted : Bool) :
    (s.setTransactionAborted aborted).nested = s.nested := rfl

theorem nested_openFrame (s : AnalysisState) (kind : TransactionFrameKind) :
    (s.setTransactions ({ kind := kind, undoLog := [] } :: s.transactions)).nested =
      s.nested.save kind := rfl

end AnalysisState

/-- A covered transition keeps what every open frame restores. -/
theorem Logged.nested {s t : AnalysisState} (h : Logged s t) :
    t.nested = s.nested.write t.logged := by
  obtain ⟨entries, hframes, hreplay, -⟩ := h
  have hsaved : saves restore t.transactions t.logged = saves restore s.transactions s.logged := by
    rw [hframes]
    cases s.transactions with
    | nil => rfl
    | cons frame outer => exact saves_record hreplay frame.kind frame.undoLog outer
  simp only [AnalysisState.nested, observe, Nested.write, hsaved]

theorem Logged.transactions_length {s t : AnalysisState} (h : Logged s t) :
    t.transactions.length = s.transactions.length := by
  obtain ⟨entries, hframes, -⟩ := h
  rw [hframes]
  cases s.transactions <;> simp [appendUndo]

/-- An arbitrary write that first pushed the matching undo entries. The
fields that no entry restores may change with it. -/
def LoggedWrite (s t : AnalysisState) : Prop :=
  ∃ entries : List StateChange, (∀ change ∈ entries, Records s change) ∧
    t.transactions = appendUndo entries s.transactions ∧
    AgreeOutside (entries.map StateChange.cell) s.logged t.logged

theorem LoggedWrite.logged {s t : AnalysisState} (h : LoggedWrite s t) : Logged s t := by
  obtain ⟨entries, hrecords, hframes, hagree⟩ := h
  refine ⟨entries, hframes, ?_, List.nil_subset _⟩
  rw [← hagree.replay_eq]
  exact Records.replay_logged hrecords

/-- What a control statement that succeeds does to the nested snapshots. A
commit that is not aborted ends in the state its on-commit actions leave. -/
def TransactionControl.onNested (aborted : Bool) (after : LoggedState)
    (n : Nested TransactionFrameKind LoggedState) :
    TransactionControl → Nested TransactionFrameKind LoggedState
  | .begin => n.save .root
  | .savepoint name => n.save (.savepoint name)
  | .releaseSavepoint name => n.release (isNamedSavepoint name)
  | .rollbackToSavepoint name => n.rollbackTo (isNamedSavepoint name)
  | .rollback chain => if chain then n.rollback.save .root else n.rollback
  | .commit chain =>
    let ended := if aborted then n.rollback else n.discard.write after
    if chain then ended.save .root else ended

namespace AnalysisState

variable {inferred : ObjectId → Bool}

theorem nested_rollbackAll (s : AnalysisState) :
    (((s.rollbackFrames s.transactions).setTransactions []).setTransactionAborted false).nested =
      s.nested.rollback := by
  rw [nested_setTransactionAborted, nested_setTransactions, logged_rollbackFrames]
  exact (observe_rollback restore s.transactions s.logged).symm

theorem applyOnCommitAction_transactions (s : AnalysisState) (action : ObjectId × OnCommitAction)
    (h : s.transactions = []) : (applyOnCommitAction inferred s action).transactions = [] := by
  unfold applyOnCommitAction
  split
  · exact h
  · split
    · exact h
    · exact h
  · have hlen := (s.logged_applyDropTable
      { ids := [⟨action.1, inferred action.1⟩], ifExists := false, cascade := true }
      none).transactions_length
    rw [h] at hlen
    exact List.length_eq_zero_iff.mp hlen

theorem applyOnCommitActions_transactions (inferred : ObjectId → Bool) (s : AnalysisState) (h : s.transactions = []) :
    (applyOnCommitActions inferred s).transactions = [] := by
  unfold applyOnCommitActions
  generalize s.onCommitActions = actions
  induction actions generalizing s with
  | nil => exact h
  | cons action actions ih => exact ih _ (applyOnCommitAction_transactions s action h)

theorem nested_of_no_frames {s : AnalysisState} (h : s.transactions = []) :
    s.nested = { current := s.logged, saved := [] } := by
  simp [nested, observe, h, saves]

theorem nested_commit {s t : AnalysisState} {chain : Bool}
    (h : s.applyCommitTransaction inferred chain = (.applied, t)) :
    t.nested = TransactionControl.onNested s.transactionAborted t.logged s.nested (.commit chain) := by
  unfold applyCommitTransaction at h
  split at h
  · cases h
  · obtain ⟨-, rfl⟩ := Prod.mk.injEq .. ▸ h
    cases ha : s.transactionAborted with
    | true =>
      have hn := s.nested_rollbackAll
      cases chain with
      | false => simpa [TransactionControl.onNested] using hn
      | true =>
        simp only [if_true, TransactionControl.onNested]
        rw [← hn]
        rfl
    | false =>
      have hf := applyOnCommitActions_transactions inferred
        (s.setTransactions []).restorePersistentRoleContext rfl
      cases chain with
      | false =>
        simp only [TransactionControl.onNested, Bool.false_eq_true, if_false]
        rw [nested_setTransactionAborted, nested_of_no_frames hf]
        rfl
      | true =>
        simp only [TransactionControl.onNested, Bool.false_eq_true, if_false, if_true]
        rw [show rootFrame = { kind := .root, undoLog := [] } from rfl, nested_openFrame,
          nested_setTransactionAborted, nested_of_no_frames hf]
        rfl

theorem nested_rollback {s t : AnalysisState} {chain : Bool}
    (h : s.applyRollbackTransaction chain = (.applied, t)) :
    t.nested = TransactionControl.onNested s.transactionAborted t.logged s.nested
      (.rollback chain) := by
  unfold applyRollbackTransaction at h
  split at h
  · cases h
  · obtain ⟨-, rfl⟩ := Prod.mk.injEq .. ▸ h
    have hn := s.nested_rollbackAll
    cases chain with
    | false => simpa [TransactionControl.onNested] using hn
    | true =>
      simp only [if_true, TransactionControl.onNested]
      rw [← hn]
      rfl

theorem nested_release {s t : AnalysisState} {name : String}
    (h : s.applyReleaseSavepoint name = (.applied, t)) :
    t.nested = s.nested.release (isNamedSavepoint name) := by
  unfold applyReleaseSavepoint at h
  split at h
  · cases h
  · cases h
  · next frame outer rest hframes =>
    obtain ⟨-, rfl⟩ := Prod.mk.injEq .. ▸ h
    rw [nested_setTransactions]
    exact (observe_release restore (isNamedSavepoint name) s.logged hframes).symm

theorem nested_rollbackTo {s t : AnalysisState} {name : String}
    (h : s.applyRollbackToSavepoint name = (.applied, t)) :
    t.nested = s.nested.rollbackTo (isNamedSavepoint name) := by
  unfold applyRollbackToSavepoint at h
  split at h
  · cases h
  · next frame outer hframes =>
    obtain ⟨-, rfl⟩ := Prod.mk.injEq .. ▸ h
    rw [nested_setTransactionAborted, nested, rollbackUndoLog_transactions,
      logged_rollbackUndoLog, logged_setTransactions, logged_rollbackFrames,
      logged_setTransactions]
    exact (observe_rollbackTo restore (isNamedSavepoint name) s.logged hframes).symm

theorem logged_setTransactionAborted_of (s : AnalysisState) {t : AnalysisState} (aborted : Bool)
    (h : Logged s t) : Logged s (t.setTransactionAborted aborted) :=
  h.trans (Logged.of_unlogged rfl rfl)

theorem logged_unknownSavepoint (s : AnalysisState) (name : String) :
    Logged s (s.unknownSavepoint name).2 := by
  have h := s.logged_taint .transactionStateUnknown .chain
  exact Logged.ite (fun _ => h) fun _ => logged_setTransactionAborted_of s true h

/-- A control statement that is refused writes evidence and nothing else. -/
theorem applyTransactionInner_spec (inferred : ObjectId → Bool) (s : AnalysisState) (control : TransactionControl) :
    (s.applyTransactionInner inferred control).1 = .applied ∨
      Logged s (s.applyTransactionInner inferred control).2 := by
  have htaint := s.logged_taint .transactionStateUnknown .chain
  cases control with
  | begin =>
    simp only [applyTransactionInner, applyBeginTransaction]
    split
    · exact Or.inl rfl
    · exact Or.inr (Logged.refl s)
  | commit chain =>
    simp only [applyTransactionInner, applyCommitTransaction]
    split
    · exact Or.inr htaint
    · exact Or.inl rfl
  | rollback chain =>
    simp only [applyTransactionInner, applyRollbackTransaction]
    split
    · exact Or.inr htaint
    · exact Or.inl rfl
  | savepoint name =>
    simp only [applyTransactionInner, applySavepoint]
    split
    · exact Or.inr htaint
    · exact Or.inl rfl
  | releaseSavepoint name =>
    simp only [applyTransactionInner, applyReleaseSavepoint]
    split
    · exact Or.inr (s.logged_unknownSavepoint name)
    · exact Or.inr htaint
    · exact Or.inl rfl
  | rollbackToSavepoint name =>
    simp only [applyTransactionInner, applyRollbackToSavepoint]
    split
    · exact Or.inr (s.logged_unknownSavepoint name)
    · exact Or.inl rfl

theorem nested_applyTransactionInner {s t : AnalysisState} {control : TransactionControl}
    (h : s.applyTransactionInner inferred control = (.applied, t)) :
    t.nested = control.onNested s.transactionAborted t.logged s.nested := by
  cases control with
  | begin =>
    simp only [applyTransactionInner, applyBeginTransaction] at h
    split at h
    · next hframes =>
      obtain ⟨-, rfl⟩ := Prod.mk.injEq .. ▸ h
      rw [nested_setTransactions, nested, hframes]
      rfl
    · cases h
  | commit chain => exact nested_commit h
  | rollback chain => exact nested_rollback h
  | savepoint name =>
    simp only [applyTransactionInner, applySavepoint] at h
    split at h
    · cases h
    · obtain ⟨-, rfl⟩ := Prod.mk.injEq .. ▸ h
      exact s.nested_openFrame (.savepoint name)
  | releaseSavepoint name => exact nested_release h
  | rollbackToSavepoint name => exact nested_rollbackTo h

/-- The three ways the gate of `apply` treats a control statement. -/
theorem applyTransactionControl_cases (inferred : ObjectId → Bool) (s : AnalysisState)
    (control : TransactionControl) :
    (s.transactionAborted = true ∧ runsWhenAborted control = false ∧
      s.applyTransactionControl inferred control = (.notExecuted, s)) ∨
    (¬(s.transactionAborted = true ∧ runsWhenAborted control = false) ∧
      (s.applyTransactionControl inferred control).1 =
        (s.applyTransactionInner inferred control).1 ∧
      ((s.applyTransactionControl inferred control).2 =
          (s.applyTransactionInner inferred control).2 ∨
        (∃ kind, (s.applyTransactionInner inferred control).1 = .conflict kind) ∧
        (s.applyTransactionControl inferred control).2 =
          (s.applyTransactionInner inferred control).2.setTransactionAborted true)) := by
  unfold applyTransactionControl
  by_cases hgate : s.transactionAborted = true ∧ runsWhenAborted control = false
  · exact Or.inl ⟨hgate.1, hgate.2, by simp [hgate]⟩
  · refine Or.inr ⟨hgate, ?_⟩
    have hrun : ¬((s.transactionAborted && !runsWhenAborted control) = true) := by
      simpa using hgate
    rw [if_neg hrun]
    split
    · next kind t heq =>
      rw [heq]
      refine ⟨rfl, ?_⟩
      by_cases hopen : t.transactions.isEmpty = true
      · exact Or.inl (by simp [hopen])
      · exact Or.inr ⟨⟨kind, rfl⟩, by simp [hopen]⟩
    · exact ⟨rfl, Or.inl rfl⟩

theorem nested_applyTransactionControl {s t : AnalysisState} {control : TransactionControl}
    (h : s.applyTransactionControl inferred control = (.applied, t)) :
    t.nested = control.onNested s.transactionAborted t.logged s.nested := by
  rcases s.applyTransactionControl_cases inferred control with
    ⟨-, -, hgate⟩ | ⟨-, hfst, hsnd | ⟨⟨kind, hkind⟩, -⟩⟩
  · rw [hgate] at h
    cases h
  · rw [h] at hfst hsnd
    exact nested_applyTransactionInner (Prod.ext hfst.symm hsnd.symm)
  · rw [h, hkind] at hfst
    cases hfst

theorem logged_of_not_applied (inferred : ObjectId → Bool) (s : AnalysisState)
    (control : TransactionControl)
    (h : (s.applyTransactionControl inferred control).1 ≠ .applied) :
    Logged s (s.applyTransactionControl inferred control).2 := by
  rcases s.applyTransactionControl_cases inferred control with
    ⟨-, -, hgate⟩ | ⟨-, hfst, hsnd⟩
  · rw [hgate]
    exact Logged.refl s
  · rw [hfst] at h
    have hinner := (s.applyTransactionInner_spec inferred control).resolve_left h
    rcases hsnd with hsnd | ⟨-, hsnd⟩
    · exact hsnd ▸ hinner
    · exact hsnd ▸ logged_setTransactionAborted_of s true hinner

end AnalysisState

end SafeMigrate
