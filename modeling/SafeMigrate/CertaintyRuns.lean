import SafeMigrate.Certainty

/-! What later statements do to the certainty of a finding. A statement only
adds evidence, except where it unwinds frames of a transaction; a run whose
unwinding keeps a record behind every finding never upgrades one. -/

namespace SafeMigrate

open NestedUndo

namespace AnalysisState

/-- The frames that a control statement unwinds in this state. -/
def unwoundFrames (s : AnalysisState) : TransactionControl → List TransactionFrame
  | .commit _ => if s.transactionAborted then s.transactions else []
  | .rollback _ => s.transactions
  | .rollbackToSavepoint name =>
    match s.transactions.dropWhile fun frame => !isNamedSavepoint name frame.kind with
    | [] => []
    | frame :: _ =>
      (s.transactions.takeWhile fun frame => !isNamedSavepoint name frame.kind) ++ [frame]
  | _ => []

/-- The evidence log that these frames saved. -/
def unwoundEvidence (s : AnalysisState) (control : TransactionControl) : EvidenceLog :=
  unwind undoEvidence (s.unwoundFrames control) s.evidence

/-- The records that the statements of these frames made. -/
def framesEvidence (s : AnalysisState) (control : TransactionControl) : List EvidenceRecord :=
  s.evidence.records.filter fun record => record ∉ (s.unwoundEvidence control).records

theorem mem_framesEvidence (s : AnalysisState) {control : TransactionControl}
    {record : EvidenceRecord} : record ∈ s.framesEvidence control ↔
      record ∈ s.evidence.records ∧ record ∉ (s.unwoundEvidence control).records := by
  simp [framesEvidence]

theorem unwoundEvidence_of_nil {s : AnalysisState} {control : TransactionControl}
    (h : s.unwoundFrames control = []) : s.unwoundEvidence control = s.evidence := by
  simp [unwoundEvidence, h]

variable (s : AnalysisState)

theorem records_taint (code : EvidenceCode) (scope : EvidenceScope) :
    s.evidence.records ⊆ (s.taint code scope).evidence.records :=
  (KeepsEvidence.taint (R := EvidenceGrows) s code scope).records

theorem records_unknownSavepoint (name : String) :
    s.evidence.records ⊆ (s.unknownSavepoint name).2.evidence.records := by
  unfold unknownSavepoint
  dsimp only
  split
  · exact s.records_taint _ _
  · exact s.records_taint _ _

theorem records_applyCommitTransaction (inferred : ObjectId → Bool) (chain : Bool) :
    (s.unwoundEvidence (.commit chain)).records ⊆
      (s.applyCommitTransaction inferred chain).2.evidence.records := by
  unfold applyCommitTransaction
  split
  · next h =>
    have hnone : s.transactions = [] := by simpa using (Bool.and_eq_true_iff.mp h).2
    have hnil : s.unwoundFrames (.commit chain) = [] := by simp [unwoundFrames, hnone]
    rw [unwoundEvidence_of_nil hnil]
    exact s.records_taint _ _
  · by_cases haborted : s.transactionAborted = true
    · have hevidence : (s.rollbackFrames s.transactions).evidence =
          s.unwoundEvidence (.commit chain) := by
        rw [rollbackFrames_evidence]
        simp [unwoundEvidence, unwoundFrames, haborted]
      rw [← hevidence]
      dsimp only
      rw [if_pos haborted]
      split <;> exact List.Subset.refl _
    · have hnil : s.unwoundFrames (.commit chain) = [] := by simp [unwoundFrames, haborted]
      rw [unwoundEvidence_of_nil hnil]
      have hgrows : EvidenceGrows _ _ := keeps_applyOnCommitActions
        (s.setTransactions []).restorePersistentRoleContext inferred
      dsimp only
      rw [if_neg haborted]
      split <;> exact hgrows.records

theorem records_applyRollbackTransaction (chain : Bool) :
    (s.unwoundEvidence (.rollback chain)).records ⊆
      (s.applyRollbackTransaction chain).2.evidence.records := by
  unfold applyRollbackTransaction
  split
  · next h =>
    have hnone : s.transactions = [] := by simpa using (Bool.and_eq_true_iff.mp h).2
    have hnil : s.unwoundFrames (.rollback chain) = [] := hnone
    rw [unwoundEvidence_of_nil hnil]
    exact s.records_taint _ _
  · have hevidence : (s.rollbackFrames s.transactions).evidence =
        s.unwoundEvidence (.rollback chain) := rollbackFrames_evidence _ _
    rw [← hevidence]
    dsimp only
    split <;> exact List.Subset.refl _

theorem records_applyRollbackToSavepoint (name : String) :
    (s.unwoundEvidence (.rollbackToSavepoint name)).records ⊆
      (s.applyRollbackToSavepoint name).2.evidence.records := by
  unfold applyRollbackToSavepoint
  split
  · next hnone =>
    have hnil : s.unwoundFrames (.rollbackToSavepoint name) = [] := by simp [unwoundFrames, hnone]
    rw [unwoundEvidence_of_nil hnil]
    exact s.records_unknownSavepoint name
  · next frame outer hfound =>
    have hevidence (u : AnalysisState) (inner : List TransactionFrame)
        (hu : u.evidence = s.evidence) :
        (((u.rollbackFrames inner).setTransactions
          ({ frame with undoLog := [] } :: outer)).rollbackUndoLog frame.undoLog).evidence =
          unwind undoEvidence (inner ++ [frame]) s.evidence := by
      rw [rollbackUndoLog_evidence]
      change replay undoEvidence frame.undoLog (u.rollbackFrames inner).evidence = _
      rw [rollbackFrames_evidence, hu]
      simp [unwind]
    have hframes : s.unwoundEvidence (.rollbackToSavepoint name) =
        unwind undoEvidence ((s.transactions.takeWhile fun frame =>
          !isNamedSavepoint name frame.kind) ++ [frame]) s.evidence := by
      simp [unwoundEvidence, unwoundFrames, hfound]
    rw [hframes, ← hevidence (s.setTransactions (frame :: outer)) _ rfl]
    exact List.Subset.refl _

/-- Transaction control keeps what the unwound frames saved. -/
theorem records_applyTransactionInner (inferred : ObjectId → Bool) (control : TransactionControl) :
    (s.unwoundEvidence control).records ⊆
      (s.applyTransactionInner inferred control).2.evidence.records := by
  cases control with
  | begin =>
    rw [unwoundEvidence_of_nil rfl]
    show s.evidence.records ⊆ s.applyBeginTransaction.2.evidence.records
    unfold applyBeginTransaction
    split <;> exact List.Subset.refl _
  | commit chain => exact s.records_applyCommitTransaction inferred chain
  | rollback chain => exact s.records_applyRollbackTransaction chain
  | savepoint name =>
    rw [unwoundEvidence_of_nil rfl]
    show s.evidence.records ⊆ (s.applySavepoint name).2.evidence.records
    unfold applySavepoint
    split
    · exact s.records_taint _ _
    · exact List.Subset.refl _
  | releaseSavepoint name =>
    rw [unwoundEvidence_of_nil rfl]
    show s.evidence.records ⊆ (s.applyReleaseSavepoint name).2.evidence.records
    unfold applyReleaseSavepoint
    split
    · exact s.records_unknownSavepoint name
    · exact s.records_taint _ _
    · exact List.Subset.refl _
  | rollbackToSavepoint name => exact s.records_applyRollbackToSavepoint name

theorem records_applyTransactionControl (inferred : ObjectId → Bool)
    (control : TransactionControl) :
    (s.unwoundEvidence control).records ⊆
      (s.applyTransactionControl inferred control).2.evidence.records := by
  have hinner := s.records_applyTransactionInner inferred control
  rcases s.applyTransactionControl_cases inferred control with
    ⟨-, hgate, hstill⟩ | ⟨-, -, hsnd | ⟨-, hsnd⟩⟩
  · rw [hstill]
    have hnil : s.unwoundFrames control = [] := by
      cases control <;> simp_all [runsWhenAborted, unwoundFrames]
    rw [unwoundEvidence_of_nil hnil]
    exact List.Subset.refl _
  · rwa [hsnd]
  · rwa [hsnd]

end AnalysisState

namespace Engine

variable {μ : Type} (e : Engine μ)

/-! Evaluating the rules adds evidence and findings. -/

/-- Findings of this statement came in, over a log that only grew. -/
structure AddsFindings (scope : StatementScope μ) (run next : StatementRun) : Prop where
  grows : EvidenceGrows run.state next.state
  failed : next.failed = run.failed
  added : ∃ new, next.violations = run.violations ++ new ∧
    ∀ f ∈ new, f.statement = scope.index ∧
      (f.violation.sourceRange = none ∨
        f.violation.sourceRange = some scope.statement.findingRange) ∧
      f.log.records ⊆ next.state.evidence.records

section AddsFindings

variable {scope : StatementScope μ}

theorem AddsFindings.refl (run : StatementRun) : AddsFindings scope run run where
  grows := Std.Refl.refl _
  failed := rfl
  added := ⟨[], by simp, by simp⟩

theorem AddsFindings.trans {run next last : StatementRun} (h : AddsFindings scope run next)
    (h' : AddsFindings scope next last) : AddsFindings scope run last where
  grows := h.grows.trans h'.grows
  failed := h'.failed.trans h.failed
  added := by
    obtain ⟨new, hnew, hall⟩ := h.added
    obtain ⟨more, hmore, hall'⟩ := h'.added
    refine ⟨new ++ more, by rw [hmore, hnew, List.append_assoc], ?_⟩
    intro f hf
    rcases List.mem_append.mp hf with hf | hf
    · obtain ⟨hindex, hrange, hlog⟩ := hall f hf
      exact ⟨hindex, hrange, List.Subset.trans hlog h'.grows.records⟩
    · exact hall' f hf

instance : Std.Refl (AddsFindings scope) := ⟨AddsFindings.refl⟩

instance : IsTrans StatementRun (AddsFindings scope) := ⟨fun _ _ _ => AddsFindings.trans⟩

theorem addsFindings_push {violation : Violation} (run : StatementRun)
    (h : violation.sourceRange = none ∨
      violation.sourceRange = some scope.statement.findingRange) :
    AddsFindings scope run (push scope violation run) where
  grows := Std.Refl.refl _
  failed := rfl
  added := by
    refine ⟨_, rfl, ?_⟩
    intro f hf
    obtain rfl := List.mem_singleton.mp hf
    exact ⟨rfl, h, List.Subset.refl _⟩

theorem addsFindings_pushUnlessWarned (run : StatementRun) {violation : Violation}
    (h : violation.sourceRange = none) :
    AddsFindings scope run (pushUnlessWarned scope run violation) := by
  unfold pushUnlessWarned
  dsimp only
  split
  · exact addsFindings_push run (by simp [h])
  · split
    · exact AddsFindings.refl run
    · next key _ _ =>
      have hkeys : AddsFindings scope run { run with warnedKeys := key :: run.warnedKeys } :=
        ⟨Std.Refl.refl _, rfl, [], by simp, by simp⟩
      exact hkeys.trans (addsFindings_push _ (by simp [h]))

theorem addsFindings_taintMissing (transition : TransitionRecord μ) (run : StatementRun)
    (capability : RuleCapability) :
    AddsFindings scope run (taintMissing e transition run capability) := by
  unfold taintMissing
  split
  · exact AddsFindings.refl run
  · exact ⟨KeepsEvidence.taint _ _ _, rfl, [], by simp, by simp⟩

theorem addsFindings_evaluateRule (transition : TransitionRecord μ) (run : StatementRun)
    (rule : Rule μ) : AddsFindings scope run (evaluateRule e scope transition run rule) := by
  unfold evaluateRule
  dsimp only
  split
  · exact addsFindings_push run (Or.inl rfl)
  · split
    · exact AddsFindings.refl run
    · split
      · exact AddsFindings.refl run
      · refine AddsFindings.trans ?_ (Command.keeps_foldl _ (fun violation hviolation run => ?_) _)
        · split
          · exact AddsFindings.refl run
          · exact Command.keeps_foldl _ (fun capability _ run =>
              addsFindings_taintMissing e transition run capability) run
        · exact addsFindings_pushUnlessWarned run (rule.unlocated _ violation hviolation)

theorem addsFindings_evaluateRules (transition : TransitionRecord μ) (run : StatementRun) :
    AddsFindings scope run (e.evaluateRules scope transition run) :=
  Command.keeps_foldl _ (fun rule _ run => addsFindings_evaluateRule e transition run rule) run

end AddsFindings

/-! The checkpoint of a statement restores its evidence log. -/

section Checkpoint

variable {s t restored : AnalysisState} {mutations : List (Mutation μ)}

theorem restored_evidence
    (hgrows : mutations.any (·.isTransactionControl) = false → EvidenceGrows s t)
    (h : (StatementCheckpoint.capture s mutations).restore t = .ok restored) :
    restored.evidence = s.evidence := by
  unfold StatementCheckpoint.capture at h
  cases hcontrol : mutations.any (·.isTransactionControl) with
  | true =>
    rw [hcontrol] at h
    cases h
    rfl
  | false =>
    rw [hcontrol] at h
    obtain ⟨⟨entries, hframes, hreplay⟩, -⟩ := hgrows hcontrol
    cases hopen : s.transactions with
    | nil =>
      simp only [AnalysisState.transactionUndoCheckpoint, hopen] at h
      cases h
      rfl
    | cons frame outer =>
      simp only [AnalysisState.transactionUndoCheckpoint, hopen] at h
      rw [hopen] at hframes
      simp only [StatementCheckpoint.restore, AnalysisState.rollbackToTransactionUndoCheckpoint,
        hframes, appendUndo, List.length_cons, List.length_append] at h
      rw [if_neg (by simp), if_neg (by omega)] at h
      cases h
      rw [AnalysisState.rollbackUndoLog_evidence, List.drop_left]
      exact hreplay

theorem evidenceGrows_apply (ops : Operations μ) (s : AnalysisState)
    (cascade : Option CascadeResult) (m : μ) :
    EvidenceGrows s (Mutation.apply ops s cascade (.operation m)).2 := by
  have hgrows := ops.evidenceGrows m s cascade
  simp only [Mutation.apply]
  split
  · exact Std.Refl.refl s
  · split
    · next kind t happly =>
      rw [happly] at hgrows
      dsimp only
      split
      · exact hgrows
      · exact hgrows.trans (.of_eq rfl rfl)
    · exact hgrows

end Checkpoint

/-! A run keeps, behind every finding that a record taints, such a record. -/

section Undisturbed

variable (fileOrder : List String) (fileIndex : Nat) (file : ParsedFile μ)

def placeOf (f : Recorded) : Option (Nat × Nat) :=
  (statementIndexOf file f).map fun index => (fileIndex, index)

/-- The finding is tainted by a record of this log. -/
def SupportedBy (log : EvidenceLog) (f : Recorded) : Prop :=
  Supported fileOrder (placeOf fileIndex file f) log

instance (log : EvidenceLog) (f : Recorded) :
    Decidable (SupportedBy fileOrder fileIndex file log f) :=
  inferInstanceAs (Decidable (Supported _ _ _))

/-- The frames that a statement unwinds were opened after Chain evidence of an
earlier statement than all that theirs recorded, or theirs recorded nothing that
counts for a finding. -/
def FramesSpare (findings : List Recorded) (s : AnalysisState) (control : TransactionControl) :
    Prop :=
  (∃ first ∈ (s.unwoundEvidence control).records, first.scope = .chain ∧
    ∀ record ∈ s.framesEvidence control, precedes fileOrder first record = true) ∨
  ∀ record ∈ s.framesEvidence control, ∀ f ∈ findings,
    counts fileOrder (placeOf fileIndex file f) record = false

instance (findings : List Recorded) (s : AnalysisState) (control : TransactionControl) :
    Decidable (FramesSpare fileOrder fileIndex file findings s control) :=
  inferInstanceAs (Decidable (_ ∨ _))

variable {fileOrder fileIndex file} in
theorem FramesSpare.supported {findings : List Recorded} {s : AnalysisState}
    {control : TransactionControl} (h : FramesSpare fileOrder fileIndex file findings s control)
    {f : Recorded} (hf : f ∈ findings) (hs : SupportedBy fileOrder fileIndex file s.evidence f) :
    SupportedBy fileOrder fileIndex file (s.unwoundEvidence control) f := by
  obtain ⟨record, hrecord, hcounts⟩ := hs
  by_cases hsaved : record ∈ (s.unwoundEvidence control).records
  · exact ⟨record, hsaved, hcounts⟩
  · have hframes : record ∈ s.framesEvidence control := s.mem_framesEvidence.mpr ⟨hrecord, hsaved⟩
    rcases h with ⟨first, hfirst, hscope, hprecedes⟩ | hnone
    · exact ⟨first, hfirst, counts_of_precedes hscope (hprecedes record hframes) hcounts⟩
    · rw [hnone record hframes f hf] at hcounts
      cases hcounts

def MutationsUndisturbed (scope : StatementScope μ) (checkpoint : StatementCheckpoint)
    (prior : List Recorded) : List (Mutation μ) → StatementRun → Prop
  | [], _ => True
  | mutation :: rest, run =>
    (∀ control, mutation = .control control →
      FramesSpare fileOrder fileIndex file (prior ++ run.violations) run.state control) ∧
    ∀ next, e.runMutation scope checkpoint mutation run = .ok next → next.failed = false →
      MutationsUndisturbed scope checkpoint prior rest next

def StatementUndisturbed (index : Nat) (statement : ParsedStatement μ) (run : FileRun) : Prop :=
  let state := setEvidenceLocation run.state (some ⟨file.filename, index⟩)
  MutationsUndisturbed e fileOrder fileIndex file
    { index, statement, fileIgnores := file.ignores, warnedKeys := run.warnedKeys }
    (.capture state (statement.mutations state)) run.violations (statement.mutations state)
    { state, violations := [], warnedKeys := [], failed := false }

def StatementsUndisturbed : Nat → List (ParsedStatement μ) → FileRun → Prop
  | _, [], _ => True
  | index, statement :: rest, run =>
    StatementUndisturbed e fileOrder fileIndex file index statement run ∧
    ∀ next, e.runStatement file index statement run = .ok next →
      StatementsUndisturbed (index + 1) rest next

end Undisturbed

section Support

variable {fileOrder : List String} {fileIndex : Nat} {file : ParsedFile μ}

/-- The findings so far are where the statement is, and still supported if
their log supported them. -/
def RecordedIn (fileOrder : List String) (fileIndex : Nat) (file : ParsedFile μ) (index : Nat)
    (range : TextRange) (log : EvidenceLog) (f : Recorded) : Prop :=
  f.statement = index ∧
    (f.violation.sourceRange = none ∨ f.violation.sourceRange = some range) ∧
    (SupportedBy fileOrder fileIndex file f.log f → SupportedBy fileOrder fileIndex file log f)

structure StatementSupport (fileOrder : List String) (fileIndex : Nat) (file : ParsedFile μ)
    (scope : StatementScope μ) (started : AnalysisState) (prior : List Recorded)
    (run : StatementRun) : Prop where
  prior : ∀ f ∈ prior, SupportedBy fileOrder fileIndex file started.evidence f →
    SupportedBy fileOrder fileIndex file run.state.evidence f
  own : ∀ f ∈ run.violations, RecordedIn fileOrder fileIndex file scope.index
    scope.statement.findingRange run.state.evidence f

variable {scope : StatementScope μ} {started : AnalysisState} {prior : List Recorded}

theorem StatementSupport.adds {run next : StatementRun}
    (h : StatementSupport fileOrder fileIndex file scope started prior run)
    (hadds : AddsFindings scope run next) :
    StatementSupport fileOrder fileIndex file scope started prior next where
  prior f hf hsupported := (h.prior f hf hsupported).mono hadds.grows.records
  own f hf := by
    obtain ⟨new, hnew, hall⟩ := hadds.added
    rw [hnew] at hf
    rcases List.mem_append.mp hf with hf | hf
    · obtain ⟨hindex, hrange, hlog⟩ := h.own f hf
      exact ⟨hindex, hrange, fun hs => (hlog hs).mono hadds.grows.records⟩
    · obtain ⟨hindex, hrange, hlog⟩ := hall f hf
      exact ⟨hindex, hrange, fun hs => hs.mono hlog⟩

/-- A mutation that keeps the support of the findings it found. -/
theorem StatementSupport.state {run : StatementRun} {t : AnalysisState}
    (h : StatementSupport fileOrder fileIndex file scope started prior run)
    (hkeeps : ∀ f ∈ prior ++ run.violations,
      SupportedBy fileOrder fileIndex file run.state.evidence f →
        SupportedBy fileOrder fileIndex file t.evidence f) :
    StatementSupport fileOrder fileIndex file scope started prior { run with state := t } where
  prior f hf hs := hkeeps f (List.mem_append_left _ hf) (h.prior f hf hs)
  own f hf := by
    obtain ⟨hindex, hrange, hlog⟩ := h.own f hf
    exact ⟨hindex, hrange, fun hs => hkeeps f (List.mem_append_right _ hf) (hlog hs)⟩

/-- After a conflict the statement starts over without findings. -/
theorem StatementSupport.restored {t : AnalysisState} {failed : StatementRun}
    {checkpoint : StatementCheckpoint}
    (hrestore : ∀ restored, checkpoint.restore t = .ok restored →
      restored.evidence = started.evidence)
    (h : restoreFailed checkpoint t = .ok failed) :
    StatementSupport fileOrder fileIndex file scope started prior failed := by
  unfold restoreFailed at h
  cases hok : checkpoint.restore t with
  | error error =>
    rw [hok] at h
    cases h
  | ok restored =>
    rw [hok] at h
    have hevidence := hrestore restored hok
    cases h
    have hsame : (if (t.transactionAborted && !restored.transactions.isEmpty) = true then
        restored.setTransactionAborted true else restored).evidence = started.evidence := by
      split <;> exact hevidence
    exact ⟨fun f _ hs => hsame ▸ hs, by simp⟩

variable {e} {mutations : List (Mutation μ)} {mutation : Mutation μ}

/-- What the mutation itself does to the support of earlier findings. -/
theorem supported_apply {findings : List Recorded} {s : AnalysisState}
    (cascade : Option CascadeResult)
    (hspare : ∀ control, mutation = .control control →
      FramesSpare fileOrder fileIndex file findings s control) (f : Recorded) (hf : f ∈ findings)
    (hs : SupportedBy fileOrder fileIndex file s.evidence f) :
    SupportedBy fileOrder fileIndex file (mutation.apply e.ops s cascade).2.evidence f := by
  cases mutation with
  | control control =>
    have hunwound := (hspare control rfl).supported hf hs
    exact hunwound.mono (s.records_applyTransactionControl e.ops.inferredSchema control)
  | operation m => exact hs.mono (evidenceGrows_apply e.ops s cascade m).records

theorem StatementSupport.runMutation {run next : StatementRun}
    (h : StatementSupport fileOrder fileIndex file scope started prior run)
    (hmem : mutation ∈ mutations)
    (hgrows : mutations.any (·.isTransactionControl) = false → EvidenceGrows started run.state)
    (hspare : ∀ control, mutation = .control control →
      FramesSpare fileOrder fileIndex file (prior ++ run.violations) run.state control)
    (hrun : e.runMutation scope (.capture started mutations) mutation run = .ok next) :
    StatementSupport fileOrder fileIndex file scope started prior next ∧
      (next.failed = false → mutations.any (·.isTransactionControl) = false →
        EvidenceGrows started next.state) := by
  have hafter := supported_apply (e := e) (mutation.preCascade e.ops run.state) hspare
  have hundo : mutations.any (·.isTransactionControl) = false → EvidenceGrows started
      (mutation.apply e.ops run.state (mutation.preCascade e.ops run.state)).2 := by
    intro hnone
    cases mutation with
    | control control =>
      have hcontrol := (List.any_eq_false.mp hnone) _ hmem
      simp [Mutation.isTransactionControl] at hcontrol
    | operation m => exact (hgrows hnone).trans (evidenceGrows_apply e.ops _ _ m)
  unfold Engine.runMutation at hrun
  dsimp only at hrun
  generalize mutation.apply e.ops run.state (mutation.preCascade e.ops run.state) = applied
    at hafter hundo hrun
  obtain ⟨result, t⟩ := applied
  dsimp only at hafter hundo hrun
  by_cases hconflict : result.isConflict = true
  · rw [if_pos hconflict] at hrun
    cases hfailed : restoreFailed (.capture started mutations) t with
    | error error =>
      rw [hfailed] at hrun
      cases hrun
    | ok failed =>
      rw [hfailed] at hrun
      cases hrun
      have hbase : StatementSupport fileOrder fileIndex file scope started prior failed :=
        .restored (fun restored hok => restored_evidence hundo hok) hfailed
      have hadds : AddsFindings scope failed (e.evaluateRules scope
          ⟨mutation, result, run.state, mutation.preCascade e.ops run.state⟩ failed) :=
        addsFindings_evaluateRules e _ failed
      refine ⟨hbase.adds hadds, fun hnot => ?_⟩
      -- the statement failed, so nothing of it is left to undo
      have htrue : failed.failed = true := by
        unfold restoreFailed at hfailed
        cases hok : (StatementCheckpoint.capture started mutations).restore t <;>
          rw [hok] at hfailed <;> cases hfailed
        rfl
      rw [hadds.failed, htrue] at hnot
      cases hnot
  · rw [if_neg hconflict] at hrun
    have hmoved : StatementSupport fileOrder fileIndex file scope started prior
        { run with state := t } := h.state hafter
    by_cases hskipped : result = .notExecuted
    · rw [if_pos hskipped] at hrun
      cases hrun
      exact ⟨hmoved, fun _ => hundo⟩
    · rw [if_neg hskipped] at hrun
      cases hrun
      have hadds : AddsFindings scope { run with state := t } (e.evaluateRules scope
          ⟨mutation, result, run.state, mutation.preCascade e.ops run.state⟩
            { run with state := t }) := addsFindings_evaluateRules e _ _
      exact ⟨hmoved.adds hadds, fun _ hnone => (hundo hnone).trans hadds.grows⟩

theorem StatementSupport.runMutations {rest : List (Mutation μ)} {run done : StatementRun}
    (h : StatementSupport fileOrder fileIndex file scope started prior run)
    (hsub : ∀ mutation ∈ rest, mutation ∈ mutations)
    (hgrows : mutations.any (·.isTransactionControl) = false → EvidenceGrows started run.state)
    (hquiet : MutationsUndisturbed e fileOrder fileIndex file scope (.capture started mutations)
      prior rest run)
    (hrun : e.runMutations scope (.capture started mutations) rest run = .ok done) :
    StatementSupport fileOrder fileIndex file scope started prior done := by
  induction rest generalizing run with
  | nil =>
    cases hrun
    exact h
  | cons mutation rest ih =>
    obtain ⟨hspare, hrest⟩ := hquiet
    unfold Engine.runMutations at hrun
    cases hnext : e.runMutation scope (.capture started mutations) mutation run with
    | error error =>
      rw [hnext] at hrun
      cases hrun
    | ok next =>
      rw [hnext] at hrun
      obtain ⟨hsupport, hundo⟩ := h.runMutation (hsub mutation (by simp)) hgrows hspare hnext
      dsimp only at hrun
      by_cases hfailed : next.failed = true
      · rw [if_pos hfailed] at hrun
        cases hrun
        exact hsupport
      · have hgoes : next.failed = false := by simpa using hfailed
        rw [if_neg hfailed] at hrun
        exact ih hsupport (fun m hm => hsub m (by simp [hm])) (hundo hgoes)
          (hrest next hnext hgoes) hrun

/-- Later statements keep earlier findings, and keep them supported. -/
structure Persists (fileOrder : List String) (fileIndex : Nat) (file : ParsedFile μ)
    (run next : FileRun) : Prop where
  violations : run.violations <+: next.violations
  supported : ∀ f ∈ run.violations,
    SupportedBy fileOrder fileIndex file run.state.evidence f →
      SupportedBy fileOrder fileIndex file next.state.evidence f

theorem Persists.trans {run next last : FileRun} (h : Persists fileOrder fileIndex file run next)
    (h' : Persists fileOrder fileIndex file next last) :
    Persists fileOrder fileIndex file run last where
  violations := h.violations.trans h'.violations
  supported f hf hs := h'.supported f (h.violations.subset hf) (h.supported f hf hs)

variable {index : Nat} {statement : ParsedStatement μ}

theorem records_finishStatement (started : AnalysisState) (run : FileRun) (done : StatementRun) :
    done.state.evidence.records ⊆
      (e.finishStatement mutations started run done).state.evidence.records := by
  unfold finishStatement
  dsimp only
  split
  · unfold applyImplicitCommitActions
    split
    · exact (AnalysisState.keeps_applyOnCommitActions (R := EvidenceGrows) _ _).records
    · exact List.Subset.refl _
  · exact List.Subset.refl _

theorem runStatement_persists {run next : FileRun}
    (hquiet : StatementUndisturbed e fileOrder fileIndex file index statement run)
    (hrun : e.runStatement file index statement run = .ok next) :
    Persists fileOrder fileIndex file run next ∧
      ∃ own, next.violations = run.violations ++ own ∧ ∀ f ∈ own,
        RecordedIn fileOrder fileIndex file index statement.findingRange next.state.evidence f := by
  unfold runStatement at hrun
  unfold StatementUndisturbed at hquiet
  dsimp only at hrun hquiet
  generalize hstart : setEvidenceLocation run.state (some ⟨file.filename, index⟩) = started
    at hrun hquiet
  have hevidence : started.evidence = run.state.evidence := by rw [← hstart]; rfl
  generalize hscope : StatementScope.mk index statement file.ignores run.warnedKeys = scope
    at hrun hquiet
  cases hdone : e.runMutations scope (.capture started (statement.mutations started))
      (statement.mutations started)
      { state := started, violations := [], warnedKeys := [], failed := false } with
  | error error =>
    rw [hdone] at hrun
    cases hrun
  | ok done =>
    rw [hdone] at hrun
    cases hrun
    have hbegin : StatementSupport fileOrder fileIndex file scope started run.violations
        { state := started, violations := [], warnedKeys := [], failed := false } :=
      ⟨fun _ _ hs => hs, by simp⟩
    have hend := hbegin.runMutations (fun _ hm => hm) (fun _ => Std.Refl.refl _) hquiet hdone
    have hfinish : done.state.evidence.records ⊆ (e.finishStatement (statement.mutations started)
        started run done).state.evidence.records := records_finishStatement started run done
    refine ⟨⟨List.prefix_append _ _, fun f hf hs => ?_⟩, done.violations, rfl, fun f hf => ?_⟩
    · exact (hend.prior f hf (hevidence ▸ hs)).mono hfinish
    · obtain ⟨hindex, hrange, hlog⟩ := hend.own f hf
      subst hscope
      exact ⟨hindex, hrange, fun hs => (hlog hs).mono hfinish⟩

/-- A recorded finding is in its statement, or without a place, and its log
still supports it. -/
def StillSupported (fileOrder : List String) (fileIndex : Nat) (file : ParsedFile μ)
    (log : EvidenceLog) (f : Recorded) : Prop :=
  (statementIndexOf file f = none ∨ statementIndexOf file f = some f.statement) ∧
    (SupportedBy fileOrder fileIndex file f.log f → SupportedBy fileOrder fileIndex file log f)

theorem RecordedIn.stillSupported {log : EvidenceLog} {f : Recorded} {k : Nat}
    (h : RecordedIn fileOrder fileIndex file (k + 1) statement.findingRange log f)
    (hstatement : file.statements[k]? = some statement) :
    StillSupported fileOrder fileIndex file log f := by
  obtain ⟨hindex, hrange, hlog⟩ := h
  refine ⟨?_, hlog⟩
  rcases hrange with hnone | hsome
  · exact Or.inl (by simp [statementIndexOf, hnone])
  · have hlocated := file.located k statement hstatement
    exact Or.inr (by simp [statementIndexOf, hsome, hlocated, hindex])

theorem runStatements_persists {rest : List (ParsedStatement μ)} {run last : FileRun}
    (hquiet : StatementsUndisturbed e fileOrder fileIndex file index rest run)
    (hrun : e.runStatements file index rest run = .ok last) :
    Persists fileOrder fileIndex file run last := by
  induction rest generalizing index run with
  | nil =>
    cases hrun
    exact ⟨List.prefix_refl _, fun _ _ hs => hs⟩
  | cons statement rest ih =>
    obtain ⟨hstatement, hlater⟩ := hquiet
    unfold runStatements at hrun
    cases hnext : e.runStatement file index statement run with
    | error error =>
      rw [hnext] at hrun
      cases hrun
    | ok next =>
      rw [hnext] at hrun
      have hpersists := (runStatement_persists hstatement hnext).1
      exact hpersists.trans (ih (hlater next hnext) hrun)

theorem runStatements_stillSupported {rest : List (ParsedStatement μ)} {k : Nat}
    {run last : FileRun} (hrest : file.statements.drop k = rest)
    (hquiet : StatementsUndisturbed e fileOrder fileIndex file (k + 1) rest run)
    (hfound : ∀ f ∈ run.violations,
      StillSupported fileOrder fileIndex file run.state.evidence f)
    (hrun : e.runStatements file (k + 1) rest run = .ok last) :
    ∀ f ∈ last.violations, StillSupported fileOrder fileIndex file last.state.evidence f := by
  induction rest generalizing k run with
  | nil =>
    cases hrun
    exact hfound
  | cons statement rest ih =>
    obtain ⟨hstatement, hlater⟩ := hquiet
    unfold runStatements at hrun
    cases hnext : e.runStatement file (k + 1) statement run with
    | error error =>
      rw [hnext] at hrun
      cases hrun
    | ok next =>
      rw [hnext] at hrun
      obtain ⟨hpersists, own, hown, hall⟩ := runStatement_persists hstatement hnext
      have hhere : file.statements[k]? = some statement := by
        rw [← List.head?_drop, hrest]
        rfl
      have hdrop : file.statements.drop (k + 1) = rest := by
        rw [← List.tail_drop, hrest]
        rfl
      refine ih hdrop (hlater next hnext) (fun f hf => ?_) hrun
      rw [hown] at hf
      rcases List.mem_append.mp hf with hf | hf
      · obtain ⟨hplace, hlog⟩ := hfound f hf
        exact ⟨hplace, fun hs => hpersists.supported f hf (hlog hs)⟩
      · exact (hall f hf).stillSupported hhere

theorem runStatements_append (e : Engine μ) (file : ParsedFile μ) (index : Nat)
    (statements rest : List (ParsedStatement μ)) (run : FileRun) :
    e.runStatements file index (statements ++ rest) run =
      match e.runStatements file index statements run with
      | .error error => .error error
      | .ok next => e.runStatements file (index + statements.length) rest next := by
  induction statements generalizing index run with
  | nil => rfl
  | cons statement statements ih =>
    rw [List.cons_append, runStatements, runStatements]
    cases e.runStatement file index statement run with
    | error error => rfl
    | ok next =>
      dsimp only
      rw [ih, List.length_cons, Nat.add_assoc, Nat.add_comm 1]

theorem StatementsUndisturbed.append {statements rest : List (ParsedStatement μ)} {run : FileRun}
    (h : StatementsUndisturbed e fileOrder fileIndex file index (statements ++ rest) run) :
    StatementsUndisturbed e fileOrder fileIndex file index statements run ∧
      ∀ next, e.runStatements file index statements run = .ok next →
        StatementsUndisturbed e fileOrder fileIndex file (index + statements.length) rest next := by
  induction statements generalizing index run with
  | nil =>
    refine ⟨trivial, ?_⟩
    rintro next ⟨⟩
    exact h
  | cons statement statements ih =>
    obtain ⟨hstatement, hlater⟩ := h
    refine ⟨⟨hstatement, fun next hnext => (ih (hlater next hnext)).1⟩, fun last hrun => ?_⟩
    unfold runStatements at hrun
    cases hnext : e.runStatement file index statement run with
    | error error =>
      rw [hnext] at hrun
      cases hrun
    | ok next =>
      rw [hnext] at hrun
      have hrest := (ih (hlater next hnext)).2 last hrun
      rwa [List.length_cons, Nat.add_comm statements.length, ← Nat.add_assoc]

end Support

end Engine

end SafeMigrate
