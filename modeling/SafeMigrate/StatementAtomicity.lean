import SafeMigrate.CatalogRuns
import SafeMigrate.CertaintyRuns
import SafeMigrate.LiveAliases
import SafeMigrate.TableEngine

/-! Statements are atomic: the undo entries of a statement that fails give back
the catalog and every open frame as the statement found them. -/

namespace SafeMigrate

open NestedUndo

variable {μ : Type}

/-- Every operation pushes an entry for what it writes. -/
def Operations.RecordsChanges (ops : Operations μ) : Prop :=
  ∀ m s cascade, Logged s (ops.apply m s cascade).2

def hasControl (mutations : List (Mutation μ)) : Bool := mutations.any (·.isTransactionControl)

section Checkpoint

/-- Nothing of a statement is left: neither a write, nor an undo entry. -/
structure Restores (s restored : AnalysisState) : Prop where
  transactions : restored.transactions = s.transactions
  logged : restored.logged = s.logged

variable {s t restored : AnalysisState}

theorem Restores.refl (s : AnalysisState) : Restores s s := ⟨rfl, rfl⟩

theorem Restores.nested (h : Restores s restored) : restored.nested = s.nested := by
  unfold AnalysisState.nested
  rw [h.transactions, h.logged]

theorem Restores.setTransactionAborted (h : Restores s restored) (aborted : Bool) :
    Restores s (restored.setTransactionAborted aborted) := ⟨h.transactions, h.logged⟩

/-- The entries pushed since the checkpoint are the tail of the undo log. -/
theorem restores_of_logged (h : Logged s t) {frame : TransactionFrame}
    {outer : List TransactionFrame} (hopen : s.transactions = frame :: outer) :
    ∃ restored, t.rollbackToTransactionUndoCheckpoint s.transactions.length frame.undoLog.length =
      .ok restored ∧ Restores s restored := by
  obtain ⟨entries, hframes, hreplay, -⟩ := h
  rw [hopen] at hframes
  have hlength : t.transactions.length = s.transactions.length := by rw [hframes, hopen]; rfl
  have hlong : ¬(frame.undoLog ++ entries).length < frame.undoLog.length := by simp
  refine ⟨({ t with transactions := frame :: outer } : AnalysisState).rollbackUndoLog entries,
    ?_, ?_, ?_⟩
  · unfold AnalysisState.rollbackToTransactionUndoCheckpoint
    rw [if_neg (not_not.mpr hlength), hframes]
    simp only [appendUndo]
    rw [if_neg hlong, List.drop_left, List.take_left]
  · rw [AnalysisState.rollbackUndoLog_transactions, hopen]
  · rw [logged_rollbackUndoLog]
    exact hreplay

theorem restores_capture {mutations : List (Mutation μ)}
    (h : hasControl mutations = false → Logged s t) :
    ∃ restored, (StatementCheckpoint.capture s mutations).restore t = .ok restored ∧
      Restores s restored := by
  unfold StatementCheckpoint.capture
  cases hcontrol : hasControl mutations with
  | true =>
    refine ⟨s, ?_, .refl s⟩
    rw [show mutations.any (·.isTransactionControl) = true from hcontrol]
    rfl
  | false =>
    rw [show mutations.any (·.isTransactionControl) = false from hcontrol]
    cases hopen : s.transactions with
    | nil =>
      refine ⟨s, ?_, .refl s⟩
      simp only [AnalysisState.transactionUndoCheckpoint, hopen]
      rfl
    | cons frame outer =>
      obtain ⟨restored, hok, hrestores⟩ := restores_of_logged (h hcontrol) hopen
      refine ⟨restored, ?_, hrestores⟩
      simp only [AnalysisState.transactionUndoCheckpoint, hopen]
      rwa [hopen] at hok

end Checkpoint

/-- Evidence of the catalog data that rules missed. -/
def AnalysisState.taintAll (s : AnalysisState) (codes : List EvidenceCode) : AnalysisState :=
  codes.foldl (fun t code => t.taint code .statement) s

theorem AnalysisState.logged_taintAll (s : AnalysisState) (codes : List EvidenceCode) :
    Logged s (s.taintAll codes) :=
  Logged.foldl (fun t code => t.logged_taint code .statement) codes s

@[simp] theorem AnalysisState.taintAll_relations (s : AnalysisState) (codes : List EvidenceCode) :
    (s.taintAll codes).relations = s.relations := by
  unfold taintAll
  induction codes generalizing s with
  | nil => rfl
  | cons code codes ih => rw [List.foldl_cons, ih, taint_relations]

@[simp] theorem AnalysisState.taintAll_transactionAborted (s : AnalysisState)
    (codes : List EvidenceCode) : (s.taintAll codes).transactionAborted = s.transactionAborted := by
  unfold taintAll
  induction codes generalizing s with
  | nil => rfl
  | cons code codes ih => rw [List.foldl_cons, ih, taint_transactionAborted]

/-- Rules judge a statement, and write nothing but evidence. -/
structure OnlyJudges (run next : StatementRun) : Prop where
  failed : next.failed = run.failed
  state : ∃ codes, next.state = run.state.taintAll codes

namespace OnlyJudges

variable {run next last : StatementRun}

theorem of_eq (hfailed : next.failed = run.failed) (hstate : next.state = run.state) :
    OnlyJudges run next := ⟨hfailed, [], hstate⟩

theorem trans (h : OnlyJudges run next) (h' : OnlyJudges next last) : OnlyJudges run last where
  failed := h'.failed.trans h.failed
  state := by
    obtain ⟨codes, hcodes⟩ := h.state
    obtain ⟨more, hmore⟩ := h'.state
    refine ⟨codes ++ more, ?_⟩
    rw [hmore, hcodes, AnalysisState.taintAll, AnalysisState.taintAll, AnalysisState.taintAll,
      List.foldl_append]

instance : Std.Refl OnlyJudges := ⟨fun _ => .of_eq rfl rfl⟩

instance : IsTrans StatementRun OnlyJudges := ⟨fun _ _ _ => trans⟩

theorem logged (h : OnlyJudges run next) : Logged run.state next.state := by
  obtain ⟨codes, hcodes⟩ := h.state
  rw [hcodes]
  exact run.state.logged_taintAll codes

end OnlyJudges

namespace Engine

variable (e : Engine μ) (scope : StatementScope μ)

section Rules

variable (transition : TransitionRecord μ) (run : StatementRun)

theorem onlyJudges_pushUnlessWarned (violation : Violation) :
    OnlyJudges run (pushUnlessWarned scope run violation) := by
  unfold pushUnlessWarned
  dsimp only
  split
  · exact .of_eq rfl rfl
  · split <;> exact .of_eq rfl rfl

theorem onlyJudges_taintMissing (capability : RuleCapability) :
    OnlyJudges run (taintMissing e transition run capability) := by
  unfold taintMissing
  split
  · exact .of_eq rfl rfl
  · exact ⟨rfl, [_], rfl⟩

theorem onlyJudges_evaluateRule (rule : Rule μ) :
    OnlyJudges run (evaluateRule e scope transition run rule) := by
  unfold evaluateRule
  dsimp only
  refine Command.keeps_ite (fun _ => .of_eq rfl rfl) fun _ => ?_
  refine Command.keeps_ite (fun _ => Std.Refl.refl run) fun _ => ?_
  refine Command.keeps_ite (fun _ => Std.Refl.refl run) fun _ => ?_
  refine IsTrans.trans _ _ _ ?_ (Command.keeps_foldl _ (fun violation _ run =>
    onlyJudges_pushUnlessWarned scope run violation) _)
  refine Command.keeps_ite (fun _ => Std.Refl.refl run) fun _ => ?_
  exact Command.keeps_foldl _ (fun capability _ run =>
    onlyJudges_taintMissing e transition run capability) run

theorem onlyJudges_evaluateRules : OnlyJudges run (e.evaluateRules scope transition run) :=
  Command.keeps_foldl _ (fun rule _ run => onlyJudges_evaluateRule e scope transition run rule) run

end Rules

/-- A statement that failed: the findings are those about the mutation that
failed, and nothing else is left of it. -/
def FailedAtomically (s : AnalysisState) (mutations : List (Mutation μ)) (done : StatementRun) :
    Prop :=
  ∃ restored transition, Restores s restored ∧ transition.mutation ∈ mutations ∧
    transition.result.isConflict = true ∧
    (hasControl mutations = false → s.transactions ≠ [] → restored.transactionAborted = true) ∧
    done = e.evaluateRules scope transition
      { state := restored, violations := [], warnedKeys := [], failed := true }

theorem logged_apply_operation (hrecords : e.ops.RecordsChanges) (s : AnalysisState)
    (cascade : Option CascadeResult) (m : μ) :
    Logged s (Mutation.apply e.ops s cascade (.operation m)).2 := by
  have hlogged := hrecords m s cascade
  simp only [Mutation.apply]
  split
  · exact Logged.refl s
  · split
    · next kind t happly =>
      rw [happly] at hlogged
      dsimp only
      split
      · exact hlogged
      · exact hlogged
    · exact hlogged

theorem aborted_of_conflict {s t : AnalysisState} {cascade : Option CascadeResult} {m : μ}
    {result : MutationResult} (hlogged : Logged s t) (hopen : s.transactions ≠ [])
    (happly : Mutation.apply e.ops s cascade (.operation m) = (result, t))
    (hconflict : result.isConflict = true) : t.transactionAborted = true := by
  simp only [Mutation.apply] at happly
  split at happly
  · cases happly
    cases hconflict
  · split at happly
    · next kind u hu =>
      obtain ⟨rfl, rfl⟩ := Prod.mk.injEq .. ▸ happly
      split
      · next hempty =>
        have hlength := hlogged.transactions_length
        rw [if_pos hempty, List.isEmpty_iff.mp hempty] at hlength
        exact absurd (List.length_eq_zero_iff.mp hlength.symm) hopen
      · rfl
    · next hnot =>
      cases result with
      | conflict kind => exact absurd happly (hnot kind t)
      | _ => cases hconflict

section Statement

variable {e} {s : AnalysisState} {mutations : List (Mutation μ)}

/-- While no mutation has failed, the writes of a statement are all recorded. -/
theorem runMutation_atomic (scope : StatementScope μ) (hrecords : e.ops.RecordsChanges)
    {mutation : Mutation μ} (hmem : mutation ∈ mutations) {run : StatementRun}
    (hrun : hasControl mutations = false → Logged s run.state) (hgoes : run.failed = false) :
    ∃ next, e.runMutation scope (.capture s mutations) mutation run = .ok next ∧
      (next.failed = true → e.FailedAtomically scope s mutations next) ∧
      (next.failed = false → hasControl mutations = false → Logged s next.state) := by
  unfold runMutation
  dsimp only
  rcases happly : mutation.apply e.ops run.state (mutation.preCascade e.ops run.state) with
    ⟨result, t⟩
  have hstep : hasControl mutations = false →
      ∃ m, mutation = .operation m ∧ Logged run.state t := by
    intro hnone
    cases mutation with
    | control control => exact absurd rfl (List.any_eq_false.mp hnone _ hmem)
    | operation m =>
      have hlogged := e.logged_apply_operation hrecords run.state
        (Mutation.preCascade e.ops run.state (.operation m)) m
      rw [happly] at hlogged
      exact ⟨m, rfl, hlogged⟩
  have hlogged : hasControl mutations = false → Logged s t := fun hnone => by
    obtain ⟨m, -, ht⟩ := hstep hnone
    exact (hrun hnone).trans ht
  by_cases hconflict : result.isConflict = true
  · rw [if_pos hconflict]
    obtain ⟨restored, hok, hrestores⟩ := restores_capture hlogged
    unfold restoreFailed
    rw [hok]
    refine ⟨_, rfl, fun _ => ?_, fun hnot => ?_⟩
    · refine ⟨_, _, ?_, hmem, hconflict, ?_, rfl⟩
      · exact Command.keeps_ite (s := s) (R := Restores)
          (fun _ => hrestores.setTransactionAborted true) fun _ => hrestores
      · intro hnone hopen
        obtain ⟨m, rfl, ht⟩ := hstep hnone
        have hframes : run.state.transactions ≠ [] := by
          intro hnil
          have hlength := (hrun hnone).transactions_length
          rw [hnil] at hlength
          exact hopen (List.length_eq_zero_iff.mp hlength.symm)
        have haborted := e.aborted_of_conflict ht hframes happly hconflict
        have hstill : restored.transactions.isEmpty = false := by
          rw [hrestores.transactions]
          simpa using hopen
        simp [haborted, hstill, AnalysisState.setTransactionAborted]
    · rw [(e.onlyJudges_evaluateRules scope _ _).failed] at hnot
      cases hnot
  · rw [if_neg hconflict]
    by_cases hskipped : result = .notExecuted
    · rw [if_pos hskipped]
      refine ⟨_, rfl, fun hfailed => ?_, fun _ => hlogged⟩
      rw [show run.failed = true from hfailed] at hgoes
      cases hgoes
    · rw [if_neg hskipped]
      have hjudges := e.onlyJudges_evaluateRules scope
        ⟨mutation, result, run.state, mutation.preCascade e.ops run.state⟩ { run with state := t }
      refine ⟨_, rfl, fun hfailed => ?_, fun _ hnone => (hlogged hnone).trans hjudges.logged⟩
      rw [hjudges.failed, show run.failed = false from hgoes] at hfailed
      cases hfailed

theorem runMutations_atomic (scope : StatementScope μ) (hrecords : e.ops.RecordsChanges)
    (rest : List (Mutation μ)) (hsub : ∀ mutation ∈ rest, mutation ∈ mutations) {run : StatementRun}
    (hrun : hasControl mutations = false → Logged s run.state) (hgoes : run.failed = false) :
    ∃ done, e.runMutations scope (.capture s mutations) rest run = .ok done ∧
      (done.failed = true → e.FailedAtomically scope s mutations done) ∧
      (done.failed = false → hasControl mutations = false → Logged s done.state) := by
  induction rest generalizing run with
  | nil =>
    refine ⟨run, rfl, fun hfailed => ?_, fun _ => hrun⟩
    rw [hgoes] at hfailed
    cases hfailed
  | cons mutation rest ih =>
    obtain ⟨next, hnext, hfailed, hdone⟩ :=
      runMutation_atomic scope hrecords (hsub mutation (by simp)) hrun hgoes
    unfold runMutations
    rw [hnext]
    dsimp only
    split
    · next hstops =>
      refine ⟨next, rfl, hfailed, fun hnot => ?_⟩
      rw [hstops] at hnot
      cases hnot
    · next hcontinues =>
      have hnot : next.failed = false := by simpa using hcontinues
      exact ih (fun m hm => hsub m (by simp [hm])) (hdone hnot) hnot

end Statement

section File

variable {e}

theorem runStatements_total (hrecords : e.ops.RecordsChanges) (file : ParsedFile μ) (index : Nat)
    (statements : List (ParsedStatement μ)) (run : FileRun) :
    ∃ last, e.runStatements file index statements run = .ok last := by
  induction statements generalizing index run with
  | nil => exact ⟨run, rfl⟩
  | cons statement rest ih =>
    unfold runStatements runStatement
    dsimp only
    have hstarts : StatementRun.failed
      ⟨setEvidenceLocation run.state (some ⟨file.filename, index⟩), [], [], false⟩ = false := rfl
    obtain ⟨done, hdone, -⟩ := runMutations_atomic
      (s := setEvidenceLocation run.state (some ⟨file.filename, index⟩))
      ⟨index, statement, file.ignores, run.warnedKeys⟩ hrecords
      (statement.mutations (setEvidenceLocation run.state (some ⟨file.filename, index⟩)))
      (fun _ h => h) (fun _ => Logged.refl _) hstarts
    rw [hdone]
    exact ih (index + 1) _

theorem analyzeParsedFile_error_iff (hrecords : e.ops.RecordsChanges) (file : ParsedFile μ)
    (s : AnalysisState) (errors : List String) :
    e.analyzeParsedFile file s = .error errors ↔ file.errors ≠ [] ∧ errors = file.errors := by
  obtain ⟨last, hlast⟩ := runStatements_total hrecords file 1 file.statements (startOfFile s)
  unfold analyzeParsedFile
  rw [hlast]
  cases herrors : file.errors with
  | nil => simp
  | cons error rest => simp [eq_comm]

end File

end Engine

/-- A temporary table changes the search path unrecorded, and a table with a column
written twice makes the source panic. -/
def TableMutation.IsRecorded : TableMutation → Prop
  | .createTable create => create.persistence ≠ .temporary ∧ create.WritesColumnsOnce
  | _ => True

def Operations.restrict (ops : Operations μ) (p : μ → Prop) : Operations { m : μ // p m } where
  apply m := ops.apply m.1
  evidenceGrows m := ops.evidenceGrows m.1
  preCascade m := ops.preCascade m.1
  statisticsTargets m := ops.statisticsTargets m.1
  inferredSchema := ops.inferredSchema

def recordedTables (text : SqlText) (inferred : ObjectId → Bool) :
    Operations { m : TableMutation // m.IsRecorded } :=
  (TableMutation.operations text inferred).restrict TableMutation.IsRecorded

theorem recordsChanges_recordedTables (text : SqlText) (inferred : ObjectId → Bool) :
    (recordedTables text inferred).RecordsChanges := by
  rintro ⟨m, hm⟩ s cascade
  cases m with
  | isOpaque m => exact s.logged_taint m.code .chain
  | createTable create => exact (CreateTable.logged_command hm.1).outcome s
  | dropTable drop => exact s.logged_applyDropTable drop cascade

/-- `ConflictRule`. -/
def conflictRule : Rule μ where
  id := "chain-conflict"
  evaluatesWhenUnresolved _ := false
  requiredCapabilities := []
  evaluate context :=
    match context.transition.result with
    | .conflict (.rejected reason) =>
      [{ sourceRange := none, ruleId := "chain-conflict", objectKind := "unknown",
         objectName := "migration state", tier := .tier1,
         reason := "Migration chain conflict: " ++ reason,
         recipe := "Correct the migration so this statement can execute against the schema " ++
           "state produced by earlier statements. Use an idempotency guard only when a no-op " ++
           "is intended.",
         dedupKey := none }]
    | _ => []
  unlocated := by
    intro context violation hviolation
    split at hviolation
    · rw [List.mem_singleton.mp hviolation]
    · cases hviolation

def recordedEngine : Engine { m : TableMutation // m.IsRecorded } where
  ops := recordedTables textless fun _ => false
  config := { disabledRules := [], allowInlineSuppressions := false }
  rules := [conflictRule]

def createUsersTwice : List (Mutation { m : TableMutation // m.IsRecorded }) :=
  let create : { m : TableMutation // m.IsRecorded } :=
    ⟨.createTable { id := users }, by simp [TableMutation.IsRecorded, CreateTable.WritesColumnsOnce]⟩
  [.operation create, .operation create]

def usersScope : StatementScope { m : TableMutation // m.IsRecorded } :=
  { index := 1,
    statement := { range := (0, 9), findingRange := (0, 9), ignores := [],
                   mutations := fun _ => createUsersTwice },
    fileIgnores := [], warnedKeys := [] }

end SafeMigrate
