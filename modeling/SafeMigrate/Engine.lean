import SafeMigrate.EvidenceUndo

/-! The engine: it runs the mutations of each statement, restores the state
after a conflict, and collects the findings of the rules. The mutations other
than transaction control are a parameter, and so are the rules. -/

namespace SafeMigrate

/-- The mutations that are not transaction control. They change the evidence
log by recording evidence only. -/
structure Operations (μ : Type) where
  apply : μ → AnalysisState → Option CascadeResult → MutationResult × AnalysisState
  evidenceGrows : ∀ m s cascade, EvidenceGrows s (apply m s cascade).2
  /-- The closure computed ahead of a cascading drop. -/
  preCascade : μ → AnalysisState → Option CascadeResult
  /-- Relations whose row statistics a finding about the mutation needs. -/
  statisticsTargets : μ → AnalysisState → AnalysisState → List ObjectId
  inferredSchema : ObjectId → Bool

inductive Mutation (μ : Type)
  | control (control : TransactionControl)
  | operation (operation : μ)

namespace Mutation

variable {μ : Type}

def isTransactionControl : Mutation μ → Bool
  | control _ => true
  | operation _ => false

def preCascade (ops : Operations μ) (s : AnalysisState) : Mutation μ → Option CascadeResult
  | control _ => none
  | operation m => ops.preCascade m s

/-- `AnalysisState::apply`. -/
def apply (ops : Operations μ) (s : AnalysisState) (preCascade : Option CascadeResult) :
    Mutation μ → MutationResult × AnalysisState
  | control c => s.applyTransactionControl ops.inferredSchema c
  | operation m =>
    if s.transactionAborted then (.notExecuted, s)
    else match ops.apply m s preCascade with
      | (.conflict kind, s) =>
        (.conflict kind, if s.transactions.isEmpty then s else s.setTransactionAborted true)
      | result => result

end Mutation

/-- `unresolved_cause`. -/
def MutationResult.unresolvedCause : MutationResult → Option EvidenceCode
  | .unresolved cause => some cause
  | _ => none

def MutationResult.isConflict : MutationResult → Bool
  | .conflict _ => true
  | _ => false

inductive StatementCheckpoint
  | full (checkpoint : AnalysisState)
  | transactionUndo (transactionDepth undoLen : Nat)

namespace StatementCheckpoint

def capture {μ : Type} (s : AnalysisState) (mutations : List (Mutation μ)) : StatementCheckpoint :=
  match mutations.any (·.isTransactionControl), s.transactionUndoCheckpoint with
  | false, some (transactionDepth, undoLen) => .transactionUndo transactionDepth undoLen
  | _, _ => .full s

def restore (s : AnalysisState) : StatementCheckpoint → Except String AnalysisState
  | .full checkpoint => .ok checkpoint
  | .transactionUndo transactionDepth undoLen =>
    s.rollbackToTransactionUndoCheckpoint transactionDepth undoLen

end StatementCheckpoint

inductive ViolationTier
  | tier1
  | tier2
  | tier3
deriving DecidableEq

abbrev TextRange := Nat × Nat

def containsRange (outer inner : TextRange) : Bool :=
  decide (outer.1 ≤ inner.1) && decide (inner.2 ≤ outer.2)

structure Violation where
  sourceRange : Option TextRange
  ruleId : String
  objectKind : String
  objectName : String
  tier : ViolationTier
  reason : String
  recipe : String
  dedupKey : Option String
deriving DecidableEq

structure TransitionRecord (μ : Type) where
  mutation : Mutation μ
  result : MutationResult
  preState : AnalysisState
  cascadeClosure : Option CascadeResult

structure RuleContext (μ : Type) where
  transition : TransitionRecord μ
  state : AnalysisState

inductive RuleCapability
  | baselineRelations
  | catalogDependencies
  | rowStatistics
  | transactionState
  | functionCatalog
deriving DecidableEq

namespace RuleCapability

def family : RuleCapability → CatalogFamily
  | catalogDependencies => .dependencies
  | functionCatalog => .routines
  | _ => .relations

def available (s : AnalysisState) (capability : RuleCapability) : Bool :=
  if capability = transactionState then
    s.evidence.records.all fun record => record.code != .transactionStateUnknown
  else s.baselineAvailable && s.baselineHasCoverage capability.family

def availableFor {μ : Type} (ops : Operations μ) (transition : TransitionRecord μ)
    (s : AnalysisState) (capability : RuleCapability) : Bool :=
  available s capability &&
    (capability != rowStatistics ||
      match transition.mutation with
      | .control _ => true
      | .operation m => (ops.statisticsTargets m s transition.preState).all fun id =>
          match transition.preState.relations.lookup id with
          | some (.present relation) => relation.estimatedRows.isSome
          | _ => false)

def evidenceCode : RuleCapability → EvidenceCode
  | transactionState => .transactionStateUnknown
  | _ => .catalogCoverageIncomplete

end RuleCapability

/-- A rule leaves it to the engine to locate its findings. -/
structure Rule (μ : Type) where
  id : String
  evaluatesWhenUnresolved : TransitionRecord μ → Bool
  requiredCapabilities : List RuleCapability
  evaluate : RuleContext μ → List Violation
  unlocated : ∀ context, ∀ violation ∈ evaluate context, violation.sourceRange = none

/-- A finding as the engine collects it. The last two fields remember, for the
statements about a run, where it was recorded and what the log then held. -/
structure Recorded where
  violation : Violation
  statement : Nat
  log : EvidenceLog

structure ParsedStatement (μ : Type) where
  range : TextRange
  /-- From the first token that is no comment to the end. -/
  findingRange : TextRange
  ignores : List String
  mutations : AnalysisState → List (Mutation μ)

def statementPosition {μ : Type} (statements : List (ParsedStatement μ)) (range : TextRange) :
    Option Nat :=
  (statements.findIdx? fun statement => containsRange statement.range range).map (· + 1)

/-- A parsed migration. No statement lies inside an earlier one. -/
structure ParsedFile (μ : Type) where
  filename : String
  errors : List String
  ignores : List String
  statements : List (ParsedStatement μ)
  located : ∀ k statement, statements[k]? = some statement →
    statementPosition statements statement.findingRange = some (k + 1)

structure Config where
  disabledRules : List String
  allowInlineSuppressions : Bool

structure Engine (μ : Type) where
  ops : Operations μ
  config : Config
  rules : List (Rule μ)

/-- The statement under analysis, with the keys warned about before it. -/
structure StatementScope (μ : Type) where
  index : Nat
  statement : ParsedStatement μ
  fileIgnores : List String
  warnedKeys : List String

structure StatementRun where
  state : AnalysisState
  violations : List Recorded
  warnedKeys : List String
  failed : Bool

namespace Engine

variable {μ : Type} (e : Engine μ) (scope : StatementScope μ)

def suppressionViolation (ruleId : String) : Violation :=
  { sourceRange := none, ruleId := "inline-suppression-disabled", objectKind := "object",
    objectName := "", tier := .tier1,
    reason := "Inline suppression of rule '" ++ ruleId ++ "' is not allowed by configuration",
    recipe := "Remove the inline directive. To bypass a rule, explicitly disable it in safe-migrate.toml.",
    dedupKey := some ("inline-suppression-disabled:" ++ ruleId) }

def push (violation : Violation) (run : StatementRun) : StatementRun :=
  { run with violations := run.violations ++
      [{ violation, statement := scope.index, log := run.state.evidence }] }

/-- A finding whose key was warned about already is left out. -/
def pushUnlessWarned (run : StatementRun) (violation : Violation) : StatementRun :=
  let located := { violation with
    sourceRange := violation.sourceRange <|> some scope.statement.findingRange }
  match violation.dedupKey with
  | none => push scope located run
  | some key =>
    if key ∈ scope.warnedKeys ∨ key ∈ run.warnedKeys then run
    else push scope located { run with warnedKeys := key :: run.warnedKeys }

def taintMissing (transition : TransitionRecord μ) (run : StatementRun)
    (capability : RuleCapability) : StatementRun :=
  if capability.availableFor e.ops transition run.state then run
  else
    let code :=
      if run.state.baselineAvailable then capability.evidenceCode else .baselineUnavailable
    { run with state := run.state.taint code .statement }

def evaluateRule (transition : TransitionRecord μ) (run : StatementRun) (rule : Rule μ) : StatementRun :=
  let isInlineIgnored := decide (rule.id ∈ scope.fileIgnores) ||
    decide (rule.id ∈ scope.statement.ignores)
  if isInlineIgnored && !e.config.allowInlineSuppressions then
    push scope (suppressionViolation rule.id) run
  else if decide (rule.id ∈ e.config.disabledRules) || isInlineIgnored then run
  else if transition.result.unresolvedCause.isSome && !rule.evaluatesWhenUnresolved transition then run
  else
    let violations := rule.evaluate { transition, state := run.state }
    let run :=
      if violations.isEmpty then run
      else rule.requiredCapabilities.foldl (taintMissing e transition) run
    violations.foldl (pushUnlessWarned scope) run

def evaluateRules (transition : TransitionRecord μ) (run : StatementRun) : StatementRun :=
  e.rules.foldl (evaluateRule e scope transition) run

/-- The state after a conflict, with the findings of the statement dropped. -/
def restoreFailed (checkpoint : StatementCheckpoint) (s : AnalysisState) :
    Except String StatementRun := do
  let restored ← checkpoint.restore s
  let state :=
    if s.transactionAborted && !restored.transactions.isEmpty then
      restored.setTransactionAborted true
    else restored
  pure { state, violations := [], warnedKeys := [], failed := true }

def runMutation (checkpoint : StatementCheckpoint) (mutation : Mutation μ) (run : StatementRun) :
    Except String StatementRun :=
  let cascadeClosure := mutation.preCascade e.ops run.state
  let (result, state) := mutation.apply e.ops run.state cascadeClosure
  let transition : TransitionRecord μ :=
    { mutation, result, preState := run.state, cascadeClosure }
  if result.isConflict then
    (restoreFailed checkpoint state).map (e.evaluateRules scope transition)
  else if result = .notExecuted then .ok { run with state }
  else .ok (e.evaluateRules scope transition { run with state })

/-- The mutations of a statement, up to the first that fails. -/
def runMutations (checkpoint : StatementCheckpoint) :
    List (Mutation μ) → StatementRun → Except String StatementRun
  | [], run => .ok run
  | mutation :: rest, run =>
    match e.runMutation scope checkpoint mutation run with
    | .error error => .error error
    | .ok next => if next.failed then .ok next else runMutations checkpoint rest next

/-- ON COMMIT actions of a statement that is its own transaction. -/
def applyImplicitCommitActions (s : AnalysisState) : AnalysisState :=
  if s.transactions.isEmpty && !s.transactionAborted then
    s.applyOnCommitActions e.ops.inferredSchema
  else s

end Engine

structure FileRun where
  state : AnalysisState
  violations : List Recorded
  warnedKeys : List String

namespace Engine

variable {μ : Type} (e : Engine μ)

def setEvidenceLocation (s : AnalysisState) (location : Option EvidenceLocation) : AnalysisState :=
  { s with currentEvidenceLocation := location }

/-- The statement is over: its ON COMMIT actions, and its findings. -/
def finishStatement (mutations : List (Mutation μ)) (started : AnalysisState) (run : FileRun)
    (done : StatementRun) : FileRun :=
  { state :=
      if !done.failed && started.transactions.isEmpty &&
          !mutations.any (·.isTransactionControl) && done.state.transactions.isEmpty then
        e.applyImplicitCommitActions done.state
      else done.state
    violations := run.violations ++ done.violations
    warnedKeys := run.warnedKeys ++ done.warnedKeys }

def runStatement (file : ParsedFile μ) (index : Nat) (statement : ParsedStatement μ)
    (run : FileRun) : Except String FileRun :=
  let state := setEvidenceLocation run.state (some ⟨file.filename, index⟩)
  let mutations := statement.mutations state
  let scope : StatementScope μ :=
    { index, statement, fileIgnores := file.ignores, warnedKeys := run.warnedKeys }
  (e.runMutations scope (.capture state mutations) mutations
    { state, violations := [], warnedKeys := [], failed := false }).map
      (e.finishStatement mutations state run)

def runStatements (file : ParsedFile μ) :
    Nat → List (ParsedStatement μ) → FileRun → Except String FileRun
  | _, [], run => .ok run
  | index, statement :: rest, run =>
    match e.runStatement file index statement run with
    | .error error => .error error
    | .ok next => runStatements file (index + 1) rest next

def startOfFile (s : AnalysisState) : FileRun := { state := s, violations := [], warnedKeys := [] }

def analyzeParsedFile (file : ParsedFile μ) (s : AnalysisState) :
    Except (List String) (List Recorded × AnalysisState) :=
  if file.errors.isEmpty then
    match e.runStatements file 1 file.statements (startOfFile s) with
    | .ok run => .ok (run.violations, setEvidenceLocation run.state none)
    | .error error => .error ["failed to restore PostgreSQL statement atomicity: " ++ error]
  else .error file.errors

end Engine

end SafeMigrate
