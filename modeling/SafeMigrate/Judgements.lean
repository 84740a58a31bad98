import SafeMigrate.Certainty
import SafeMigrate.FirstOfKey

/-! What becomes of every rule at every mutation: it is suppressed, skipped for
want of evidence, or evaluated. The engine with the list of skipped rules kept
beside the state, and the verdict on what it returns. -/

namespace SafeMigrate

open FirstOfKey

structure NotEvaluated where
  ruleId : String
  tier : ViolationTier
  cause : EvidenceCode
deriving DecidableEq

/-- `record_not_evaluated`: once for each rule and cause. -/
def recordNotEvaluated (records : List NotEvaluated) (record : NotEvaluated) : List NotEvaluated :=
  if records.any fun entry =>
      decide (entry.ruleId = record.ruleId) && decide (entry.cause = record.cause) then records
  else records ++ [record]

inductive Judgement (μ : Type)
  | suppressed (rule : Rule μ)
  | skipped (rule : Rule μ) (cause : EvidenceCode)
  | evaluated (rule : Rule μ) (context : RuleContext μ) (range : TextRange)

namespace Judgement

variable {μ : Type}

/-- What a judgement finds, each with the key that later findings repeat. -/
def findings : Judgement μ → List (Option String × Violation)
  | suppressed rule => [(none, Engine.suppressionViolation rule.id)]
  | skipped .. => []
  | evaluated rule context range => (rule.evaluate context).map fun violation =>
      (violation.dedupKey,
        { violation with sourceRange := violation.sourceRange <|> some range })

/-- What a judgement leaves unevaluated. -/
def notEvaluated (tierOf : Rule μ → ViolationTier) : Judgement μ → List NotEvaluated
  | skipped rule cause => [{ ruleId := rule.id, tier := tierOf rule, cause }]
  | _ => []

end Judgement

/-- The run of a statement, the list beside the state, and what became of the rules. -/
structure JudgedRun (μ : Type) where
  run : StatementRun
  notEvaluated : List NotEvaluated
  judgements : List (Judgement μ)

/-- The same for the statements of a file. -/
structure JudgedFile (μ : Type) where
  run : FileRun
  notEvaluated : List NotEvaluated
  judgements : List (Judgement μ)

/-- A full checkpoint takes the list along with the state it copied. -/
def StatementCheckpoint.restoreNotEvaluated (saved now : List NotEvaluated) :
    StatementCheckpoint → List NotEvaluated
  | .full _ => saved
  | .transactionUndo .. => now

namespace Engine

variable {μ : Type} (e : Engine μ)

/-- None where configuration or an accepted directive turns the rule off. -/
def judge (scope : StatementScope μ) (transition : TransitionRecord μ) (s : AnalysisState)
    (rule : Rule μ) : Option (Judgement μ) :=
  let isInlineIgnored := decide (rule.id ∈ scope.fileIgnores) ||
    decide (rule.id ∈ scope.statement.ignores)
  if isInlineIgnored && !e.config.allowInlineSuppressions then some (.suppressed rule)
  else if decide (rule.id ∈ e.config.disabledRules) || isInlineIgnored then none
  else
    match transition.result.unresolvedCause, rule.evaluatesWhenUnresolved transition with
    | some cause, false => some (.skipped rule cause)
    | _, _ => some (.evaluated rule { transition, state := s } scope.statement.findingRange)

section Judged

-- `tierOf` is the default tier of a rule.
variable (tierOf : Rule μ → ViolationTier) (scope : StatementScope μ)

def judgeRule (transition : TransitionRecord μ) (judged : JudgedRun μ) (rule : Rule μ) :
    JudgedRun μ :=
  let judgement := (e.judge scope transition judged.run.state rule).toList
  { run := e.evaluateRule scope transition judged.run rule
    notEvaluated := (judgement.flatMap (Judgement.notEvaluated tierOf)).foldl recordNotEvaluated
      judged.notEvaluated
    judgements := judged.judgements ++ judgement }

def judgeRules (transition : TransitionRecord μ) (judged : JudgedRun μ) : JudgedRun μ :=
  e.rules.foldl (e.judgeRule tierOf scope transition) judged

/-- `runMutation`, with `saved` the list as the statement found it. -/
def judgeMutation (checkpoint : StatementCheckpoint) (saved : List NotEvaluated)
    (mutation : Mutation μ) (judged : JudgedRun μ) : Except String (JudgedRun μ) :=
  let cascadeClosure := mutation.preCascade e.ops judged.run.state
  let (result, state) := mutation.apply e.ops judged.run.state cascadeClosure
  let transition : TransitionRecord μ :=
    { mutation, result, preState := judged.run.state, cascadeClosure }
  if result.isConflict then
    (restoreFailed checkpoint state).map fun run => e.judgeRules tierOf scope transition
      { run, notEvaluated := checkpoint.restoreNotEvaluated saved judged.notEvaluated,
        judgements := [] }
  else if result = .notExecuted then .ok { judged with run := { judged.run with state } }
  else .ok (e.judgeRules tierOf scope transition
    { judged with run := { judged.run with state } })

def judgeMutations (checkpoint : StatementCheckpoint) (saved : List NotEvaluated) :
    List (Mutation μ) → JudgedRun μ → Except String (JudgedRun μ)
  | [], judged => .ok judged
  | mutation :: rest, judged =>
    match e.judgeMutation tierOf scope checkpoint saved mutation judged with
    | .error error => .error error
    | .ok next =>
      if next.run.failed then .ok next else judgeMutations checkpoint saved rest next

end Judged

section File

variable (tierOf : Rule μ → ViolationTier)

def judgeStatement (file : ParsedFile μ) (index : Nat) (statement : ParsedStatement μ)
    (judged : JudgedFile μ) : Except String (JudgedFile μ) :=
  let state := setEvidenceLocation judged.run.state (some ⟨file.filename, index⟩)
  let mutations := statement.mutations state
  let scope : StatementScope μ :=
    { index, statement, fileIgnores := file.ignores, warnedKeys := judged.run.warnedKeys }
  (e.judgeMutations tierOf scope (.capture state mutations) judged.notEvaluated mutations
    { run := { state, violations := [], warnedKeys := [], failed := false }
      notEvaluated := judged.notEvaluated
      judgements := [] }).map fun done =>
        { run := e.finishStatement mutations state judged.run done.run
          notEvaluated := done.notEvaluated
          judgements := judged.judgements ++ done.judgements }

def judgeStatements (file : ParsedFile μ) :
    Nat → List (ParsedStatement μ) → JudgedFile μ → Except String (JudgedFile μ)
  | _, [], judged => .ok judged
  | index, statement :: rest, judged =>
    match e.judgeStatement tierOf file index statement judged with
    | .error error => .error error
    | .ok next => judgeStatements file (index + 1) rest next

def judgeParsedFile (file : ParsedFile μ) (s : AnalysisState) (notEvaluated : List NotEvaluated) :
    Except (List String) (JudgedFile μ) :=
  if file.errors.isEmpty then
    match e.judgeStatements tierOf file 1 file.statements
      { run := startOfFile s, notEvaluated, judgements := [] } with
    | .ok judged =>
      .ok { judged with run := { judged.run with state := setEvidenceLocation judged.run.state none } }
    | .error error => .error ["failed to restore PostgreSQL statement atomicity: " ++ error]
  else .error file.errors

end File

end Engine

/-- An analysis of a chain: the findings, the state it ends in, the rules that
did not run, and what became of the rules in each file. -/
structure JudgedChain (μ : Type) where
  findings : List ReportFinding
  state : AnalysisState
  notEvaluated : List NotEvaluated
  judgements : List (List (Judgement μ))

namespace Engine

variable {μ : Type} (e : Engine μ) (tierOf : Rule μ → ViolationTier)

def judgeFiles (fileOrder : List String) :
    Nat → List (ParsedFile μ) → AnalysisState → List NotEvaluated →
      Except (List String) (JudgedChain μ)
  | _, [], s, notEvaluated => .ok { findings := [], state := s, notEvaluated, judgements := [] }
  | fileIndex, file :: rest, s, notEvaluated =>
    match e.judgeParsedFile tierOf file s notEvaluated with
    | .error errors => .error errors
    | .ok judged =>
      match judgeFiles fileOrder (fileIndex + 1) rest judged.run.state judged.notEvaluated with
      | .error errors => .error errors
      | .ok chain =>
        .ok { chain with
          findings := judged.run.violations.map
            (reportFinding fileOrder fileIndex file judged.run.state) ++ chain.findings
          judgements := judged.judgements :: chain.judgements }

/-- `analyze_chain_outcome_with_locations`, before the findings are sorted. -/
def judgeChain (files : List (ParsedFile μ)) (s : AnalysisState) :
    Except (List String) (JudgedChain μ) :=
  e.judgeFiles tierOf (files.map (·.filename)) 0 files s []

end Engine

inductive Verdict
  | halt
  | cautious
  | safeWithRisk
  | safe
deriving DecidableEq

def irreversibleMigrationRuleId : String := "irreversible-migration"

def verdictFromViolations (violations : List Violation) : Verdict :=
  let hasTier1 := violations.any fun v => decide (v.tier = .tier1)
  let hasTier2 := violations.any fun v => decide (v.tier = .tier2)
  let hasIrreversibleTier3 := violations.any fun v =>
    decide (v.tier = .tier3) && decide (v.ruleId = irreversibleMigrationRuleId)
  if hasTier1 then .halt
  else if hasTier2 then .cautious
  else if hasIrreversibleTier3 then .safeWithRisk
  else .safe

/-- A verdict reads no safer than `cautious` while a rule that may block did not run. -/
def computeVerdictWith (violations : List Violation) (notEvaluated : List NotEvaluated) : Verdict :=
  let verdict := verdictFromViolations violations
  let blockedByGap := (decide (verdict = .safe) || decide (verdict = .safeWithRisk)) &&
    notEvaluated.any fun entry => decide (entry.tier = .tier1)
  if blockedByGap then .cautious else verdict

/-- The verdict does not depend on the order in which the findings are reported. -/
def JudgedChain.verdict {μ : Type} (chain : JudgedChain μ) : Verdict :=
  computeVerdictWith (chain.findings.map (·.recorded.violation)) chain.notEvaluated

end SafeMigrate
