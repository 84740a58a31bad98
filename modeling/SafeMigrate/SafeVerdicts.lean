import SafeMigrate.Judgements

/-! What an analysis reports is what its rules found, and a verdict that reads
safe means that every rule that may block a deployment was evaluated. -/

namespace SafeMigrate

open FirstOfKey

/-- The findings of a file: of those with one key the first. -/
def reportedFindings {μ : Type} (judgements : List (Judgement μ)) :
    List (Option String × Violation) :=
  firsts Prod.fst [] (judgements.flatMap Judgement.findings)

section Verdicts

variable {violations : List Violation} {notEvaluated : List NotEvaluated}

theorem ViolationTier.eq_tier3 {tier : ViolationTier} (h1 : tier ≠ .tier1) (h2 : tier ≠ .tier2) :
    tier = .tier3 := by
  cases tier with
  | tier1 => exact absurd rfl h1
  | tier2 => exact absurd rfl h2
  | tier3 => rfl

theorem verdictFromViolations_safe
    (h : verdictFromViolations violations = .safe ∨ verdictFromViolations violations = .safeWithRisk) :
    ∀ v ∈ violations, v.tier = .tier3 ∧
      (verdictFromViolations violations = .safe → v.ruleId ≠ irreversibleMigrationRuleId) := by
  unfold verdictFromViolations at h ⊢
  dsimp only at h ⊢
  intro v hv
  split at h
  · simp at h
  · rename_i hno1
    rw [if_neg hno1]
    split at h
    · simp at h
    · rename_i hno2
      rw [if_neg hno2]
      have h1 : v.tier ≠ .tier1 := fun htier => hno1 (List.any_eq_true.mpr ⟨v, hv, by simp [htier]⟩)
      have h2 : v.tier ≠ .tier2 := fun htier => hno2 (List.any_eq_true.mpr ⟨v, hv, by simp [htier]⟩)
      have h3 := ViolationTier.eq_tier3 h1 h2
      refine ⟨h3, fun hsafe hrule => ?_⟩
      have hany : (violations.any fun v => decide (v.tier = .tier3) &&
          decide (v.ruleId = irreversibleMigrationRuleId)) = true :=
        List.any_eq_true.mpr ⟨v, hv, by simp [h3, hrule]⟩
      rw [if_pos hany] at hsafe
      cases hsafe

/-- What a verdict that reads safe says of the findings and of the rules not run. -/
theorem computeVerdictWith_safe (h : computeVerdictWith violations notEvaluated = .safe ∨
      computeVerdictWith violations notEvaluated = .safeWithRisk) :
    (∀ v ∈ violations, v.tier = .tier3 ∧ (computeVerdictWith violations notEvaluated = .safe →
      v.ruleId ≠ irreversibleMigrationRuleId)) ∧ ∀ n ∈ notEvaluated, n.tier ≠ .tier1 := by
  unfold computeVerdictWith at h ⊢
  dsimp only at h ⊢
  split at h
  · simp at h
  · rename_i hnogap
    rw [if_neg hnogap]
    refine ⟨verdictFromViolations_safe h, fun n hn htier => hnogap ?_⟩
    have hany : (notEvaluated.any fun entry => decide (entry.tier = .tier1)) = true :=
      List.any_eq_true.mpr ⟨n, hn, by simp [htier]⟩
    rw [hany, Bool.and_true]
    rcases h with h | h <;> simp [h]

end Verdicts

section Reported

variable {μ : Type} {judgements : List (Judgement μ)}

theorem found_is_reported {f : Option String × Violation}
    (hf : f ∈ judgements.flatMap Judgement.findings) :
    f ∈ reportedFindings judgements ∨ ∃ g ∈ reportedFindings judgements, f.1 ≠ none ∧ g.1 = f.1 := by
  have hcases : f ∈ reportedFindings judgements ∨ ∃ k, f.1 = some k ∧
      (k ∈ [] ∨ ∃ g ∈ reportedFindings judgements, g.1 = some k) := kept_or_seen hf
  rcases hcases with hkept | ⟨k, hk, hseen | ⟨g, hg, hgk⟩⟩
  · exact Or.inl hkept
  · exact absurd hseen List.not_mem_nil
  · exact Or.inr ⟨g, hg, by simp [hk], hgk.trans hk.symm⟩

/-- Only a finding with a key can be left out, and a suppression has none. -/
theorem suppression_is_reported {rule : Rule μ} (h : .suppressed rule ∈ judgements) :
    (none, Engine.suppressionViolation rule.id) ∈ reportedFindings judgements := by
  have hfound : (none, Engine.suppressionViolation rule.id) ∈
      judgements.flatMap Judgement.findings :=
    List.mem_flatMap.mpr ⟨_, h, List.mem_singleton_self _⟩
  rcases found_is_reported hfound with hkept | ⟨g, -, hkey, -⟩
  · exact hkept
  · exact absurd rfl hkey

end Reported

namespace Engine

variable {μ : Type} (e : Engine μ) (tierOf : Rule μ → ViolationTier)

/-! The list of skipped rules does not touch the analysis. -/

section Projection

variable (scope : StatementScope μ)

theorem judgeRules_run (transition : TransitionRecord μ) (judged : JudgedRun μ) :
    (e.judgeRules tierOf scope transition judged).run =
      e.evaluateRules scope transition judged.run := by
  unfold judgeRules evaluateRules
  induction e.rules generalizing judged with
  | nil => rfl
  | cons rule rules ih => exact ih (e.judgeRule tierOf scope transition judged rule)

theorem judgeMutation_run (checkpoint : StatementCheckpoint) (saved : List NotEvaluated)
    (mutation : Mutation μ) (judged : JudgedRun μ) :
    (e.judgeMutation tierOf scope checkpoint saved mutation judged).map (·.run) =
      e.runMutation scope checkpoint mutation judged.run := by
  unfold judgeMutation runMutation
  dsimp only
  split
  · cases restoreFailed checkpoint _ with
    | error error => rfl
    | ok run => exact congrArg Except.ok (e.judgeRules_run tierOf scope _ _)
  · split
    · rfl
    · exact congrArg Except.ok (e.judgeRules_run tierOf scope _ _)

theorem judgeMutations_run (checkpoint : StatementCheckpoint) (saved : List NotEvaluated)
    (mutations : List (Mutation μ)) (judged : JudgedRun μ) :
    (e.judgeMutations tierOf scope checkpoint saved mutations judged).map (·.run) =
      e.runMutations scope checkpoint mutations judged.run := by
  induction mutations generalizing judged with
  | nil => rfl
  | cons mutation rest ih =>
    have hmutation := e.judgeMutation_run tierOf scope checkpoint saved mutation judged
    rw [judgeMutations, runMutations, ← hmutation]
    cases e.judgeMutation tierOf scope checkpoint saved mutation judged with
    | error error => rfl
    | ok next =>
      dsimp only [Except.map]
      by_cases hfailed : next.run.failed = true
      · rw [if_pos hfailed, if_pos hfailed]
      · rw [if_neg hfailed, if_neg hfailed]
        exact ih next

theorem judgeStatements_run (file : ParsedFile μ) (index : Nat)
    (statements : List (ParsedStatement μ)) (judged : JudgedFile μ) :
    (e.judgeStatements tierOf file index statements judged).map (·.run) =
      e.runStatements file index statements judged.run := by
  induction statements generalizing index judged with
  | nil => rfl
  | cons statement rest ih =>
    unfold judgeStatements runStatements judgeStatement runStatement
    dsimp only
    rw [← judgeMutations_run e tierOf _ _ judged.notEvaluated _
      ⟨_, judged.notEvaluated, []⟩]
    cases e.judgeMutations tierOf _ _ _ _ _ with
    | error error => rfl
    | ok done => exact ih (index + 1) _

theorem judgeParsedFile_run (file : ParsedFile μ) (s : AnalysisState)
    (notEvaluated : List NotEvaluated) :
    (e.judgeParsedFile tierOf file s notEvaluated).map
        (fun judged => (judged.run.violations, judged.run.state)) =
      e.analyzeParsedFile file s := by
  unfold judgeParsedFile analyzeParsedFile
  split
  · rw [← e.judgeStatements_run tierOf file 1 file.statements ⟨startOfFile s, notEvaluated, []⟩]
    cases e.judgeStatements tierOf file 1 file.statements _ with
    | error error => rfl
    | ok judged => rfl
  · rfl

theorem judgeFiles_run (fileOrder : List String) (fileIndex : Nat) (files : List (ParsedFile μ))
    (s : AnalysisState) (notEvaluated : List NotEvaluated) :
    (e.judgeFiles tierOf fileOrder fileIndex files s notEvaluated).map
        (fun chain => (chain.findings, chain.state)) =
      e.analyzeFiles fileOrder fileIndex files s := by
  induction files generalizing fileIndex s notEvaluated with
  | nil => rfl
  | cons file rest ih =>
    rw [judgeFiles, analyzeFiles, ← e.judgeParsedFile_run tierOf file s notEvaluated]
    cases e.judgeParsedFile tierOf file s notEvaluated with
    | error errors => rfl
    | ok judged =>
      simp only [Except.map]
      rw [← ih (fileIndex + 1) judged.run.state judged.notEvaluated]
      cases e.judgeFiles tierOf fileOrder (fileIndex + 1) rest _ _ with
      | error errors => rfl
      | ok chain => rfl

end Projection

/-! The findings. -/

section Findings

/-- The findings of a run are the first of each key, with the keys in `warned` taken. -/
structure Reports (warned : List String) (run : StatementRun)
    (found : List (Option String × Violation)) : Prop where
  violations : run.violations.map (·.violation) = (firsts Prod.fst warned found).map Prod.snd
  keys : ∀ k, k ∈ warned ∨ k ∈ run.warnedKeys ↔ k ∈ warned ++ found.filterMap Prod.fst

variable {warned : List String} {run : StatementRun} {found : List (Option String × Violation)}
  {scope : StatementScope μ}

theorem Reports.congr {next : StatementRun} (h : Reports warned run found)
    (hviolations : next.violations = run.violations) (hkeys : next.warnedKeys = run.warnedKeys) :
    Reports warned next found :=
  ⟨hviolations ▸ h.violations, hkeys ▸ h.keys⟩

/-- A finding without a key is always pushed. -/
theorem Reports.push (h : Reports warned run found) (violation : Violation) :
    Reports warned (push scope violation run) (found ++ [(none, violation)]) where
  violations := by
    rw [firsts_concat_none rfl]
    simp [Engine.push, h.violations]
  keys k := by
    rw [List.filterMap_append]
    simpa [Engine.push] using h.keys k

/-- A finding whose key is taken changes nothing. -/
theorem Reports.repeats (h : Reports warned run found) {f : Option String × Violation} {k : String}
    (hf : f.1 = some k) (hk : k ∈ warned ++ found.filterMap Prod.fst) :
    Reports warned run (found ++ [f]) where
  violations := by
    rw [firsts_concat_seen hf hk]
    exact h.violations
  keys j := by
    rw [h.keys j, List.filterMap_append]
    simp only [List.mem_append, List.filterMap_cons, hf, List.filterMap_nil, List.mem_singleton]
    constructor
    · tauto
    · rintro (hj | hj | rfl)
      · exact Or.inl hj
      · exact Or.inr hj
      · exact List.mem_append.mp hk

theorem Reports.adds (h : Reports warned run found) {f : Option String × Violation} {k : String}
    (hf : f.1 = some k) (hk : k ∉ warned ++ found.filterMap Prod.fst) :
    Reports warned (Engine.push scope f.2 { run with warnedKeys := k :: run.warnedKeys })
      (found ++ [f]) where
  violations := by
    rw [firsts_concat_new hf hk]
    simp [Engine.push, h.violations]
  keys j := by
    have hj := h.keys j
    simp only [Engine.push, List.filterMap_append, List.filterMap_cons, hf, List.filterMap_nil,
      List.mem_append, List.mem_cons, List.not_mem_nil, or_false] at hj ⊢
    tauto

theorem Reports.pushUnlessWarned (h : Reports scope.warnedKeys run found) (violation : Violation) :
    Reports scope.warnedKeys (pushUnlessWarned scope run violation)
      (found ++ [(violation.dedupKey, { violation with
        sourceRange := violation.sourceRange <|> some scope.statement.findingRange })]) := by
  unfold Engine.pushUnlessWarned
  dsimp only
  split
  · next hkey =>
    rw [hkey]
    exact h.push _
  · next key hkey =>
    split
    · next hseen => exact h.repeats (f := (_, _)) hkey ((h.keys key).mp hseen)
    · next hnew => exact h.adds (f := (_, _)) hkey (mt (h.keys key).mpr hnew)

theorem Reports.pushAll (h : Reports scope.warnedKeys run found) (violations : List Violation) :
    Reports scope.warnedKeys (violations.foldl (Engine.pushUnlessWarned scope) run)
      (found ++ violations.map fun violation => (violation.dedupKey, { violation with
        sourceRange := violation.sourceRange <|> some scope.statement.findingRange })) := by
  induction violations generalizing run found with
  | nil => simpa using h
  | cons violation rest ih => simpa using ih (h.pushUnlessWarned violation)

theorem Reports.taintMissing (h : Reports warned run found) (transition : TransitionRecord μ)
    (capabilities : List RuleCapability) :
    Reports warned (capabilities.foldl (Engine.taintMissing e transition) run) found := by
  induction capabilities generalizing run with
  | nil => exact h
  | cons capability rest ih =>
    apply ih
    unfold Engine.taintMissing
    split
    · exact h
    · exact h.congr rfl rfl

/-- Evaluating a rule reports what its judgement found. -/
theorem Reports.evaluateRule (h : Reports scope.warnedKeys run found)
    (transition : TransitionRecord μ) (rule : Rule μ) :
    Reports scope.warnedKeys (e.evaluateRule scope transition run rule)
      (found ++ (e.judge scope transition run.state rule).toList.flatMap Judgement.findings) := by
  unfold Engine.evaluateRule judge
  dsimp only
  split
  · simpa [Judgement.findings] using h.push (Engine.suppressionViolation rule.id)
  · split
    · simpa using h
    · have hevaluated : Reports scope.warnedKeys
          ((rule.evaluate ⟨transition, run.state⟩).foldl (Engine.pushUnlessWarned scope)
            (if (rule.evaluate ⟨transition, run.state⟩).isEmpty then run
              else rule.requiredCapabilities.foldl (Engine.taintMissing e transition) run))
          (found ++ [Judgement.evaluated rule ⟨transition, run.state⟩
            scope.statement.findingRange].flatMap Judgement.findings) := by
        rw [List.flatMap_singleton]
        apply Reports.pushAll
        split
        · exact h
        · exact h.taintMissing e transition _
      cases transition.result.unresolvedCause with
      | none => exact hevaluated
      | some cause =>
        cases rule.evaluatesWhenUnresolved transition with
        | true => exact hevaluated
        | false => simpa [Judgement.findings] using h

end Findings

/-! The rules that did not run. -/

section Records

/-- Every record is about a rule of the engine and gives its tier. -/
def Sourced (records : List NotEvaluated) : Prop :=
  ∀ n ∈ records, ∃ rule ∈ e.rules, n.ruleId = rule.id ∧ n.tier = tierOf rule

variable {e tierOf} {records : List NotEvaluated}

theorem subset_record (n : NotEvaluated) : records ⊆ recordNotEvaluated records n := by
  unfold recordNotEvaluated
  split
  · exact List.Subset.refl records
  · exact List.subset_append_left records [n]

theorem Sourced.record (h : e.Sourced tierOf records) {n : NotEvaluated}
    (hn : e.Sourced tierOf [n]) : e.Sourced tierOf (recordNotEvaluated records n) := by
  unfold recordNotEvaluated
  split
  · exact h
  · intro m hm
    rcases List.mem_append.mp hm with hm | hm
    · exact h m hm
    · exact hn m hm

/-- A record of the same rule and cause is listed. -/
def Covers (records : List NotEvaluated) (n : NotEvaluated) : Prop :=
  ∃ m ∈ records, m.ruleId = n.ruleId ∧ m.cause = n.cause

theorem Covers.mono {n : NotEvaluated} {more : List NotEvaluated} (h : Covers records n)
    (hsub : records ⊆ more) : Covers more n := by
  obtain ⟨m, hm, hsame⟩ := h
  exact ⟨m, hsub hm, hsame⟩

theorem covers_record (n : NotEvaluated) : Covers (recordNotEvaluated records n) n := by
  unfold recordNotEvaluated
  split
  · next hany =>
    obtain ⟨m, hm, hsame⟩ := List.any_eq_true.mp hany
    exact ⟨m, hm, by simpa using hsame⟩
  · exact ⟨n, by simp, rfl, rfl⟩

end Records

section Accounts

/-- A run reports what its judgements found, and lists the rules they left out
beside the ones listed before. -/
structure Accounts (warned : List String) (saved : List NotEvaluated) (judged : JudgedRun μ) :
    Prop where
  reports : Reports warned judged.run (judged.judgements.flatMap Judgement.findings)
  saved : saved ⊆ judged.notEvaluated
  sourced : e.Sourced tierOf judged.notEvaluated
  listed : ∀ j ∈ judged.judgements, ∀ n ∈ j.notEvaluated tierOf,
    e.Sourced tierOf [n] ∧ Covers judged.notEvaluated n

variable {e tierOf} {scope : StatementScope μ} {saved : List NotEvaluated} {judged : JudgedRun μ}

/-- A judgement leaves out its own rule, or none. -/
theorem judge_notEvaluated (tierOf : Rule μ → ViolationTier)
    (transition : TransitionRecord μ) (s : AnalysisState) {rule : Rule μ} (hrule : rule ∈ e.rules) :
    (e.judge scope transition s rule).toList.flatMap (Judgement.notEvaluated tierOf) = [] ∨
      ∃ n, e.Sourced tierOf [n] ∧
        (e.judge scope transition s rule).toList.flatMap (Judgement.notEvaluated tierOf) = [n] := by
  unfold judge
  dsimp only
  split
  · exact Or.inl rfl
  · split
    · exact Or.inl rfl
    · cases transition.result.unresolvedCause with
      | none => exact Or.inl rfl
      | some cause =>
        cases rule.evaluatesWhenUnresolved transition with
        | true => exact Or.inl rfl
        | false =>
          refine Or.inr ⟨⟨rule.id, tierOf rule, cause⟩, fun n hn => ?_, rfl⟩
          obtain rfl := List.mem_singleton.mp hn
          exact ⟨rule, hrule, rfl, rfl⟩

theorem Accounts.judgeRule (h : e.Accounts tierOf scope.warnedKeys saved judged)
    (transition : TransitionRecord μ) {rule : Rule μ} (hrule : rule ∈ e.rules) :
    e.Accounts tierOf scope.warnedKeys saved (e.judgeRule tierOf scope transition judged rule) := by
  have hreports := h.reports.evaluateRule e transition rule
  rw [← List.flatMap_append] at hreports
  rcases judge_notEvaluated tierOf transition judged.run.state hrule with
    hnone | ⟨n, hn, hsome⟩
  · have hrecords : (e.judgeRule tierOf scope transition judged rule).notEvaluated =
        judged.notEvaluated := congrArg (List.foldl recordNotEvaluated judged.notEvaluated) hnone
    refine ⟨hreports, hrecords ▸ h.saved, hrecords ▸ h.sourced, fun j hj => ?_⟩
    rw [hrecords]
    rcases List.mem_append.mp hj with hj | hj
    · exact h.listed j hj
    · intro m hm
      have hmem := List.mem_flatMap.mpr ⟨j, hj, hm⟩
      rw [hnone] at hmem
      cases hmem
  · have hrecords : (e.judgeRule tierOf scope transition judged rule).notEvaluated =
        recordNotEvaluated judged.notEvaluated n :=
      congrArg (List.foldl recordNotEvaluated judged.notEvaluated) hsome
    have hgrows : judged.notEvaluated ⊆ recordNotEvaluated judged.notEvaluated n := subset_record n
    refine ⟨hreports, hrecords ▸ List.Subset.trans h.saved hgrows,
      hrecords ▸ h.sourced.record hn, fun j hj => ?_⟩
    rw [hrecords]
    rcases List.mem_append.mp hj with hj | hj
    · intro m hm
      obtain ⟨hsource, hcovers⟩ := h.listed j hj m hm
      exact ⟨hsource, hcovers.mono hgrows⟩
    · intro m hm
      have hmem := List.mem_flatMap.mpr ⟨j, hj, hm⟩
      rw [hsome] at hmem
      obtain rfl := List.mem_singleton.mp hmem
      exact ⟨hn, covers_record m⟩

theorem Accounts.judgeRules (h : e.Accounts tierOf scope.warnedKeys saved judged)
    (transition : TransitionRecord μ) :
    e.Accounts tierOf scope.warnedKeys saved (e.judgeRules tierOf scope transition judged) := by
  have hall (rules : List (Rule μ)) (hsub : rules ⊆ e.rules) (judged : JudgedRun μ)
      (h : e.Accounts tierOf scope.warnedKeys saved judged) :
      e.Accounts tierOf scope.warnedKeys saved
        (rules.foldl (e.judgeRule tierOf scope transition) judged) := by
    induction rules generalizing judged with
    | nil => exact h
    | cons rule rules ih =>
      exact ih (fun r hr => hsub (List.mem_cons_of_mem rule hr)) _
        (h.judgeRule transition (hsub List.mem_cons_self))
  exact hall e.rules (List.Subset.refl _) judged h

/-- A failed mutation starts the account over from what the checkpoint keeps. -/
theorem Accounts.judgeMutation (h : e.Accounts tierOf scope.warnedKeys saved judged)
    {checkpoint : StatementCheckpoint} {mutation : Mutation μ} {next : JudgedRun μ}
    (hnext : e.judgeMutation tierOf scope checkpoint saved mutation judged = .ok next) :
    e.Accounts tierOf scope.warnedKeys saved next := by
  unfold Engine.judgeMutation at hnext
  dsimp only at hnext
  split at hnext
  · rename_i hconflict
    unfold restoreFailed at hnext
    cases hrestore : checkpoint.restore (mutation.apply e.ops judged.run.state
        (mutation.preCascade e.ops judged.run.state)).2 with
    | error error =>
      rw [hrestore] at hnext
      cases hnext
    | ok restored =>
      rw [hrestore] at hnext
      obtain rfl := Except.ok.inj hnext
      apply Accounts.judgeRules
      refine ⟨⟨rfl, fun k => by simp⟩, ?_, ?_, fun j hj => absurd hj List.not_mem_nil⟩
      · cases checkpoint with
        | full s => exact List.Subset.refl saved
        | transactionUndo depth len => exact h.saved
      · cases checkpoint with
        | full s => exact fun n hn => h.sourced n (h.saved hn)
        | transactionUndo depth len => exact h.sourced
  · split at hnext
    · obtain rfl := Except.ok.inj hnext
      exact ⟨h.reports.congr rfl rfl, h.saved, h.sourced, h.listed⟩
    · obtain rfl := Except.ok.inj hnext
      apply Accounts.judgeRules
      exact ⟨h.reports.congr rfl rfl, h.saved, h.sourced, h.listed⟩

theorem Accounts.judgeMutations {checkpoint : StatementCheckpoint} {mutations : List (Mutation μ)}
    {done : JudgedRun μ} (h : e.Accounts tierOf scope.warnedKeys saved judged)
    (hdone : e.judgeMutations tierOf scope checkpoint saved mutations judged = .ok done) :
    e.Accounts tierOf scope.warnedKeys saved done := by
  induction mutations generalizing judged with
  | nil =>
    obtain rfl := Except.ok.inj hdone
    exact h
  | cons mutation rest ih =>
    rw [Engine.judgeMutations] at hdone
    split at hdone
    · cases hdone
    · next next hnext =>
      have haccounts := h.judgeMutation hnext
      split at hdone
      · obtain rfl := Except.ok.inj hdone
        exact haccounts
      · exact ih haccounts hdone

end Accounts

/-! Files and chains. -/

section Files

/-- The account of a file: `saved` is the list it started with. -/
structure FileAccounts (saved : List NotEvaluated) (judged : JudgedFile μ) : Prop where
  violations : judged.run.violations.map (·.violation) =
    (reportedFindings judged.judgements).map Prod.snd
  keys : ∀ k, k ∈ judged.run.warnedKeys ↔
    k ∈ (judged.judgements.flatMap Judgement.findings).filterMap Prod.fst
  saved : saved ⊆ judged.notEvaluated
  sourced : e.Sourced tierOf judged.notEvaluated
  listed : ∀ j ∈ judged.judgements, ∀ n ∈ j.notEvaluated tierOf,
    e.Sourced tierOf [n] ∧ Covers judged.notEvaluated n

variable {e tierOf} {saved : List NotEvaluated} {judged : JudgedFile μ}

/-- A statement takes up the keys and the list where the one before left them. -/
theorem FileAccounts.judgeStatement (h : e.FileAccounts tierOf saved judged) {file : ParsedFile μ}
    {index : Nat} {statement : ParsedStatement μ} {next : JudgedFile μ}
    (hnext : e.judgeStatement tierOf file index statement judged = .ok next) :
    e.FileAccounts tierOf saved next := by
  unfold Engine.judgeStatement at hnext
  dsimp only at hnext
  cases hrun : e.judgeMutations tierOf _ _ judged.notEvaluated _ _ with
  | error error =>
    rw [hrun] at hnext
    cases hnext
  | ok done =>
    rw [hrun] at hnext
    obtain rfl := Except.ok.inj hnext
    have hdone := Accounts.judgeMutations ⟨⟨rfl, fun k => by simp⟩,
      List.Subset.refl judged.notEvaluated, h.sourced, fun j hj => absurd hj List.not_mem_nil⟩ hrun
    refine ⟨?_, fun k => ?_, List.Subset.trans h.saved hdone.saved, hdone.sourced, fun j hj => ?_⟩
    · have hviolations := hdone.reports.violations
      rw [firsts_congr h.keys] at hviolations
      simp only [Engine.finishStatement, List.map_append, h.violations, hviolations,
        reportedFindings, List.flatMap_append, firsts_append, List.nil_append]
    · have hkeys := hdone.reports.keys k
      have hold := h.keys k
      simp only [Engine.finishStatement, List.flatMap_append, List.filterMap_append,
        List.mem_append] at hkeys hold ⊢
      rw [← hold]
      exact hkeys
    · rcases List.mem_append.mp hj with hj | hj
      · intro n hn
        obtain ⟨hsource, hcovers⟩ := h.listed j hj n hn
        exact ⟨hsource, hcovers.mono hdone.saved⟩
      · exact hdone.listed j hj

theorem FileAccounts.judgeStatements {file : ParsedFile μ} {index : Nat}
    {statements : List (ParsedStatement μ)} {last : JudgedFile μ}
    (h : e.FileAccounts tierOf saved judged)
    (hlast : e.judgeStatements tierOf file index statements judged = .ok last) :
    e.FileAccounts tierOf saved last := by
  induction statements generalizing index judged with
  | nil =>
    obtain rfl := Except.ok.inj hlast
    exact h
  | cons statement rest ih =>
    rw [Engine.judgeStatements] at hlast
    split at hlast
    · cases hlast
    · next next hnext => exact ih (h.judgeStatement hnext) hlast

theorem fileAccounts_judgeParsedFile {file : ParsedFile μ} {s : AnalysisState}
    (hsaved : e.Sourced tierOf saved)
    (hjudged : e.judgeParsedFile tierOf file s saved = .ok judged) :
    e.FileAccounts tierOf saved judged := by
  unfold Engine.judgeParsedFile at hjudged
  split at hjudged
  · split at hjudged
    · next last hlast =>
      obtain rfl := Except.ok.inj hjudged
      have hstart : e.FileAccounts tierOf saved ⟨startOfFile s, saved, []⟩ :=
        ⟨rfl, fun k => by simp [startOfFile], List.Subset.refl saved, hsaved,
          fun j hj => absurd hj List.not_mem_nil⟩
      have h := hstart.judgeStatements hlast
      exact ⟨h.violations, h.keys, h.saved, h.sourced, h.listed⟩
    · cases hjudged
  · cases hjudged

/-- File by file, the findings are the first of each key, and no skipped rule is forgotten. -/
theorem judgeFiles_accounts {fileOrder : List String} {fileIndex : Nat}
    {files : List (ParsedFile μ)} {s : AnalysisState} {chain : JudgedChain μ}
    (hsaved : e.Sourced tierOf saved)
    (hchain : e.judgeFiles tierOf fileOrder fileIndex files s saved = .ok chain) :
    chain.findings.map (·.recorded.violation) =
        (chain.judgements.flatMap reportedFindings).map Prod.snd ∧
      (saved ⊆ chain.notEvaluated ∧ e.Sourced tierOf chain.notEvaluated) ∧
      ∀ judgements ∈ chain.judgements, ∀ j ∈ judgements, ∀ n ∈ j.notEvaluated tierOf,
        e.Sourced tierOf [n] ∧ Covers chain.notEvaluated n := by
  induction files generalizing fileIndex s saved chain with
  | nil =>
    obtain rfl := Except.ok.inj hchain
    exact ⟨rfl, ⟨List.Subset.refl saved, hsaved⟩, fun js hjs => absurd hjs List.not_mem_nil⟩
  | cons file rest ih =>
    rw [Engine.judgeFiles] at hchain
    split at hchain
    · cases hchain
    · next judged hjudged =>
      have h := fileAccounts_judgeParsedFile hsaved hjudged
      split at hchain
      · cases hchain
      · next others hothers =>
        obtain rfl := Except.ok.inj hchain
        obtain ⟨hfindings, ⟨hkept, hsourced⟩, hlisted⟩ := ih h.sourced hothers
        refine ⟨?_, ⟨List.Subset.trans h.saved hkept, hsourced⟩, fun js hjs j hj n hn => ?_⟩
        · have hviolations : (judged.run.violations.map fun r =>
              (reportFinding fileOrder fileIndex file judged.run.state r).recorded.violation) =
                (reportedFindings judged.judgements).map Prod.snd := h.violations
          simp only [List.map_append, List.map_map, List.flatMap_cons, hfindings]
          exact congrArg (· ++ _) hviolations
        · rcases List.mem_cons.mp hjs with rfl | hjs
          · obtain ⟨hsource, hcovers⟩ := h.listed j hj n hn
            exact ⟨hsource, hcovers.mono hkept⟩
          · exact hlisted js hjs j hj n hn

end Files

end Engine

/-- One operation that always takes effect. -/
def noteOperations : Operations Unit where
  apply _ s _ := (.applied, s)
  evidenceGrows _ s _ := Std.Refl.refl s
  preCascade _ _ := none
  statisticsTargets _ _ _ := []
  inferredSchema _ := false

def noteRule : Rule Unit where
  id := "note"
  evaluatesWhenUnresolved _ := false
  requiredCapabilities := []
  evaluate _ := [{ sourceRange := none, ruleId := "note", objectKind := "table",
                   objectName := "users", tier := .tier3, reason := "noted", recipe := "none",
                   dedupKey := some "note" }]
  unlocated := by simp

def noteEngine : Engine Unit where
  ops := noteOperations
  config := { disabledRules := [], allowInlineSuppressions := false }
  rules := [noteRule]

def noteStatement (start : Nat) : ParsedStatement Unit where
  range := (start, start + 4)
  findingRange := (start, start + 4)
  ignores := []
  mutations _ := [.operation ()]

def noteFile : ParsedFile Unit where
  filename := "0001_note.sql"
  errors := []
  ignores := []
  statements := [noteStatement 0, noteStatement 5]
  located k statement h := by
    rcases k with - | - | k
    · obtain rfl := Option.some.inj h
      decide
    · obtain rfl := Option.some.inj h
      decide
    · simp at h

end SafeMigrate
