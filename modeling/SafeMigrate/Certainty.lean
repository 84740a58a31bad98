import SafeMigrate.Engine

/-! The certainty of a finding: the evidence log at the end of its file,
weighed against the place of the finding. -/

namespace SafeMigrate

inductive Certainty
  | exact
  | assumed
  | tainted
deriving DecidableEq

/-- `record_position`: the file by its first position in the chain. -/
def recordPosition (record : EvidenceRecord) (fileOrder : List String) : Option (Nat × Nat) :=
  match record.location with
  | none => none
  | some location =>
    (fileOrder.findIdx? (· == location.file)).map fun fileIndex =>
      (fileIndex, location.statementIndex)

def notBefore (p q : Nat × Nat) : Bool :=
  decide (q.1 < p.1) || decide (p.1 = q.1) && decide (q.2 ≤ p.2)

def certaintyForStatement (evidence : List EvidenceRecord) (fileOrder : List String)
    (fileIndex : Nat) (statementIndex : Option Nat) (assertedInputs : Bool) : Certainty :=
  let here := statementIndex.map fun index => (fileIndex, index)
  weigh here evidence false
where
  weigh (here : Option (Nat × Nat)) : List EvidenceRecord → Bool → Certainty
    | [], unattributed =>
      if unattributed then .tainted else if assertedInputs then .assumed else .exact
    | record :: rest, unattributed =>
      match record.scope, recordPosition record fileOrder, here with
      | .chain, some recorded, some found =>
        if notBefore recorded found then weigh here rest unattributed else .tainted
      | .chain, _, _ => .tainted
      | .statement, some recorded, some found =>
        if recorded = found then .tainted else weigh here rest unattributed
      | .statement, _, _ => weigh here rest true

/-- Whether a record taints a finding at this place. -/
def counts (fileOrder : List String) (here : Option (Nat × Nat)) (record : EvidenceRecord) : Bool :=
  match record.scope, recordPosition record fileOrder, here with
  | .chain, some recorded, some found => !notBefore recorded found
  | .statement, some recorded, some found => recorded == found
  | _, _, _ => true

/-- A record of an earlier statement than another one. -/
def precedes (fileOrder : List String) (first second : EvidenceRecord) : Bool :=
  match recordPosition first fileOrder, recordPosition second fileOrder with
  | none, _ => true
  | some p, some q => !notBefore p q
  | some _, none => false

theorem notBefore_eq_false {p q : Nat × Nat} :
    notBefore p q = false ↔ p.1 < q.1 ∨ p.1 = q.1 ∧ p.2 < q.2 := by
  simp only [notBefore, Bool.or_eq_false_iff, decide_eq_false_iff_not, Bool.and_eq_false_imp,
    decide_eq_true_eq]
  omega

/-- Chain evidence of an earlier statement taints whatever a record taints. -/
theorem counts_of_precedes {fileOrder : List String} {here : Option (Nat × Nat)}
    {first second : EvidenceRecord} (hscope : first.scope = .chain)
    (hprecedes : precedes fileOrder first second = true)
    (hcounts : counts fileOrder here second = true) : counts fileOrder here first = true := by
  unfold precedes at hprecedes
  unfold counts at hcounts ⊢
  rw [hscope]
  cases hp : recordPosition first fileOrder with
  | none => rfl
  | some p =>
    cases here with
    | none => rfl
    | some found =>
      cases hq : recordPosition second fileOrder with
      | none => simp [hp, hq] at hprecedes
      | some q =>
        simp only [hp, hq, Bool.not_eq_true'] at hprecedes hcounts ⊢
        have hlt := notBefore_eq_false.mp hprecedes
        refine notBefore_eq_false.mpr ?_
        cases hsecond : second.scope with
        | chain =>
          simp only [hsecond, Bool.not_eq_true'] at hcounts
          have hlt' := notBefore_eq_false.mp hcounts
          omega
        | statement =>
          simp only [hsecond, beq_iff_eq] at hcounts
          rwa [← hcounts]

def Supported (fileOrder : List String) (here : Option (Nat × Nat)) (log : EvidenceLog) : Prop :=
  ∃ record ∈ log.records, counts fileOrder here record = true

instance (fileOrder : List String) (here : Option (Nat × Nat)) (log : EvidenceLog) :
    Decidable (Supported fileOrder here log) :=
  inferInstanceAs (Decidable (∃ record ∈ log.records, counts fileOrder here record = true))

theorem Supported.mono {fileOrder : List String} {here : Option (Nat × Nat)} {log log' : EvidenceLog}
    (h : Supported fileOrder here log) (hsub : log.records ⊆ log'.records) :
    Supported fileOrder here log' := by
  obtain ⟨record, hrecord, hcounts⟩ := h
  exact ⟨record, hsub hrecord, hcounts⟩

section Weigh

variable {fileOrder : List String} {asserted : Bool} {here : Option (Nat × Nat)}

/-- A Statement record without a place only counts at the end of the loop. -/
theorem weigh_eq_tainted (records : List EvidenceRecord) (unattributed : Bool) :
    certaintyForStatement.weigh fileOrder asserted here records unattributed = .tainted ↔
      unattributed = true ∨ ∃ record ∈ records, counts fileOrder here record = true := by
  induction records generalizing unattributed with
  | nil =>
    cases unattributed <;> cases asserted <;> simp [certaintyForStatement.weigh]
  | cons record rest ih =>
    simp only [List.mem_cons, exists_eq_or_imp]
    cases hscope : record.scope with
    | chain =>
      cases hat : recordPosition record fileOrder with
      | none => simp [certaintyForStatement.weigh, counts, hscope, hat]
      | some recorded =>
        cases here with
        | none => simp [certaintyForStatement.weigh, counts, hscope, hat]
        | some found =>
          have hrest := ih unattributed
          cases hbefore : notBefore recorded found <;>
            simp [certaintyForStatement.weigh, counts, hscope, hat, hbefore, hrest]
    | statement =>
      cases hat : recordPosition record fileOrder with
      | none => simp [certaintyForStatement.weigh, counts, hscope, hat, ih true]
      | some recorded =>
        cases here with
        | none => simp [certaintyForStatement.weigh, counts, hscope, hat, ih true]
        | some found =>
          have hrest := ih unattributed
          by_cases hsame : recorded = found <;>
            simp [certaintyForStatement.weigh, counts, hscope, hat, hsame, hrest]

theorem certaintyForStatement_eq_tainted (log : EvidenceLog) (fileIndex : Nat)
    (statementIndex : Option Nat) :
    certaintyForStatement log.records fileOrder fileIndex statementIndex asserted = .tainted ↔
      Supported fileOrder (statementIndex.map fun index => (fileIndex, index)) log := by
  unfold certaintyForStatement Supported
  rw [weigh_eq_tainted]
  simp

end Weigh

/-! The chain: every file in order, its findings weighed when it ends. -/

structure ReportFinding where
  fileIndex : Nat
  statementIndex : Option Nat
  certainty : Certainty
  recorded : Recorded

/-- `pg_version().is_asserted()`: the version is not one that was observed. -/
def AnalysisState.pgVersionIsAsserted (s : AnalysisState) : Bool := s.pgVersionNum.isNone

namespace Engine

variable {μ : Type} (e : Engine μ)

/-- The statement whose range holds the finding. -/
def statementIndexOf (file : ParsedFile μ) (recorded : Recorded) : Option Nat :=
  recorded.violation.sourceRange.bind (statementPosition file.statements)

def reportFinding (fileOrder : List String) (fileIndex : Nat) (file : ParsedFile μ)
    (s : AnalysisState) (recorded : Recorded) : ReportFinding :=
  { fileIndex
    statementIndex := statementIndexOf file recorded
    certainty := certaintyForStatement s.evidence.records fileOrder fileIndex
      (statementIndexOf file recorded) s.pgVersionIsAsserted
    recorded }

def analyzeFiles (fileOrder : List String) :
    Nat → List (ParsedFile μ) → AnalysisState →
      Except (List String) (List ReportFinding × AnalysisState)
  | _, [], s => .ok ([], s)
  | fileIndex, file :: rest, s =>
    match e.analyzeParsedFile file s with
    | .error errors => .error errors
    | .ok (violations, t) =>
      match analyzeFiles fileOrder (fileIndex + 1) rest t with
      | .error errors => .error errors
      | .ok (findings, final) =>
        .ok (violations.map (reportFinding fileOrder fileIndex file t) ++ findings, final)

/-- `analyze_chain_with_locations`, before the findings are sorted. -/
def analyzeChainWithLocations (files : List (ParsedFile μ)) (s : AnalysisState) :
    Except (List String) (List ReportFinding × AnalysisState) :=
  e.analyzeFiles (files.map (·.filename)) 0 files s

end Engine

end SafeMigrate
