import SafeMigrate.CertaintyRuns

/-! The certainty that finally accompanies a finding is the one it had when it
was recorded, whatever follows, in a run that keeps its records. -/

namespace SafeMigrate

/-- A record of an earlier statement of the chain, or from before it. -/
def EarlierThan (fileOrder : List String) (fileIndex statement : Nat) (record : EvidenceRecord) :
    Prop :=
  match record.location with
  | none => True
  | some location =>
    location.file ∉ fileOrder ∨ (∃ j < fileIndex, fileOrder[j]? = some location.file) ∨
      fileOrder[fileIndex]? = some location.file ∧ location.statementIndex < statement

def HasEarlierChainRecord (fileOrder : List String) (fileIndex : Nat) (f : Recorded) : Prop :=
  ∃ record ∈ f.log.records, record.scope = .chain ∧
    EarlierThan fileOrder fileIndex f.statement record

def HasOwnStatementRecord (fileOrder : List String) (fileIndex : Nat) (f : Recorded) : Prop :=
  ∃ record ∈ f.log.records, record.scope = .statement ∧
    record.location = (fileOrder[fileIndex]?).map fun name => ⟨name, f.statement⟩

/-- In a file that repeats the name of an earlier one, a Statement record is
taken for one of the earlier file. -/
def Attributed (fileOrder : List String) (fileIndex : Nat) (f : Recorded) : Prop :=
  (∃ j < fileIndex, fileOrder[j]? = fileOrder[fileIndex]?) →
    HasOwnStatementRecord fileOrder fileIndex f → HasEarlierChainRecord fileOrder fileIndex f

section Position

variable {fileOrder : List String} {fileIndex : Nat} {name : String}

theorem findIdx?_le {j p : Nat} {location : EvidenceLocation}
    (hj : fileOrder[j]? = some location.file)
    (hp : fileOrder.findIdx? (· == location.file) = some p) : p ≤ j := by
  obtain ⟨hlt, -, hfirst⟩ := List.findIdx?_eq_some_iff_getElem.mp hp
  by_contra hgt
  obtain ⟨hjlt, hjname⟩ := List.getElem?_eq_some_iff.mp hj
  have hno := hfirst j (by omega)
  simp [hjname] at hno

theorem counts_of_earlier {statement : Nat} {record : EvidenceRecord} (hscope : record.scope = .chain)
    (hearlier : EarlierThan fileOrder fileIndex statement record) :
    counts fileOrder (some (fileIndex, statement)) record = true := by
  unfold counts recordPosition
  unfold EarlierThan at hearlier
  rw [hscope]
  cases hlocation : record.location with
  | none => rfl
  | some location =>
    rw [hlocation] at hearlier
    cases hp : fileOrder.findIdx? (· == location.file) with
    | none => simp [hp]
    | some p =>
      simp only [hp, Option.map_some, notBefore, Bool.not_eq_true', Bool.or_eq_false_iff,
        Bool.and_eq_false_imp, decide_eq_false_iff_not, decide_eq_true_eq]
      rcases hearlier with hout | ⟨j, hj, hname⟩ | ⟨hname, hlt⟩
      · obtain ⟨hlt, hfile, -⟩ := List.findIdx?_eq_some_iff_getElem.mp hp
        exact absurd (by rw [← beq_iff_eq.mp hfile]; exact List.getElem_mem hlt) hout
      · have hle := findIdx?_le hname hp
        omega
      · have hle := findIdx?_le hname hp
        omega

theorem counts_of_own {statement : Nat} {record : EvidenceRecord} (hscope : record.scope = .statement)
    (hname : fileOrder[fileIndex]? = some name) (hlocation : record.location = some ⟨name, statement⟩)
    (hfresh : ¬∃ j < fileIndex, fileOrder[j]? = fileOrder[fileIndex]?) :
    counts fileOrder (some (fileIndex, statement)) record = true := by
  have hfirst : fileOrder.findIdx? (· == name) = some fileIndex := by
    obtain ⟨hlt, hget⟩ := List.getElem?_eq_some_iff.mp hname
    refine List.findIdx?_eq_some_iff_getElem.mpr ⟨hlt, by simp [hget], fun j hj => ?_⟩
    simp only [beq_iff_eq]
    intro hsame
    exact hfresh ⟨j, hj, by rw [hname, List.getElem?_eq_getElem (by omega), hsame]⟩
  simp [counts, recordPosition, hscope, hlocation, hfirst]

theorem counts_without_place (record : EvidenceRecord) : counts fileOrder none record = true := by
  unfold counts
  split <;> simp_all

end Position

open Engine

section Runs

variable {μ : Type} {e : Engine μ} {fileOrder : List String} {fileIndex : Nat} {file : ParsedFile μ}

/-- The record that ought to taint a finding does taint it when the finding is
recorded. -/
theorem supportedBy_of_owed {f : Recorded} (hname : fileOrder[fileIndex]? = some file.filename)
    (hplace : statementIndexOf file f = none ∨ statementIndexOf file f = some f.statement)
    (hattributed : Attributed fileOrder fileIndex f)
    (howed : HasEarlierChainRecord fileOrder fileIndex f ∨
      HasOwnStatementRecord fileOrder fileIndex f) :
    SupportedBy fileOrder fileIndex file f.log f := by
  have hchain (h : HasEarlierChainRecord fileOrder fileIndex f) :
      SupportedBy fileOrder fileIndex file f.log f := by
    obtain ⟨record, hrecord, hscope, hearlier⟩ := h
    refine ⟨record, hrecord, ?_⟩
    rcases hplace with hnone | hsome
    · simpa [placeOf, hnone] using counts_without_place record
    · simpa [placeOf, hsome] using counts_of_earlier hscope hearlier
  rcases howed with hearlier | hown
  · exact hchain hearlier
  · by_cases hfresh : ∃ j < fileIndex, fileOrder[j]? = fileOrder[fileIndex]?
    · exact hchain (hattributed hfresh hown)
    · obtain ⟨record, hrecord, hscope, hlocation⟩ := hown
      refine ⟨record, hrecord, ?_⟩
      rw [hname] at hlocation
      rcases hplace with hnone | hsome
      · simpa [placeOf, hnone] using counts_without_place record
      · simpa [placeOf, hsome] using counts_of_own hscope hname hlocation hfresh

variable (e) in
/-- No statement of the file unwinds the support of a finding. -/
structure FileUndisturbed (fileOrder : List String) (fileIndex : Nat) (file : ParsedFile μ)
    (s : AnalysisState) : Prop where
  statements : StatementsUndisturbed e fileOrder fileIndex file 1 file.statements (startOfFile s)
  attributed : ∀ run, e.runStatements file 1 file.statements (startOfFile s) = .ok run →
    ∀ f ∈ run.violations, Attributed fileOrder fileIndex f

variable (e) in
def FilesUndisturbed (fileOrder : List String) : Nat → List (ParsedFile μ) → AnalysisState → Prop
  | _, [], _ => True
  | fileIndex, file :: rest, s =>
    FileUndisturbed e fileOrder fileIndex file s ∧
      ∀ violations t, e.analyzeParsedFile file s = .ok (violations, t) →
        FilesUndisturbed fileOrder (fileIndex + 1) rest t

def Engine.Undisturbed (e : Engine μ) (files : List (ParsedFile μ)) (s : AnalysisState) : Prop :=
  FilesUndisturbed e (files.map (·.filename)) 0 files s

theorem reportFinding_tainted (s : AnalysisState) (f : Recorded) :
    (reportFinding fileOrder fileIndex file s f).certainty = .tainted ↔
      SupportedBy fileOrder fileIndex file s.evidence f :=
  certaintyForStatement_eq_tainted s.evidence fileIndex (statementIndexOf file f)

theorem analyzeParsedFile_ok {s t : AnalysisState} {violations : List Recorded}
    (h : e.analyzeParsedFile file s = .ok (violations, t)) :
    ∃ run, e.runStatements file 1 file.statements (startOfFile s) = .ok run ∧
      run.violations = violations ∧ run.state.evidence = t.evidence := by
  unfold analyzeParsedFile at h
  split at h
  · cases hrun : e.runStatements file 1 file.statements (startOfFile s) with
    | error error =>
      rw [hrun] at h
      cases h
    | ok run =>
      rw [hrun] at h
      cases h
      exact ⟨run, rfl, rfl, rfl⟩
  · cases h

theorem FileUndisturbed.tainted {s : AnalysisState} {run : FileRun}
    (h : FileUndisturbed e fileOrder fileIndex file s)
    (hname : fileOrder[fileIndex]? = some file.filename)
    (hrun : e.runStatements file 1 file.statements (startOfFile s) = .ok run)
    {f : Recorded} (hf : f ∈ run.violations)
    (howed : HasEarlierChainRecord fileOrder fileIndex f ∨
      HasOwnStatementRecord fileOrder fileIndex f) :
    SupportedBy fileOrder fileIndex file run.state.evidence f := by
  have hrest : file.statements.drop 0 = file.statements := rfl
  obtain ⟨hplace, hlog⟩ := runStatements_stillSupported hrest h.statements (by simp [startOfFile])
    hrun f hf
  exact hlog (supportedBy_of_owed hname hplace (h.attributed run hrun f hf) howed)

/-- A finding tainted after the first statements of a file stays tainted. -/
theorem FileUndisturbed.lasts {s : AnalysisState} {moment final : FileRun} {k : Nat}
    (h : FileUndisturbed e fileOrder fileIndex file s)
    (hmoment : e.runStatements file 1 (file.statements.take k) (startOfFile s) = .ok moment)
    (hfinal : e.runStatements file 1 file.statements (startOfFile s) = .ok final) :
    Persists fileOrder fileIndex file moment final := by
  have hsplit : file.statements.take k ++ file.statements.drop k = file.statements :=
    List.take_append_drop k file.statements
  have hquiet := h.statements
  rw [← hsplit] at hquiet
  have hlater := hquiet.append.2 moment hmoment
  have hrest : e.runStatements file (1 + (file.statements.take k).length)
      (file.statements.drop k) moment = .ok final := by
    have happend := runStatements_append e file 1 (file.statements.take k)
      (file.statements.drop k) (startOfFile s)
    rw [hsplit, hfinal, hmoment] at happend
    exact happend.symm
  exact runStatements_persists hlater hrest

/-- What is known of every file of an undisturbed chain. -/
theorem FilesUndisturbed.at_file {before after : List (ParsedFile μ)} {i : Nat}
    {s t : AnalysisState} {found : List ReportFinding}
    (h : FilesUndisturbed e fileOrder i (before ++ file :: after) s)
    (hbefore : e.analyzeFiles fileOrder i before s = .ok (found, t)) :
    FileUndisturbed e fileOrder (i + before.length) file t := by
  induction before generalizing i s found with
  | nil =>
    cases hbefore
    exact h.1
  | cons first before ih =>
    obtain ⟨-, hlater⟩ := h
    unfold analyzeFiles at hbefore
    cases hfirst : e.analyzeParsedFile first s with
    | error errors =>
      rw [hfirst] at hbefore
      cases hbefore
    | ok result =>
      obtain ⟨violations, u⟩ := result
      rw [hfirst] at hbefore
      dsimp only at hbefore
      cases hrest : e.analyzeFiles fileOrder (i + 1) before u with
      | error errors =>
        rw [hrest] at hbefore
        cases hbefore
      | ok result =>
        obtain ⟨findings, final⟩ := result
        rw [hrest] at hbefore
        cases hbefore
        have hfile := ih (hlater violations u hfirst) hrest
        rwa [List.length_cons, Nat.add_comm before.length, ← Nat.add_assoc]

theorem analyzeFiles_tainted {files : List (ParsedFile μ)} {i : Nat} {s final : AnalysisState}
    {findings : List ReportFinding} (h : FilesUndisturbed e fileOrder i files s)
    (horder : fileOrder.drop i = files.map (·.filename))
    (hrun : e.analyzeFiles fileOrder i files s = .ok (findings, final))
    {finding : ReportFinding} (hfinding : finding ∈ findings)
    (howed : HasEarlierChainRecord fileOrder finding.fileIndex finding.recorded ∨
      HasOwnStatementRecord fileOrder finding.fileIndex finding.recorded) :
    finding.certainty = .tainted := by
  induction files generalizing i s findings with
  | nil =>
    cases hrun
    cases hfinding
  | cons file files ih =>
    obtain ⟨hfile, hlater⟩ := h
    unfold analyzeFiles at hrun
    cases hanalyzed : e.analyzeParsedFile file s with
    | error errors =>
      rw [hanalyzed] at hrun
      cases hrun
    | ok result =>
      obtain ⟨violations, t⟩ := result
      rw [hanalyzed] at hrun
      dsimp only at hrun
      cases hrest : e.analyzeFiles fileOrder (i + 1) files t with
      | error errors =>
        rw [hrest] at hrun
        cases hrun
      | ok result =>
        obtain ⟨later, last⟩ := result
        rw [hrest] at hrun
        cases hrun
        have hname : fileOrder[i]? = some file.filename := by
          rw [← List.head?_drop, horder]
          rfl
        have htail : fileOrder.drop (i + 1) = files.map (·.filename) := by
          rw [← List.tail_drop, horder]
          rfl
        rcases List.mem_append.mp hfinding with hhere | hthere
        · obtain ⟨run, hstatements, hviolations, hevidence⟩ := analyzeParsedFile_ok hanalyzed
          obtain ⟨f, hf, rfl⟩ := List.mem_map.mp hhere
          rw [reportFinding_tainted, ← hevidence]
          exact hfile.tainted hname hstatements (hviolations ▸ hf) howed
        · exact ih (hlater violations t hanalyzed) htail hrest hthere

/-- A finding that a record of the log ought to taint when it is recorded is
reported as tainted, and a finding that is tainted at some point of its file is
tainted at the end of it. -/
theorem certainty_lasts (e : Engine μ) (files : List (ParsedFile μ)) (s final : AnalysisState)
    (findings : List ReportFinding) (h : e.Undisturbed files s)
    (hrun : e.analyzeChainWithLocations files s = .ok (findings, final)) :
    (∀ finding ∈ findings,
      HasEarlierChainRecord (files.map (·.filename)) finding.fileIndex finding.recorded ∨
        HasOwnStatementRecord (files.map (·.filename)) finding.fileIndex finding.recorded →
      finding.certainty = .tainted) ∧
    ∀ before file after found t k moment last, files = before ++ file :: after →
      e.analyzeFiles (files.map (·.filename)) 0 before s = .ok (found, t) →
      e.runStatements file 1 (file.statements.take k) (startOfFile t) = .ok moment →
      e.runStatements file 1 file.statements (startOfFile t) = .ok last →
      ∀ f ∈ moment.violations, f ∈ last.violations ∧
        ((reportFinding (files.map (·.filename)) before.length file moment.state f).certainty =
            .tainted →
          (reportFinding (files.map (·.filename)) before.length file last.state f).certainty =
            .tainted) := by
  refine ⟨fun finding hfinding howed => analyzeFiles_tainted h rfl hrun hfinding howed, ?_⟩
  intro before file after found t k moment last hfiles hbefore hmoment hlast f hf
  have hchain : FilesUndisturbed e (files.map (·.filename)) 0 (before ++ file :: after) s :=
    hfiles ▸ h
  have hfile := hchain.at_file hbefore
  rw [Nat.zero_add] at hfile
  have hpersists := hfile.lasts hmoment hlast
  refine ⟨hpersists.violations.subset hf, ?_⟩
  rw [reportFinding_tainted, reportFinding_tainted]
  exact hpersists.supported f hf

end Runs

end SafeMigrate
