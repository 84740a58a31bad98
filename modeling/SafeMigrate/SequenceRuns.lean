import SafeMigrate.ColumnRuns
import SafeMigrate.SequenceAlterations

/-! Runs of the statements that create and alter sequences, on their own or
behind serial and identity columns. -/

namespace SafeMigrate

open Command AnalysisState

/-- The statements that create and alter sequences. -/
inductive SequenceStatement
  | createSequence (create : CreateSequence)
  | alterSequence (alter : AlterSequence)
  | createTable (create : CreateTable)
  | addColumn (id : ObjectRef) (only : Bool) (column : AddedColumn)

namespace SequenceStatement

/-- The values that the statement carries are 64-bit integers. -/
def InRange : SequenceStatement → Prop
  | createSequence create => create.options.InRange
  | alterSequence alter => ∀ option ∈ alter.options, option.InRange
  | createTable create => create.InRange
  | addColumn _ _ column =>
    ∀ options, column.identitySequence = some options → options.InRange

def command (text : ColumnText) : SequenceStatement → Statement MutationResult
  | createSequence create => create.command
  | alterSequence alter => alter.command
  | createTable create => create.command text.toSqlText
  | addColumn id only column => AlterColumn.command text { id, only, action := .addColumn column }

theorem keepsSequences {text : ColumnText} {statement : SequenceStatement}
    (h : statement.InRange) : Keeps KeepsSequences (statement.command text) := by
  cases statement with
  | createSequence create => exact CreateSequence.keepsSequences_command h
  | alterSequence alter => exact AlterSequence.keepsSequences_command h
  | createTable create => exact CreateTable.keepsSequences_command h
  | addColumn id only column => exact AlterColumn.keepsSequences_command rfl h

end SequenceStatement

/-- States reached by such statements, whatever their outcome. -/
inductive SequenceRun (text : ColumnText) (s : AnalysisState) : AnalysisState → Prop
  | start : SequenceRun text s s
  | step {t : AnalysisState} (statement : SequenceStatement) (before : SequenceRun text s t)
      (here : statement.InRange) :
      SequenceRun text s ((statement.command text).outcome t).2

theorem SequenceRun.valid {text : ColumnText} {s t : AnalysisState} (h : SequenceRun text s t)
    (hs : s.SequencesValid) : t.SequencesValid := by
  induction h with
  | start => exact hs
  | step _ _ here ih => exact (SequenceStatement.keepsSequences here).outcome _ ih

/-- All the values of a sequence fit into 64 bits. -/
def SequenceParameters.FitI64 (p : SequenceParameters) : Prop :=
  IsI64 p.increment ∧ IsI64 p.minValue ∧ IsI64 p.maxValue ∧ IsI64 p.startValue ∧ IsI64 p.cacheSize

theorem SequenceParameters.Valid.fitI64 {p : SequenceParameters} (h : p.Valid) : p.FitI64 := by
  obtain ⟨hmin, hmax, hstart⟩ := h.bounds_i64
  exact ⟨h.increment_i64, hmin, hmax, hstart, h.cache_i64⟩

/-- In every state of every run the sequences are valid, and the order of
distinct options changes neither a result nor a state. -/
theorem sequences_valid_in_any_order (text : ColumnText) :
    (∀ s t, s.SequencesValid → SequenceRun text s t → ∀ id sequence,
      t.sequences.lookup id = some (.present sequence) →
        sequence.Valid ∧ sequence.parameters.FitI64) ∧
    (∀ (alter : AlterSequence) (options : List SequenceOption), alter.options.Perm options →
      (alter.options.map SequenceOption.name).Nodup → ∀ s : AnalysisState,
        (AlterSequence.command { alter with options }).outcome s = alter.command.outcome s) ∧
    (∀ clauses clauses' : List SequenceClause, clauses.Perm clauses' →
      (clauses.map SequenceClause.name).Nodup →
        extractSequenceOptions clauses = extractSequenceOptions clauses' ∧
        ∀ id ifNotExists persistence,
          CreateSequence.ofClauses id ifNotExists persistence clauses =
            CreateSequence.ofClauses id ifNotExists persistence clauses') := by
  refine ⟨fun s t hs hrun id sequence hlookup => ?_, fun alter options hperm hdistinct s => ?_,
    fun clauses clauses' hperm hdistinct => ⟨?_, fun id ifNotExists persistence => ?_⟩⟩
  · have hvalid := hrun.valid hs id sequence hlookup
    exact ⟨hvalid, hvalid.parameters.fitI64⟩
  · rw [alter.command_eq_of_perm hperm hdistinct]
  · exact extractSequenceOptions_eq_of_perm hperm hdistinct
  · exact CreateSequence.ofClauses_eq_of_perm hperm hdistinct id ifNotExists persistence

section Descending

/-- A sequence that counts down, from its largest value to -5. -/
def countdown : CreateSequence :=
  { id := ⟨⟨"public", "countdown"⟩, false⟩, ifNotExists := false, ownedBy := none,
    persistence := .permanent
    options := { increment := some (-1), minValue := some (some (-5)) } }

/-- Its type, its direction and its place change in one statement. -/
def countUp : AlterSequence :=
  { id := ⟨⟨"public", "countdown"⟩, false⟩, ifExists := false
    options := [.asType "smallint", .increment 1, .maxValue none, .restart none], action := none }

def countedDown : AnalysisState := (countdown.command.outcome publicOnly).2

def countedUp : AnalysisState := (countUp.command.outcome countedDown).2

theorem publicOnly_sequencesValid : publicOnly.SequencesValid := by
  intro id sequence hlookup
  cases hlookup

theorem countUp_valid_in_any_order :
    (∀ id sequence, countedUp.sequences.lookup id = some (.present sequence) →
      sequence.Valid ∧ sequence.parameters.FitI64) ∧
    (AlterSequence.command { countUp with options := countUp.options.reverse }).outcome countedDown =
      countUp.command.outcome countedDown ∧
    (countedUp.presentSequence ⟨"public", "countdown"⟩).map (fun sequence =>
      (sequence.parameters.minValue, sequence.parameters.maxValue)) = some (-5, 32767) := by
  refine ⟨?_, ?_, by decide +kernel⟩
  · refine (sequences_valid_in_any_order columnText).1 publicOnly countedUp
      publicOnly_sequencesValid ?_
    have hfirst : (SequenceStatement.createSequence countdown).InRange := by
      refine ⟨fun n hn => ?_, fun n hn => ?_⟩
      · cases hn
        exact ⟨by decide, by decide⟩
      · cases hn
    have hsecond : (SequenceStatement.alterSequence countUp).InRange := by
      simp [SequenceStatement.InRange, countUp, SequenceOption.InRange, isI64_one]
    exact .step _ (.step _ .start hfirst) hsecond
  · exact (sequences_valid_in_any_order columnText).2.1 countUp _ countUp.options.reverse_perm.symm
      (by decide +kernel) countedDown

end Descending

end SafeMigrate
