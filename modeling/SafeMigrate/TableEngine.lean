import SafeMigrate.CreateTableWrites
import SafeMigrate.LastingCertainty
import SafeMigrate.LiveAliases

/-! The engine over the table mutations and the statements without a model,
with the rule that reports the latter. -/

namespace SafeMigrate

open Command AnalysisState

theorem evidenceGrows_bumpGeneration (s : AnalysisState) : EvidenceGrows s s.bumpGeneration :=
  (EvidenceGrows.pushUndo s fun _ => rfl).trans (.of_eq rfl rfl)

theorem evidenceGrows_modifyRelation (s : AnalysisState) (id : ObjectId)
    (f : RelationState → RelationState) : EvidenceGrows s (s.modifyRelation id f) := by
  unfold modifyRelation
  split
  · exact .of_eq rfl rfl
  · exact Std.Refl.refl s

theorem evidenceGrows_putConstraint (s : AnalysisState) (constraint : ConstraintState) :
    EvidenceGrows s (s.putConstraint constraint) :=
  (EvidenceGrows.pushUndo s fun _ => rfl).trans (.of_eq rfl rfl)

theorem keepsTableWrites_evidenceGrows (id : ObjectId) (parent : Option ObjectId) :
    KeepsTableWrites id parent EvidenceGrows where
  openTable s := (EvidenceGrows.pushUndo s fun _ => rfl).trans (evidenceGrows_bumpGeneration _)
  putRelation _ _ := .of_eq rfl rfl
  modifyRelation s f := evidenceGrows_modifyRelation s id f
  listTrigger s _ :=
    (EvidenceGrows.pushUndo s fun _ => rfl).trans (evidenceGrows_modifyRelation _ id _)
  bumpGeneration := evidenceGrows_bumpGeneration
  addGraphEdge s _ _ := (EvidenceGrows.pushUndo s fun _ => rfl).trans (.of_eq rfl rfl)
  addGraphEdges s _ _ := (EvidenceGrows.pushUndo s fun _ => rfl).trans (.of_eq rfl rfl)
  addGraphEdgeFull s _ _ := (EvidenceGrows.pushUndo s fun _ => rfl).trans (.of_eq rfl rfl)
  putConstraint := evidenceGrows_putConstraint
  putConstraintEdges s writes _ := by
    refine (EvidenceGrows.pushUndo s fun _ => rfl).trans (keeps_foldl writes (fun write _ s => ?_) _)
    exact (evidenceGrows_putConstraint s write.1).trans (.of_eq rfl rfl)
  putSequence s _ _ := (EvidenceGrows.pushUndo s fun _ => rfl).trans
    ((evidenceGrows_bumpGeneration _).trans (.of_eq rfl rfl))
  putTrigger s _ := (EvidenceGrows.pushUndo s fun _ => rfl).trans (.of_eq rfl rfl)
  setIndexDefinition s _ _ := (EvidenceGrows.pushUndo s fun _ => rfl).trans (.of_eq rfl rfl)

inductive OpaqueMutation
  | unsupportedStatement
  | doBlock
  | execute
  | prepareTransaction
  | setTransaction
  | setConstraints
  | unresolvedReference (objectKind objectName : String)
deriving DecidableEq

def OpaqueMutation.code : OpaqueMutation → EvidenceCode
  | unsupportedStatement => .unsupportedStatement
  | unresolvedReference .. => .unresolvedReference
  | _ => .unsupportedSemantics

def AnalysisState.applyOpaque (s : AnalysisState) (m : OpaqueMutation) :
    MutationResult × AnalysisState :=
  (.applied, s.taint m.code .chain)

inductive TableMutation
  | isOpaque (m : OpaqueMutation)
  | createTable (create : CreateTable)
  | dropTable (drop : DropTable)

namespace TableMutation

def apply (text : SqlText) (m : TableMutation) (s : AnalysisState)
    (preCascade : Option CascadeResult) : MutationResult × AnalysisState :=
  match m with
  | isOpaque m => s.applyOpaque m
  | createTable create => s.applyCreateTable text create
  | dropTable drop => s.applyDropTable drop preCascade

theorem evidenceGrows_noteIfTemporary (create : CreateTable) (s : AnalysisState) :
    EvidenceGrows s (create.noteIfTemporary s) := by
  unfold CreateTable.noteIfTemporary
  split
  · exact .of_eq rfl rfl
  · exact Std.Refl.refl s

theorem evidenceGrows_apply (text : SqlText) (m : TableMutation) (s : AnalysisState)
    (preCascade : Option CascadeResult) : EvidenceGrows s (m.apply text s preCascade).2 := by
  cases m with
  | isOpaque m => exact KeepsEvidence.taint s m.code .chain
  | createTable create =>
    have hkeeps : Command.Keeps EvidenceGrows (create.command text) :=
      CreateTable.keeps_command (keepsTableWrites_evidenceGrows create.id.id _)
        (evidenceGrows_noteIfTemporary create)
    exact hkeeps.outcome s
  | dropTable drop => exact s.keeps_applyDropTable drop preCascade

def operations (text : SqlText) (inferredSchema : ObjectId → Bool) : Operations TableMutation where
  apply := apply text
  evidenceGrows := evidenceGrows_apply text
  preCascade m s :=
    match m with
    | dropTable drop => if drop.cascade then some (s.cascadeForRelations (drop.ids.map (·.id))) else none
    | _ => none
  statisticsTargets _ _ _ := []
  inferredSchema := inferredSchema

end TableMutation

def opaqueViolation (blockType recipe : String) : Violation :=
  { sourceRange := none, ruleId := "opaque-dynamic-sql", objectKind := "opaque",
    objectName := "opaque statement", tier := .tier2,
    reason := "Encountered opaque " ++ blockType, recipe, dedupKey := none }

def dynamicSqlRecipe : String :=
  "Procedural or dynamic SQL (DO blocks, EXECUTE) obscures schema mutations. Lock analysis " ++
    "confidence is heavily degraded."

def OpaqueMutation.violations : OpaqueMutation → List Violation
  | unsupportedStatement =>
    [opaqueViolation "unsupported SQL statement" ("This SQL statement is not modeled. Review its " ++
      "PostgreSQL behavior before deploying.")]
  | doBlock => [opaqueViolation "DO block" dynamicSqlRecipe]
  | execute => [opaqueViolation "EXECUTE statement" dynamicSqlRecipe]
  | prepareTransaction => [opaqueViolation "PREPARE TRANSACTION" dynamicSqlRecipe]
  | setTransaction => [opaqueViolation "SET TRANSACTION" dynamicSqlRecipe]
  | setConstraints => [opaqueViolation "SET CONSTRAINTS" dynamicSqlRecipe]
  | unresolvedReference .. => []

/-- `OpaqueDynamicSqlRule`. -/
def opaqueDynamicSqlRule : Rule TableMutation where
  id := "opaque-dynamic-sql"
  evaluatesWhenUnresolved _ := true
  requiredCapabilities := []
  evaluate context :=
    match context.transition.mutation with
    | .operation (.isOpaque m) => m.violations
    | _ => []
  unlocated := by
    intro context violation hviolation
    split at hviolation
    · next m _ => cases m <;> simp_all [OpaqueMutation.violations, opaqueViolation]
    · cases hviolation

/-! A DO block in a transaction that is rolled back, after a statement without
a model before that transaction or inside it. -/

def sampleStatement (k : Nat) (mutation : Mutation TableMutation) :
    ParsedStatement TableMutation :=
  { range := (10 * k, 10 * k + 9), findingRange := (10 * k, 10 * k + 9), ignores := [],
    mutations := fun _ => [mutation] }

def unsupportedBefore : ParsedFile TableMutation where
  filename := "001.sql"
  errors := []
  ignores := []
  statements := [sampleStatement 0 (.operation (.isOpaque .unsupportedStatement)),
    sampleStatement 1 (.control .begin), sampleStatement 2 (.operation (.isOpaque .doBlock)),
    sampleStatement 3 (.control (.rollback false))]
  located := by
    intro k statement h
    rcases k with _ | _ | _ | _ | k <;> simp at h <;> subst h <;> rfl

def unsupportedInside : ParsedFile TableMutation where
  filename := "001.sql"
  errors := []
  ignores := []
  statements := [sampleStatement 0 (.control .begin),
    sampleStatement 1 (.operation (.isOpaque .unsupportedStatement)),
    sampleStatement 2 (.operation (.isOpaque .doBlock)),
    sampleStatement 3 (.control (.rollback false))]
  located := by
    intro k statement h
    rcases k with _ | _ | _ | _ | k <;> simp at h <;> subst h <;> rfl

def tableEngine : Engine TableMutation where
  ops := TableMutation.operations textless fun _ => false
  config := { disabledRules := [], allowInlineSuppressions := false }
  rules := [opaqueDynamicSqlRule]

/-- A server whose version was observed. -/
def observed : AnalysisState := { pgVersionNum := some 160000 }

def reported (file : ParsedFile TableMutation) : List ReportFinding × AnalysisState :=
  match tableEngine.analyzeChainWithLocations [file] observed with
  | .ok result => result
  | .error _ => ([], {})

theorem unsupportedBefore_undisturbed : tableEngine.Undisturbed [unsupportedBefore] observed := by
  have hquiet (scope : StatementScope TableMutation) (checkpoint : StatementCheckpoint)
      (prior : List Recorded) (m : TableMutation) (run : StatementRun) :
      Engine.MutationsUndisturbed tableEngine ["001.sql"] 0 unsupportedBefore scope checkpoint
        prior [.operation m] run :=
    ⟨by rintro control ⟨⟩, fun _ _ _ => trivial⟩
  refine ⟨⟨⟨hquiet _ _ _ _ _, ?_⟩, ?_⟩, fun _ _ _ => trivial⟩
  · rintro _ ⟨⟩
    refine ⟨⟨?_, fun _ _ _ => trivial⟩, ?_⟩
    · -- BEGIN unwinds nothing
      rintro _ ⟨⟩
      decide
    · rintro _ ⟨⟩
      refine ⟨hquiet _ _ _ _ _, ?_⟩
      rintro _ ⟨⟩
      refine ⟨⟨?_, fun _ _ _ => trivial⟩, fun _ _ => trivial⟩
      -- the statement before the transaction precedes the evidence that is unwound
      rintro _ ⟨⟩
      decide
  · rintro _ - f - ⟨j, hj, -⟩
    omega

/-- The finding of the DO block, the second of either file. -/
theorem one_lt_length_before : 1 < (reported unsupportedBefore).1.length := by decide

theorem one_lt_length_inside : 1 < (reported unsupportedInside).1.length := by decide

def unsupportedRecord (statement : Nat) : EvidenceRecord :=
  { code := .unsupportedStatement, scope := .chain,
    summary := EvidenceCode.unsupportedStatement.summary,
    location := some ⟨"001.sql", statement⟩ }

/-- The DO block stays tainted by the statement before the transaction. -/
theorem unsupportedBefore_lasts :
    ∃ finding ∈ (reported unsupportedBefore).1,
      HasEarlierChainRecord ["001.sql"] finding.fileIndex finding.recorded ∧
        finding.certainty = .tainted := by
  let finding := (reported unsupportedBefore).1.get ⟨1, one_lt_length_before⟩
  have hmem : finding ∈ (reported unsupportedBefore).1 := List.get_mem _ _
  have howed : HasEarlierChainRecord ["001.sql"] finding.fileIndex finding.recorded :=
    ⟨unsupportedRecord 1, by decide, rfl, Or.inr (Or.inr ⟨rfl, by decide +kernel⟩)⟩
  have hlasts := certainty_lasts tableEngine [unsupportedBefore] observed (reported unsupportedBefore).2
    (reported unsupportedBefore).1 unsupportedBefore_undisturbed rfl
  exact ⟨finding, hmem, howed, hlasts.1 finding hmem (Or.inl howed)⟩

/-- The rollback takes the record away, and the DO block is reported as exact. -/
theorem unsupportedInside_upgraded :
    tableEngine.analyzeChainWithLocations [unsupportedInside] observed =
        .ok (reported unsupportedInside) ∧
      ∃ finding ∈ (reported unsupportedInside).1,
        HasEarlierChainRecord ["001.sql"] finding.fileIndex finding.recorded ∧
          finding.certainty = .exact := by
  let finding := (reported unsupportedInside).1.get ⟨1, one_lt_length_inside⟩
  refine ⟨rfl, finding, List.get_mem _ _, ?_, rfl⟩
  exact ⟨unsupportedRecord 2, by decide, rfl, Or.inr (Or.inr ⟨rfl, by decide +kernel⟩)⟩

end SafeMigrate
