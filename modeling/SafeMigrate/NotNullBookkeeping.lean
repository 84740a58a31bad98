import SafeMigrate.ColumnRuns
import SafeMigrate.NotNullColumns

/-! Not-null constraints are found by the shape of their edge, which a unique
constraint of one column shares: what the statements on nullability do to the
constraints of a table. -/

namespace SafeMigrate

open AnalysisState

/-- `DROP NOT NULL` spares the other constraints where what it reads as the
not-null constraint is one, and `SET NOT NULL` always spares them. From version
18 on, a column that is set or added as `NOT NULL` has its constraint where
nothing was read as one before, or one was; a column of a new table has it where
no other constraint of the statement takes its name. -/
theorem notNull_bookkeeping (text : ColumnText) :
    (∀ (s : AnalysisState) (alter : AlterNotNull),
      ((s.applyAlterNotNull text.toSqlText alter).1 ≠ .applied →
        OtherConstraintsKept s (s.applyAlterNotNull text.toSqlText alter).2) ∧
      ((s.applyAlterNotNull text.toSqlText alter).1 = .applied →
        (OtherConstraintsKept s (s.applyAlterNotNull text.toSqlText alter).2 ↔
          alter.notNull = true ∨ s.ReadsNotNull alter.id.id alter.column) ∧
        (alter.notNull = true → 180000 ≤ s.conservativePgVersion →
          ((s.applyAlterNotNull text.toSqlText alter).2.Guarded alter.id.id alter.column ↔
            s.notNullConstraintForColumn alter.id.id alter.column = none ∨
              s.Guarded alter.id.id alter.column)))) ∧
    (∀ (s t : AnalysisState) (alter : AlterColumn) (column : AddedColumn) (result : MutationResult),
      alter.action = .addColumn column → column.notNull = true →
        180000 ≤ s.conservativePgVersion → (alter.command text).run.run s = (.ok result, t) →
          (t.Guarded alter.id.id column.name ↔
            s.notNullConstraintForColumn alter.id.id column.name = none ∨
              s.Guarded alter.id.id column.name)) ∧
    ∀ (s t : AnalysisState) (create : CreateTable) (column : String) (result : MutationResult),
      column ∈ create.notNullColumns → 180000 ≤ s.conservativePgVersion →
        s.notNullConstraintForColumn create.id.id column = none →
          create.notNullName s column ∉ create.plannedNames text.toSqlText s →
            (create.command text.toSqlText).run.run s = (.ok result, t) →
              t.Guarded create.id.id column := by
  refine ⟨fun s alter => ?_, ?_, ?_⟩
  · rcases AlterNotNull.applied_or_same text.toSqlText alter s with ⟨happlied, hwrite⟩ | ⟨hnot, hsame⟩
    · rw [hwrite]
      exact ⟨fun hnot => absurd happlied hnot, fun _ =>
        ⟨AlterNotNull.otherKept_write_iff s, AlterNotNull.guarded_write_iff⟩⟩
    · exact ⟨fun _ => hsame.otherKept, fun happlied => absurd happlied hnot⟩
  · intro s t alter column result haction hnotNull hversion hrun
    exact (AlterColumn.guarded_command_iff haction hnotNull hversion hrun).2
  · intro s t create column result hcolumn hversion hnone hfree hrun
    exact CreateTable.guarded_command hcolumn hversion hnone hfree hrun

section Accounts

/-- A server that lists not-null constraints. -/
def listingServer : AnalysisState := { publicOnly with pgVersionNum := some 180000 }

def accounts : CreateTable :=
  { id := publicTable "accounts"
    columns := [{ name := "email", ty := some "text", isUnique := true },
      { name := "note", ty := some "text", notNull := true }] }

def withAccounts : AnalysisState := (listingServer.applyCreateTable columnText.toSqlText accounts).2

def alterAccounts (column : String) (notNull : Bool) : AlterNotNull :=
  { id := publicTable "accounts", column, notNull }

def addPhone : AddedColumn := { name := "phone", ty := some "text", notNull := true }

def addPhoneToAccounts : AlterColumn :=
  { id := publicTable "accounts", action := .addColumn addPhone }

/-- A table without the constraint that is asked for, edge by edge. -/
theorem not_guarded {s : AnalysisState} {table : ObjectId} {column : String}
    (h : ∀ e ∈ s.graph.edges, e.kind.constraintName.all fun name =>
      (s.constraints.lookup (table, name)).all fun constraint =>
        decide (constraint.kind ≠ .notNull ∨ e.kind ≠ .constraintOnRelation name [column] false)) :
    ¬s.Guarded table column := by
  rintro ⟨name, ⟨constraint, hlookup, hnotNull⟩, e, he, -, hkind⟩
  have hedge := h e he
  rw [hkind] at hedge
  simp [DependencyKind.constraintName, hlookup, hnotNull] at hedge

/-- A unique constraint of one column goes with `DROP NOT NULL`, and keeps
`SET NOT NULL` from registering the constraint that it asks for. -/
theorem uniqueKey_taken_for_notNull :
    (withAccounts.applyAlterNotNull columnText.toSqlText (alterAccounts "email" false)).1 = .applied ∧
    ¬OtherConstraintsKept withAccounts
      (withAccounts.applyAlterNotNull columnText.toSqlText (alterAccounts "email" false)).2 ∧
    (withAccounts.applyAlterNotNull columnText.toSqlText (alterAccounts "email" true)).1 = .applied ∧
    180000 ≤ withAccounts.conservativePgVersion ∧
    ¬(withAccounts.applyAlterNotNull columnText.toSqlText (alterAccounts "email" true)).2.Guarded
      (publicTable "accounts").id "email" := by
  have hgone : ((withAccounts.applyAlterNotNull columnText.toSqlText
      (alterAccounts "email" false)).2.constraints.lookup
        ((publicTable "accounts").id, "accounts_email_key")) = none := by decide +kernel
  have hunique : (withAccounts.constraints.lookup
      ((publicTable "accounts").id, "accounts_email_key")).any
        fun constraint => decide (constraint.kind ≠ .notNull) := by decide +kernel
  refine ⟨by decide +kernel, fun hkept => ?_, by decide +kernel, by decide +kernel,
    not_guarded (by decide +kernel)⟩
  obtain ⟨constraint, hlookup, hkind⟩ := (Option.any_eq_true _ _).mp hunique
  have hstays := (hkept _ constraint hlookup (by simpa using hkind)).1
  rw [hgone] at hstays
  cases hstays

/-- Beside the unique constraint, the statements on other columns keep to theirs. -/
theorem accounts_notNull :
    OtherConstraintsKept withAccounts
      (withAccounts.applyAlterNotNull columnText.toSqlText (alterAccounts "note" false)).2 ∧
    (withAccounts.applyAlterNotNull columnText.toSqlText (alterAccounts "note" true)).2.Guarded
      (publicTable "accounts").id "note" ∧
    ((addPhoneToAccounts.command columnText).after withAccounts).Guarded
      (publicTable "accounts").id "phone" ∧
    withAccounts.Guarded (publicTable "accounts").id "note" := by
  obtain ⟨hnullability, hadd, hcreate⟩ := notNull_bookkeeping columnText
  have hcreated : withAccounts.Guarded (publicTable "accounts").id "note" :=
    hcreate listingServer withAccounts accounts "note" .applied (by decide +kernel)
      (by decide +kernel) (by decide +kernel) (by decide +kernel)
      (Prod.ext (by decide +kernel) rfl)
  have hkey : withAccounts.notNullConstraintForColumn (publicTable "accounts").id "note" =
      some ((publicTable "accounts").id, "accounts_note_not_null") := by decide +kernel
  have hlisted : ∀ e ∈ withAccounts.graph.edges,
      (withAccounts.constraints.lookup (e.dependent, "accounts_note_not_null")).all
        fun constraint => decide (constraint.kind = .notNull) := by decide +kernel
  have hreads : withAccounts.ReadsNotNull (publicTable "accounts").id "note" := by
    intro key hread
    obtain rfl := Option.some.inj (hkey.symm.trans hread)
    have hshown (e : DependencyEdge) (he : e ∈ withAccounts.graph.edges)
        (constraint : ConstraintState) (hlookup : withAccounts.constraints.lookup
          (e.dependent, "accounts_note_not_null") = some constraint) : constraint.kind = .notNull := by
      have hkind := hlisted e he
      rw [hlookup] at hkind
      simpa using hkind
    have hdependent : withAccounts.constraints.lookup
        ((publicTable "accounts").id, "accounts_note_not_null") =
          some (notNullConstraint (publicTable "accounts").id "accounts_note_not_null") := by
      decide +kernel
    refine ⟨fun constraint hlookup => ?_, fun e he => hshown e he.1⟩
    rw [hdependent] at hlookup
    cases hlookup
    rfl
  refine ⟨?_, ?_, ?_, hcreated⟩
  · exact (((hnullability withAccounts (alterAccounts "note" false)).2 (by decide +kernel)).1).mpr
      (Or.inr hreads)
  · exact ((((hnullability withAccounts (alterAccounts "note" true)).2 (by decide +kernel)).2 rfl
      (by decide +kernel))).mpr (Or.inr hcreated)
  · exact (hadd withAccounts _ addPhoneToAccounts addPhone .applied rfl rfl (by decide +kernel)
      (Prod.ext (by decide +kernel) rfl)).mpr (Or.inl (by decide +kernel))

end Accounts

end SafeMigrate
