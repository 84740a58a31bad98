import SafeMigrate.NestedSnapshots

/-! Runs of control statements and covered writes. What a savepoint restores
does not depend on what happened while it stayed open, and a released savepoint
leaves no trace in any later run. -/

namespace SafeMigrate

open NestedUndo

def TransactionControl.endsTransaction : TransactionControl → Bool
  | .commit _ => true
  | .rollback _ => true
  | _ => false

/-- A statement that cannot end the open transaction. -/
inductive LiveStep (inferred : ObjectId → Bool) : AnalysisState → AnalysisState → Prop
  | write {s t : AnalysisState} (h : LoggedWrite s t) : LiveStep inferred s t
  | control (s : AnalysisState) {control : TransactionControl}
      (h : control.endsTransaction = false) :
      LiveStep inferred s (s.applyTransactionControl inferred control).2

/-- A run in which the outer `depth` frames stay open. -/
def LiveRun (inferred : ObjectId → Bool) (depth : Nat) : AnalysisState → AnalysisState → Prop :=
  Relation.ReflTransGen fun s t => LiveStep inferred s t ∧ depth ≤ t.transactions.length

/-- No frame inside the outer `depth` ones is a savepoint of that name. -/
def NoneInside (name : String) (depth : Nat) (s : AnalysisState) : Prop :=
  ∀ frame ∈ s.transactions.take (s.transactions.length - depth),
    isNamedSavepoint name frame.kind = false

/-- The statements that open a transaction, the chained ends among them. -/
def TransactionControl.opensTransaction : TransactionControl → Bool
  | .begin => true
  | .commit chain => chain
  | .rollback chain => chain
  | _ => false

/-- A commit that is not aborted also runs the on-commit actions. -/
def TransactionControl.runsOnCommit (aborted : Bool) : TransactionControl → Bool
  | .commit _ => !aborted
  | _ => false

theorem TransactionControl.onNested_congr {aborted : Bool} (control : TransactionControl)
    (h : control.runsOnCommit aborted = false) (after after' : LoggedState)
    (n : Nested TransactionFrameKind LoggedState) :
    control.onNested aborted after n = control.onNested aborted after' n := by
  cases control with
  | commit chain =>
    obtain rfl : aborted = true := by simpa [runsOnCommit] using h
    rfl
  | _ => rfl

variable {inferred : ObjectId → Bool}

theorem LiveStep.nested {s t : AnalysisState} (h : LiveStep inferred s t) :
    Nested.Step s.nested t.nested := by
  cases h with
  | write h =>
    rw [h.logged.nested]
    exact .write _ _
  | control hlive =>
    rename_i control
    by_cases happ : (s.applyTransactionControl inferred control).1 = .applied
    · have hn := AnalysisState.nested_applyTransactionControl (Prod.ext happ rfl)
      rw [hn]
      cases control with
      | begin => exact .save _ _
      | savepoint name => exact .save _ _
      | releaseSavepoint name => exact .release _ _
      | rollbackToSavepoint name => exact .rollbackTo _ _
      | commit chain => cases hlive
      | rollback chain => cases hlive
    · rw [(s.logged_of_not_applied inferred control happ).nested]
      exact .write _ _

theorem LiveRun.nested {depth : Nat} {s t : AnalysisState} (h : LiveRun inferred depth s t) :
    Nested.LiveRun depth s.nested t.nested :=
  Relation.ReflTransGen.lift AnalysisState.nested
    (fun _ b hstep => ⟨hstep.1.nested, b.nested_saved_length ▸ hstep.2⟩) s t h

theorem exists_inner_of_nested {depth : Nat} {s t : AnalysisState}
    (h : Nested.LiveRun depth s.nested t.nested) (hdepth : s.transactions.length = depth) :
    ∃ inner, t.nested.saved = inner ++ s.nested.saved := by
  subst hdepth
  rw [← s.nested_saved_length] at h
  exact h.exists_inner

theorem LiveRun.exists_inner {depth : Nat} {s t : AnalysisState} (h : LiveRun inferred depth s t)
    (hdepth : s.transactions.length = depth) :
    ∃ inner, t.nested.saved = inner ++ s.nested.saved := exists_inner_of_nested h.nested hdepth

theorem NoneInside.inner {name : String} {depth : Nat} {s t : AnalysisState}
    {inner : List (TransactionFrameKind × LoggedState)} (h : NoneInside name depth t)
    (hsaved : t.nested.saved = inner ++ s.nested.saved) (hdepth : s.transactions.length = depth) :
    ∀ x ∈ inner, isNamedSavepoint name x.1 = false := by
  intro x hx
  have hlen := congrArg List.length hsaved
  rw [List.length_append, t.nested_saved_length, s.nested_saved_length, hdepth] at hlen
  have hkinds : (t.transactions.take (t.transactions.length - depth)).map (·.kind) =
      inner.map Prod.fst := by
    rw [List.map_take, ← t.nested_saved_kinds, hsaved, List.map_append,
      show t.transactions.length - depth = (inner.map Prod.fst).length by simp [hlen]]
    exact List.take_left
  have hmem : x.1 ∈ inner.map Prod.fst := List.mem_map_of_mem hx
  rw [← hkinds] at hmem
  obtain ⟨frame, hframe, hkind⟩ := List.mem_map.mp hmem
  exact hkind ▸ h frame hframe

namespace AnalysisState

theorem dropWhile_kinds (s : AnalysisState) (wanted : TransactionFrameKind → Bool) :
    (s.transactions.dropWhile fun f => !wanted f.kind).map (·.kind) =
      (s.transactions.map (·.kind)).dropWhile fun k => !wanted k := by
  rw [List.dropWhile_map]
  rfl

theorem apply_of_inner_applied {s : AnalysisState} {control : TransactionControl}
    (hgate : s.transactionAborted = false ∨ runsWhenAborted control = true)
    (h : (s.applyTransactionInner inferred control).1 = .applied) :
    (s.applyTransactionControl inferred control).1 = .applied := by
  rcases s.applyTransactionControl_cases inferred control with ⟨ha, hr, -⟩ | ⟨-, hfst, -⟩
  · rcases hgate with hg | hg
    · rw [ha] at hg
      cases hg
    · rw [hr] at hg
      cases hg
  · exact hfst.trans h

theorem rollbackTo_applied {s : AnalysisState} {name : String}
    (h : ∃ kind ∈ s.transactions.map (·.kind), isNamedSavepoint name kind = true) :
    (s.applyTransactionControl inferred (.rollbackToSavepoint name)).1 = .applied := by
  refine apply_of_inner_applied (Or.inr rfl) ?_
  simp only [applyTransactionInner, applyRollbackToSavepoint]
  split
  · next hnone =>
    obtain ⟨kind, hkind, hnamed⟩ := h
    obtain ⟨frame, hframe, rfl⟩ := List.mem_map.mp hkind
    have hall := List.dropWhile_eq_nil_iff.mp hnone frame hframe
    simp [hnamed] at hall
  · rfl

theorem release_applied (inferred : ObjectId → Bool) {s : AnalysisState} {name : String} {kind next : TransactionFrameKind}
    {rest : List TransactionFrameKind} (hlive : s.transactionAborted = false)
    (h : (s.transactions.map (·.kind)).dropWhile (fun k => !isNamedSavepoint name k) =
      kind :: next :: rest) :
    (s.applyTransactionControl inferred (.releaseSavepoint name)).1 = .applied := by
  refine apply_of_inner_applied (Or.inl hlive) ?_
  simp only [applyTransactionInner, applyReleaseSavepoint]
  rw [← s.dropWhile_kinds] at h
  split
  · next hnil => simp [hnil] at h
  · next hone => simp [hone] at h
  · rfl

theorem rollback_applied (inferred : ObjectId → Bool) {s : AnalysisState} (chain : Bool) (h : s.transactions ≠ []) :
    (s.applyTransactionControl inferred (.rollback chain)).1 = .applied := by
  refine apply_of_inner_applied (Or.inr rfl) ?_
  simp [applyTransactionInner, applyRollbackTransaction, h]

theorem commit_applied (inferred : ObjectId → Bool) {s : AnalysisState} (chain : Bool) (h : s.transactions ≠ []) :
    (s.applyTransactionControl inferred (.commit chain)).1 = .applied := by
  refine apply_of_inner_applied (Or.inr rfl) ?_
  simp [applyTransactionInner, applyCommitTransaction, h]

@[simp] theorem pushUndo_transactionAborted (s : AnalysisState) (change : StateChange) :
    (s.pushUndo change).transactionAborted = s.transactionAborted := by
  unfold pushUndo
  split <;> rfl

@[simp] theorem markTainted_transactionAborted (s : AnalysisState) :
    s.markTainted.transactionAborted = s.transactionAborted := by
  unfold markTainted
  split
  · rfl
  · exact s.pushUndo_transactionAborted _

@[simp] theorem taint_transactionAborted (s : AnalysisState) (code : EvidenceCode)
    (scope : EvidenceScope) : (s.taint code scope).transactionAborted = s.transactionAborted := by
  simp only [taint, recordEvidence]
  split
  · rfl
  · change s.snapshotEvidence.markTainted.transactionAborted = _
    rw [markTainted_transactionAborted]
    exact s.pushUndo_transactionAborted _

theorem logged_markTainted_eq (s : AnalysisState) :
    s.markTainted.logged = { s.logged with confidence := .tainted } := by
  unfold markTainted
  split
  · next htainted =>
    rw [← htainted]
    rfl
  · rw [← s.logged_pushUndo (.confidenceSnapshot s.confidence)]
    rfl

theorem logged_record_eq (s : AnalysisState) (record : EvidenceRecord) :
    (s.snapshotEvidence.markTainted.setEvidence
      (s.snapshotEvidence.markTainted.evidence.insert record)).logged =
    { s.logged with confidence := .tainted, evidence := s.logged.evidence.insert record } := by
  have hmark : s.snapshotEvidence.markTainted.logged = { s.logged with confidence := .tainted } := by
    rw [logged_markTainted_eq, show s.snapshotEvidence.logged = s.logged from s.logged_pushUndo _]
  have hevidence : s.snapshotEvidence.markTainted.evidence = s.logged.evidence :=
    congrArg LoggedState.evidence hmark
  rw [hevidence]
  exact congrArg (fun v : LoggedState => { v with evidence := s.logged.evidence.insert record }) hmark

/-- The evidence of a refused statement depends on what was recorded before
and on the place of the statement. -/
theorem logged_taint_congr {r w : AnalysisState} (hlogged : r.logged = w.logged)
    (hlocation : r.currentEvidenceLocation = w.currentEvidenceLocation) (code : EvidenceCode)
    (scope : EvidenceScope) : (r.taint code scope).logged = (w.taint code scope).logged := by
  have hevidence : r.evidence = w.evidence := congrArg LoggedState.evidence hlogged
  simp only [taint, recordEvidence, hlocation, hevidence]
  split
  · exact hlogged
  · rw [logged_record_eq, logged_record_eq, hlogged]

theorem isEmpty_congr {r w : AnalysisState} (h : r.nested = w.nested) :
    r.transactions.isEmpty = w.transactions.isEmpty := by
  have hlen : r.transactions.length = w.transactions.length := by
    rw [← r.nested_saved_length, h, w.nested_saved_length]
  cases hr : r.transactions <;> cases hw : w.transactions <;> simp [hr, hw] at hlen ⊢

theorem dropWhile_congr {r w : AnalysisState} (h : r.nested = w.nested)
    (wanted : TransactionFrameKind → Bool) :
    (r.transactions.dropWhile fun f => !wanted f.kind).length =
      (w.transactions.dropWhile fun f => !wanted f.kind).length := by
  have hkinds := congrArg List.length (r.dropWhile_kinds wanted)
  rw [← r.nested_saved_kinds, h, w.nested_saved_kinds, ← w.dropWhile_kinds] at hkinds
  simpa using hkinds

/-- What two states that stand for the same snapshots do on one statement. -/
structure SameOutcome (x y : MutationResult × AnalysisState) : Prop where
  result : x.1 = y.1
  aborted : x.2.transactionAborted = y.2.transactionAborted
  logged : x.1 ≠ .applied → x.2.logged = y.2.logged

theorem SameOutcome.of_applied {x y : MutationResult × AnalysisState} (hx : x.1 = .applied)
    (hy : y.1 = .applied) (h : x.2.transactionAborted = y.2.transactionAborted) :
    SameOutcome x y :=
  ⟨hx.trans hy.symm, h, fun hne => absurd hx hne⟩

section Lockstep

variable {r w : AnalysisState} (hnested : r.nested = w.nested)
  (haborted : r.transactionAborted = w.transactionAborted)
  (hlocation : r.currentEvidenceLocation = w.currentEvidenceLocation)

include hnested haborted hlocation

theorem sameOutcome_taint (result : MutationResult) :
    SameOutcome (result, r.taint .transactionStateUnknown .chain)
      (result, w.taint .transactionStateUnknown .chain) where
  result := rfl
  aborted := by simpa using haborted
  logged _ := logged_taint_congr (congrArg Nested.current hnested) hlocation _ _

theorem sameOutcome_unknownSavepoint (name : String) :
    SameOutcome (r.unknownSavepoint name) (w.unknownSavepoint name) := by
  have hsame := sameOutcome_taint hnested haborted hlocation .noOp
  have hopen : (r.taint .transactionStateUnknown .chain).transactions.isEmpty =
      (w.taint .transactionStateUnknown .chain).transactions.isEmpty := by
    apply isEmpty_congr
    rw [(r.logged_taint _ _).nested, (w.logged_taint _ _).nested, hnested,
      hsame.logged (by simp)]
  refine ⟨rfl, ?_, fun _ => ?_⟩
  · simp only [unknownSavepoint, hopen]
    split
    · exact hsame.aborted
    · rfl
  · simp only [unknownSavepoint, hopen]
    split <;> exact hsame.logged (by simp)

theorem sameOutcome_release (name : String) :
    SameOutcome (r.applyReleaseSavepoint name) (w.applyReleaseSavepoint name) := by
  have hlen := dropWhile_congr hnested (isNamedSavepoint name)
  unfold applyReleaseSavepoint
  rcases hr : r.transactions.dropWhile _ with _ | ⟨f, _ | ⟨g, rest⟩⟩ <;>
    rcases hw : w.transactions.dropWhile _ with _ | ⟨f', _ | ⟨g', rest'⟩⟩ <;>
    simp only [hr, hw, List.length_cons, List.length_nil] at hlen
  case nil.nil => exact sameOutcome_unknownSavepoint hnested haborted hlocation name
  case cons.nil.cons.nil => exact sameOutcome_taint hnested haborted hlocation _
  case cons.cons.cons.cons => exact SameOutcome.of_applied rfl rfl haborted
  all_goals omega

theorem sameOutcome_rollbackTo (name : String) :
    SameOutcome (r.applyRollbackToSavepoint name) (w.applyRollbackToSavepoint name) := by
  have hlen := dropWhile_congr hnested (isNamedSavepoint name)
  unfold applyRollbackToSavepoint
  rcases hr : r.transactions.dropWhile _ with _ | ⟨f, outer⟩ <;>
    rcases hw : w.transactions.dropWhile _ with _ | ⟨f', outer'⟩ <;>
    simp only [hr, hw, List.length_cons, List.length_nil] at hlen
  case nil.nil => exact sameOutcome_unknownSavepoint hnested haborted hlocation name
  case cons.cons => exact SameOutcome.of_applied rfl rfl rfl
  all_goals omega

theorem sameOutcome_inner (control : TransactionControl) :
    SameOutcome (r.applyTransactionInner inferred control)
      (w.applyTransactionInner inferred control) := by
  have hopen := isEmpty_congr hnested
  cases control with
  | begin =>
    simp only [applyTransactionInner, applyBeginTransaction]
    cases hr : r.transactions <;> cases hw : w.transactions <;> simp [hr, hw] at hopen
    case nil.nil => exact SameOutcome.of_applied rfl rfl haborted
    case cons.cons => exact ⟨rfl, haborted, fun _ => congrArg Nested.current hnested⟩
  | commit chain =>
    simp only [applyTransactionInner, applyCommitTransaction, hopen]
    split
    · exact sameOutcome_taint hnested haborted hlocation _
    · exact SameOutcome.of_applied rfl rfl (by cases chain <;> rfl)
  | rollback chain =>
    simp only [applyTransactionInner, applyRollbackTransaction, hopen]
    split
    · exact sameOutcome_taint hnested haborted hlocation _
    · exact SameOutcome.of_applied rfl rfl (by cases chain <;> rfl)
  | savepoint name =>
    simp only [applyTransactionInner, applySavepoint, hopen]
    split
    · exact sameOutcome_taint hnested haborted hlocation _
    · exact SameOutcome.of_applied rfl rfl haborted
  | releaseSavepoint name => exact sameOutcome_release hnested haborted hlocation name
  | rollbackToSavepoint name => exact sameOutcome_rollbackTo hnested haborted hlocation name

theorem nested_inner_congr {control : TransactionControl}
    (hcommit : control.runsOnCommit r.transactionAborted = false) :
    (r.applyTransactionInner inferred control).2.nested =
      (w.applyTransactionInner inferred control).2.nested := by
  have hsame := @sameOutcome_inner inferred r w hnested haborted hlocation control
  by_cases happ : (r.applyTransactionInner inferred control).1 = .applied
  · rw [nested_applyTransactionInner (Prod.ext happ rfl),
      nested_applyTransactionInner (Prod.ext (hsame.result ▸ happ) rfl), hnested, ← haborted]
    exact control.onNested_congr hcommit _ _ _
  · have hr := (r.applyTransactionInner_spec inferred control).resolve_left happ
    have hw := (w.applyTransactionInner_spec inferred control).resolve_left (hsame.result ▸ happ)
    rw [hr.nested, hw.nested, hnested, hsame.logged happ]

theorem sameOutcome_apply {control : TransactionControl}
    (hcommit : control.runsOnCommit r.transactionAborted = false) :
    (r.applyTransactionControl inferred control).1 =
        (w.applyTransactionControl inferred control).1 ∧
      (r.applyTransactionControl inferred control).2.nested =
        (w.applyTransactionControl inferred control).2.nested ∧
      (r.applyTransactionControl inferred control).2.transactionAborted =
        (w.applyTransactionControl inferred control).2.transactionAborted := by
  have hsame := @sameOutcome_inner inferred r w hnested haborted hlocation control
  have hinner := @nested_inner_congr inferred r w hnested haborted hlocation control hcommit
  unfold applyTransactionControl
  rw [← haborted]
  split
  · exact ⟨rfl, hnested, haborted⟩
  · generalize r.applyTransactionInner inferred control = x at hsame hinner ⊢
    generalize w.applyTransactionInner inferred control = y at hsame hinner ⊢
    obtain ⟨result, s⟩ := x
    obtain ⟨_, t⟩ := y
    obtain rfl : result = _ := hsame.result
    cases result with
    | conflict kind =>
      refine ⟨rfl, ?_, ?_⟩
      · simp only [isEmpty_congr hinner]
        split <;> exact hinner
      · simp only [isEmpty_congr hinner]
        split
        · exact hsame.aborted
        · rfl
    | _ => exact ⟨rfl, hinner, hsame.aborted⟩

end Lockstep

end AnalysisState

/-- Two runs that execute the same control statements at the same places and
whose writes leave the same logged fields. -/
inductive Lockstep (inferred : ObjectId → Bool) (r w : AnalysisState) :
    AnalysisState → AnalysisState → Prop
  | refl : Lockstep inferred r w r w
  | write {s s' t t' : AnalysisState} (hrun : Lockstep inferred r w s s') (h : LoggedWrite s t)
      (h' : LoggedWrite s' t') (hlogged : t.logged = t'.logged)
      (haborted : t.transactionAborted = t'.transactionAborted) : Lockstep inferred r w t t'
  | control {s s' : AnalysisState} (control : TransactionControl) (hrun : Lockstep inferred r w s s')
      (hplace : s.currentEvidenceLocation = s'.currentEvidenceLocation)
      (hcommit : control.runsOnCommit s.transactionAborted = false) :
      Lockstep inferred r w (s.applyTransactionControl inferred control).2
        (s'.applyTransactionControl inferred control).2

/-- States that stand for the same snapshots cannot be told apart by any run
that follows. -/
theorem Lockstep.nested {r w s t : AnalysisState} (h : Lockstep inferred r w s t)
    (hnested : r.nested = w.nested) (haborted : r.transactionAborted = w.transactionAborted) :
    s.nested = t.nested ∧ s.transactionAborted = t.transactionAborted := by
  induction h with
  | refl => exact ⟨hnested, haborted⟩
  | write hrun h h' hlogged hsame ih =>
    refine ⟨?_, hsame⟩
    rw [h.logged.nested, h'.logged.nested, ih.1, hlogged]
  | control control hrun hplace hcommit ih =>
    exact (AnalysisState.sameOutcome_apply ih.1 ih.2 hplace hcommit).2

namespace AnalysisState

theorem nested_savepoint {s t : AnalysisState} {name : String}
    (h : s.applyTransactionControl inferred (.savepoint name) = (.applied, t)) :
    t.nested = s.nested.save (.savepoint name) ∧ t.transactionAborted = false ∧
      s.transactions ≠ [] ∧ t.transactions.length = s.transactions.length + 1 := by
  have hn : t.nested = s.nested.save (.savepoint name) := nested_applyTransactionControl h
  have hlen : t.transactions.length = s.transactions.length + 1 := by
    rw [← t.nested_saved_length, hn, ← s.nested_saved_length]
    rfl
  rcases s.applyTransactionControl_cases inferred (.savepoint name) with
    ⟨-, -, hrefused⟩ | ⟨hgate, hfst, hsnd⟩
  · rw [hrefused] at h
    cases h
  · have hlive : s.transactionAborted = false := by
      simpa [runsWhenAborted] using hgate
    rw [h] at hfst hsnd
    have hopen : s.transactions ≠ [] := by
      intro hnone
      simp [applyTransactionInner, applySavepoint, hnone, MutationResult.rejected] at hfst
    have hinner : s.applyTransactionInner inferred (.savepoint name) =
        (.applied, s.setTransactions (savepointFrame name :: s.transactions)) := by
      simp [applyTransactionInner, applySavepoint, hopen]
    refine ⟨hn, ?_, hopen, hlen⟩
    rcases hsnd with hsnd | ⟨⟨kind, hkind⟩, -⟩
    · rw [show t = _ from hsnd, hinner]
      exact hlive
    · rw [hinner] at hkind
      cases hkind

theorem logged_congr {s t : AnalysisState} (h : s.nested = t.nested) : s.logged = t.logged :=
  congrArg Nested.current h

/-- A statement that opens a transaction saves the state it leaves. -/
theorem nested_opensTransaction {s t : AnalysisState} {control : TransactionControl}
    (hopens : control.opensTransaction = true)
    (h : s.applyTransactionControl inferred control = (.applied, t))
    (hbegin : control = .begin → s.transactions = []) :
    t.nested.saved = [(.root, t.logged)] := by
  have hn := nested_applyTransactionControl h
  have hcurrent : t.nested.current = t.logged := rfl
  cases control with
  | begin =>
    rw [hn] at hcurrent ⊢
    rw [nested_of_no_frames (hbegin rfl)] at hcurrent ⊢
    exact congrArg (fun v => [(TransactionFrameKind.root, v)]) hcurrent
  | commit chain =>
    obtain rfl : chain = true := hopens
    cases ha : s.transactionAborted with
    | true =>
      rw [hn, ha] at hcurrent ⊢
      exact congrArg (fun v => [(TransactionFrameKind.root, v)]) hcurrent
    | false =>
      rw [hn, ha]
      rfl
  | rollback chain =>
    obtain rfl : chain = true := hopens
    rw [hn] at hcurrent ⊢
    exact congrArg (fun v => [(TransactionFrameKind.root, v)]) hcurrent
  | savepoint name => cases hopens
  | releaseSavepoint name => cases hopens
  | rollbackToSavepoint name => cases hopens

theorem begin_without_frames {s t : AnalysisState}
    (h : s.applyTransactionControl inferred .begin = (.applied, t)) : s.transactions = [] := by
  rcases s.applyTransactionControl_cases inferred .begin with ⟨-, -, hrefused⟩ | ⟨-, hfst, -⟩
  · rw [hrefused] at h
    cases h
  · rw [h] at hfst
    simp only [applyTransactionInner, applyBeginTransaction] at hfst
    split at hfst
    · assumption
    · cases hfst

theorem transactions_ne_nil {s : AnalysisState} (h : s.nested.saved ≠ []) :
    s.transactions ≠ [] := by
  intro hnone
  rw [nested_of_no_frames hnone] at h
  exact h rfl

end AnalysisState

section Runs

open AnalysisState

variable {s s₁ u : AnalysisState} {name : String}

theorem rollbackToSavepoint_of_nested
    (hset : s.applyTransactionControl inferred (.savepoint name) = (.applied, s₁))
    (hrun : Nested.LiveRun (s.transactions.length + 1) s₁.nested u.nested)
    (hnone : NoneInside name (s.transactions.length + 1) u) :
    ∃ t, u.applyTransactionControl inferred (.rollbackToSavepoint name) = (.applied, t) ∧
      t.nested = s₁.nested := by
  obtain ⟨hn, -, -, hlen⟩ := nested_savepoint hset
  obtain ⟨inner, hsaved⟩ := exists_inner_of_nested hrun hlen
  have hkinds : u.transactions.map (·.kind) =
      inner.map Prod.fst ++ .savepoint name :: s.transactions.map (·.kind) := by
    rw [← u.nested_saved_kinds, hsaved, hn, List.map_append, ← s.nested_saved_kinds]
    rfl
  have happ : (u.applyTransactionControl inferred (.rollbackToSavepoint name)).1 = .applied :=
    rollbackTo_applied ⟨.savepoint name, by simp [hkinds], by simp [isNamedSavepoint]⟩
  refine ⟨_, Prod.ext happ rfl, ?_⟩
  rw [nested_applyTransactionControl (Prod.ext happ rfl), hn]
  rw [hn] at hsaved
  exact Nested.rollbackTo_inner hsaved (by simp [isNamedSavepoint])
    (hnone.inner (hsaved.trans (by rw [hn])) hlen)

theorem rollbackToSavepoint_of_live
    (hset : s.applyTransactionControl inferred (.savepoint name) = (.applied, s₁))
    (hrun : LiveRun inferred (s.transactions.length + 1) s₁ u)
    (hnone : NoneInside name (s.transactions.length + 1) u) :
    ∃ t, u.applyTransactionControl inferred (.rollbackToSavepoint name) = (.applied, t) ∧
      t.nested = s₁.nested := rollbackToSavepoint_of_nested hset hrun.nested hnone

theorem releaseSavepoint_of_live
    (hset : s.applyTransactionControl inferred (.savepoint name) = (.applied, s₁))
    (hrun : LiveRun inferred (s.transactions.length + 1) s₁ u)
    (hnone : NoneInside name (s.transactions.length + 1) u) (hlive : u.transactionAborted = false) :
    ∃ t, u.applyTransactionControl inferred (.releaseSavepoint name) = (.applied, t) ∧
      t.nested = s.nested.write u.logged := by
  obtain ⟨hn, -, hopen, hlen⟩ := nested_savepoint hset
  obtain ⟨inner, hsaved⟩ := hrun.exists_inner hlen
  have hinner := hnone.inner hsaved hlen
  rw [hn] at hsaved
  have hkinds : (u.transactions.map (·.kind)).dropWhile (fun k => !isNamedSavepoint name k) =
      .savepoint name :: s.transactions.map (·.kind) := by
    rw [← u.nested_saved_kinds, List.dropWhile_map]
    change List.map Prod.fst (u.nested.saved.dropWhile fun x => !isNamedSavepoint name x.1) = _
    rw [hsaved, Nested.dropWhile_inner hinner, ← s.nested_saved_kinds]
    simp [Nested.save, isNamedSavepoint]
  obtain ⟨frame, outer, hframes⟩ := List.exists_cons_of_ne_nil hopen
  rw [hframes] at hkinds
  have happ := release_applied inferred hlive hkinds
  refine ⟨_, Prod.ext happ rfl, ?_⟩
  rw [nested_applyTransactionControl (Prod.ext happ rfl)]
  exact Nested.release_inner hsaved (by simp [isNamedSavepoint]) hinner

theorem rollbackToOuter_of_live (hrun : LiveRun inferred s.transactions.length s u)
    (hnone : NoneInside name s.transactions.length u)
    (houter : ∃ frame ∈ s.transactions, isNamedSavepoint name frame.kind = true) :
    ∃ t, u.applyTransactionControl inferred (.rollbackToSavepoint name) = (.applied, t) ∧
      t.nested = s.nested.rollbackTo (isNamedSavepoint name) := by
  obtain ⟨inner, hsaved⟩ := hrun.exists_inner rfl
  obtain ⟨frame, hframe, hnamed⟩ := houter
  have hkind : frame.kind ∈ s.nested.saved.map Prod.fst := by
    rw [s.nested_saved_kinds]
    exact List.mem_map_of_mem hframe
  have happ : (u.applyTransactionControl inferred (.rollbackToSavepoint name)).1 = .applied := by
    refine rollbackTo_applied ⟨frame.kind, ?_, hnamed⟩
    rw [← u.nested_saved_kinds, hsaved, List.map_append]
    exact List.mem_append_right _ hkind
  obtain ⟨x, hx, hxk⟩ := List.mem_map.mp hkind
  refine ⟨_, Prod.ext happ rfl, ?_⟩
  rw [nested_applyTransactionControl (Prod.ext happ rfl)]
  exact Nested.rollbackTo_outer hsaved (hnone.inner hsaved rfl) ⟨x, hx, hxk ▸ hnamed⟩

theorem rollback_of_nested (inferred : ObjectId → Bool)
    (hrun : Nested.LiveRun s.transactions.length s.nested u.nested)
    (hopen : s.transactions ≠ []) (chain : Bool) :
    ∃ t, u.applyTransactionControl inferred (.rollback chain) = (.applied, t) ∧
      t.logged = s.nested.rollback.current := by
  obtain ⟨inner, hsaved⟩ := exists_inner_of_nested hrun rfl
  have hne : s.nested.saved ≠ [] := by
    rw [← List.length_pos_iff, s.nested_saved_length]
    exact List.length_pos_iff.mpr hopen
  have happ := rollback_applied inferred chain
    (transactions_ne_nil (s := u) (by simp [hsaved, hne]))
  refine ⟨_, Prod.ext happ rfl, ?_⟩
  have hn := nested_applyTransactionControl (Prod.ext happ rfl)
  rw [TransactionControl.onNested, Nested.rollback_outer hsaved hne] at hn
  have hcurrent := congrArg Nested.current hn
  cases chain <;> exact hcurrent

theorem rollback_of_live (hrun : LiveRun inferred s.transactions.length s u)
    (hopen : s.transactions ≠ []) (chain : Bool) :
    ∃ t, u.applyTransactionControl inferred (.rollback chain) = (.applied, t) ∧
      t.logged = s.nested.rollback.current := rollback_of_nested inferred hrun.nested hopen chain

theorem abortedCommit_of_live (hrun : LiveRun inferred s.transactions.length s u)
    (hopen : s.transactions ≠ []) (habort : u.transactionAborted = true) (chain : Bool) :
    ∃ t, u.applyTransactionControl inferred (.commit chain) = (.applied, t) ∧
      t.logged = s.nested.rollback.current := by
  obtain ⟨inner, hsaved⟩ := hrun.exists_inner rfl
  have hne : s.nested.saved ≠ [] := by
    rw [← List.length_pos_iff, s.nested_saved_length]
    exact List.length_pos_iff.mpr hopen
  have happ := commit_applied inferred chain
    (transactions_ne_nil (s := u) (by simp [hsaved, hne]))
  refine ⟨_, Prod.ext happ rfl, ?_⟩
  have hn := nested_applyTransactionControl (Prod.ext happ rfl)
  rw [TransactionControl.onNested, habort, if_pos rfl, Nested.rollback_outer hsaved hne] at hn
  have hcurrent := congrArg Nested.current hn
  cases chain <;> exact hcurrent

end Runs

open AnalysisState in
/-- Transaction control is a machine of nested snapshots: the statements act on
the snapshots alone, and each way back restores what was saved. -/
theorem transactionControl_restores_snapshots (inferred : ObjectId → Bool) (s : AnalysisState) :
    (∀ control t, s.applyTransactionControl inferred control = (.applied, t) →
      t.nested = control.onNested s.transactionAborted t.logged s.nested) ∧
    (∀ control t, s.applyTransactionControl inferred control = t → t.1 ≠ .applied →
      t.2.nested = s.nested.write t.2.logged) ∧
    (∀ t, LoggedWrite s t → t.nested = s.nested.write t.logged) ∧
    (∀ name s₁ u, s.applyTransactionControl inferred (.savepoint name) = (.applied, s₁) →
      LiveRun inferred (s.transactions.length + 1) s₁ u →
      NoneInside name (s.transactions.length + 1) u →
      (∃ t, u.applyTransactionControl inferred (.rollbackToSavepoint name) = (.applied, t) ∧
        t.logged = s₁.logged ∧ t.nested = s₁.nested) ∧
      (u.transactionAborted = false →
        ∃ t, u.applyTransactionControl inferred (.releaseSavepoint name) = (.applied, t) ∧
          t.logged = u.logged ∧ t.nested = s.nested.write u.logged ∧
          ∀ w, LiveRun inferred s.transactions.length s w →
            w.transactions.length = s.transactions.length → w.logged = u.logged →
            w.transactionAborted = t.transactionAborted →
            ∀ t' w', Lockstep inferred t w t' w' → t'.nested = w'.nested)) ∧
    (∀ control s₁ u, control.opensTransaction = true →
      s.applyTransactionControl inferred control = (.applied, s₁) → LiveRun inferred 1 s₁ u →
      (∀ chain, ∃ t, u.applyTransactionControl inferred (.rollback chain) = (.applied, t) ∧
        t.logged = s₁.logged) ∧
      (u.transactionAborted = true → ∀ chain,
        ∃ t, u.applyTransactionControl inferred (.commit chain) = (.applied, t) ∧
          t.logged = s₁.logged)) ∧
    (∀ u, LiveRun inferred s.transactions.length s u →
      (∀ name, (∃ frame ∈ s.transactions, isNamedSavepoint name frame.kind = true) →
        NoneInside name s.transactions.length u →
        ∃ t, u.applyTransactionControl inferred (.rollbackToSavepoint name) = (.applied, t) ∧
          t.nested = s.nested.rollbackTo (isNamedSavepoint name)) ∧
      (s.transactions ≠ [] → ∀ chain,
        ∃ t, u.applyTransactionControl inferred (.rollback chain) = (.applied, t) ∧
          t.logged = s.nested.rollback.current)) := by
  refine ⟨fun control t h => nested_applyTransactionControl h, ?_, fun t h => h.logged.nested,
    ?_, ?_, ?_⟩
  · rintro control t rfl h
    exact (s.logged_of_not_applied inferred control h).nested
  · intro name s₁ u hset hrun hnone
    refine ⟨?_, fun hlive => ?_⟩
    · obtain ⟨t, happ, hn⟩ := rollbackToSavepoint_of_live hset hrun hnone
      exact ⟨t, happ, logged_congr hn, hn⟩
    · obtain ⟨t, happ, hn⟩ := releaseSavepoint_of_live hset hrun hnone hlive
      refine ⟨t, happ, congrArg Nested.current hn, hn, ?_⟩
      intro w hw hlen hlogged habort t' w' hsteps
      obtain ⟨inner, hsaved⟩ := hw.exists_inner rfl
      have hinner : inner = [] := by
        have hcount := congrArg List.length hsaved
        rw [List.length_append, w.nested_saved_length, s.nested_saved_length] at hcount
        exact List.length_eq_zero_iff.mp (by omega)
      have hw' : w.nested = s.nested.write u.logged := by
        rw [hinner, List.nil_append] at hsaved
        rw [← hlogged]
        simp only [Nested.write, ← hsaved]
        rfl
      exact (hsteps.nested (hn.trans hw'.symm) habort.symm).1
  · intro control s₁ u hopens hopen hrun
    have hsaved := nested_opensTransaction hopens hopen fun hc => begin_without_frames (hc ▸ hopen)
    have hone : s₁.transactions.length = 1 := by
      rw [← s₁.nested_saved_length, hsaved]
      rfl
    have hne : s₁.transactions ≠ [] := by
      rw [← List.length_pos_iff]
      omega
    have hcurrent : s₁.nested.rollback.current = s₁.logged := by
      simp [Nested.rollback, hsaved]
    rw [← hone] at hrun
    exact ⟨fun chain => hcurrent ▸ rollback_of_live hrun hne chain,
      fun habort chain => hcurrent ▸ abortedCommit_of_live hrun hne habort chain⟩
  · intro u hrun
    exact ⟨fun name houter hnone => rollbackToOuter_of_live hrun hnone houter,
      fun hopen chain => rollback_of_live hrun hopen chain⟩

def openTransaction : AnalysisState := { transactions := [rootFrame] }

theorem transactionControl_restores_counter :
    ∃ t, AnalysisState.applyTransactionControl (fun _ => false)
        (((openTransaction.applyTransactionControl (fun _ => false) (.savepoint "a")).2
          ).snapshotGenerationCounter.setGenerationCounter 7) (.rollbackToSavepoint "a") =
          (.applied, t) ∧ t.generationCounter = 0 := by
  have hset : openTransaction.applyTransactionControl (fun _ => false) (.savepoint "a") =
      (.applied, (openTransaction.applyTransactionControl (fun _ => false) (.savepoint "a")).2) :=
    rfl
  generalize hs₁ : (openTransaction.applyTransactionControl (fun _ => false) (.savepoint "a")).2 =
    s₁ at hset
  have hwrite : LoggedWrite s₁ (s₁.snapshotGenerationCounter.setGenerationCounter 7) := by
    refine ⟨[.generationCounterSnapshot s₁.generationCounter], ?_, ?_, ?_⟩
    · intro change hchange
      rw [List.mem_singleton.mp hchange]
      exact .generationCounter
    · exact s₁.pushUndo_transactions _
    · rw [← s₁.logged_pushUndo (.generationCounterSnapshot s₁.generationCounter)]
      exact { AgreeOutside.refl _ _ with
        generationCounter := fun h => absurd (by simp [StateChange.cell]) h }
  obtain ⟨⟨t, happ, hlogged, -⟩, -⟩ :=
    (transactionControl_restores_snapshots (fun _ => false) openTransaction).2.2.2.1 "a" s₁ _ hset
      (.single ⟨.write hwrite, by subst hs₁; decide⟩)
      (by subst hs₁; unfold NoneInside; decide)
  refine ⟨t, happ, ?_⟩
  have hcounter : t.generationCounter = s₁.generationCounter :=
    congrArg LoggedState.generationCounter hlogged
  rw [hcounter, ← hs₁]
  rfl

end SafeMigrate
