import SafeMigrate.NestedSnapshots
import SafeMigrate.DropFrames

/-! What happens to the evidence log alone: operations only add records and
push the log they found, and the end of a transaction unwinds what they pushed. -/

namespace SafeMigrate

open Command NestedUndo

/-- What an undo entry does to the evidence log. -/
def undoEvidence : StateChange → EvidenceLog → EvidenceLog
  | .evidenceSnapshot previous, _ => previous
  | _, log => log

theorem restore_evidence (change : StateChange) (v : LoggedState) :
    (restore change v).evidence = undoEvidence change v.evidence := by
  cases change <;> rfl

theorem replay_evidence (entries : List StateChange) (v : LoggedState) :
    (replay restore entries v).evidence = replay undoEvidence entries v.evidence := by
  induction entries with
  | nil => rfl
  | cons change entries ih =>
    change (restore change (replay restore entries v)).evidence = _
    rw [restore_evidence, ih]
    rfl

theorem unwind_evidence (frames : List TransactionFrame) (v : LoggedState) :
    (unwind restore frames v).evidence = unwind undoEvidence frames v.evidence := by
  induction frames generalizing v with
  | nil => rfl
  | cons frame frames ih =>
    rw [unwind_cons, unwind_cons, ih, replay_evidence]

namespace EvidenceLog

theorem mem_insert (log : EvidenceLog) (record r : EvidenceRecord) :
    r ∈ (log.insert record).records ↔ r = record ∨ r ∈ log.records := by
  unfold insert
  by_cases h : record ∈ log.records
  · rw [if_pos h]
    exact ⟨Or.inr, fun hr => hr.elim (fun he => he ▸ h) id⟩
  · rw [if_neg h]
    simp [List.mem_insertionSort, or_comm]

end EvidenceLog

namespace AnalysisState

theorem rollbackUndoLog_evidence (s : AnalysisState) (log : List StateChange) :
    (s.rollbackUndoLog log).evidence = replay undoEvidence log s.evidence := by
  have h := congrArg LoggedState.evidence (logged_rollbackUndoLog s log)
  rw [replay_evidence] at h
  exact h

theorem rollbackFrames_evidence (s : AnalysisState) (frames : List TransactionFrame) :
    (s.rollbackFrames frames).evidence = unwind undoEvidence frames s.evidence := by
  have h := congrArg LoggedState.evidence (logged_rollbackFrames s frames)
  rw [unwind_evidence] at h
  exact h

@[simp] theorem pushUndo_evidence (s : AnalysisState) (change : StateChange) :
    (s.pushUndo change).evidence = s.evidence := by
  unfold pushUndo
  split <;> rfl

theorem mem_evidence_recordEvidence (s : AnalysisState) (record r : EvidenceRecord)
    (h : r ∈ s.evidence.records) : r ∈ (s.recordEvidence record).evidence.records := by
  unfold recordEvidence
  dsimp only
  split
  · exact h
  · have hsame : s.snapshotEvidence.markTainted.evidence = s.evidence := by
      unfold markTainted
      split
      · exact s.pushUndo_evidence _
      · exact (pushUndo_evidence _ _).trans (s.pushUndo_evidence _)
    change r ∈ (s.snapshotEvidence.markTainted.evidence.insert _).records
    rw [EvidenceLog.mem_insert, hsame]
    exact Or.inr h

end AnalysisState

/-- The records only grow, and the entries pushed on the way give the log
back. Nothing is said of the other fields. -/
structure EvidenceGrows (s t : AnalysisState) : Prop where
  covered : ∃ entries, t.transactions = appendUndo entries s.transactions ∧
    replay undoEvidence entries t.evidence = s.evidence
  records : s.evidence.records ⊆ t.evidence.records

namespace EvidenceGrows

variable {s t u : AnalysisState}

theorem of_eq (hframes : t.transactions = s.transactions) (hevidence : t.evidence = s.evidence) :
    EvidenceGrows s t where
  covered := ⟨[], by simp [hframes], hevidence⟩
  records := by rw [hevidence]; exact List.Subset.refl _

theorem trans (h : EvidenceGrows s t) (h' : EvidenceGrows t u) : EvidenceGrows s u where
  covered := by
    obtain ⟨es, hf, hr⟩ := h.covered
    obtain ⟨es', hf', hr'⟩ := h'.covered
    refine ⟨es ++ es', ?_, ?_⟩
    · rw [hf', hf, appendUndo_append]
    · rw [replay_append, hr', hr]
  records := List.Subset.trans h.records h'.records

/-- A covered operation that leaves the log alone, or adds to it. -/
theorem of_logged (h : Logged s t) (hrecords : s.evidence.records ⊆ t.evidence.records) :
    EvidenceGrows s t where
  covered := by
    obtain ⟨entries, hframes, hreplay, -⟩ := h
    refine ⟨entries, hframes, ?_⟩
    have hlog := congrArg LoggedState.evidence hreplay
    rw [replay_evidence] at hlog
    exact hlog
  records := hrecords

instance : KeepsEvidence EvidenceGrows where
  refl _ := of_eq rfl rfl
  trans _ _ _ := trans
  taint s code scope :=
    of_logged (s.logged_taint code scope) (s.mem_evidence_recordEvidence _)

/-- An entry about another field. -/
theorem pushUndo (s : AnalysisState) {change : StateChange}
    (h : ∀ log, undoEvidence change log = log) : EvidenceGrows s (s.pushUndo change) where
  covered := ⟨[change], s.pushUndo_transactions change, by simp [h]⟩
  records := by rw [s.pushUndo_evidence]; exact List.Subset.refl _

theorem logged_of_eq (h : Logged s t) (hevidence : t.evidence = s.evidence) : EvidenceGrows s t :=
  of_logged h (by rw [hevidence]; exact List.Subset.refl _)

/-- What each write of `DROP TABLE` does to the log. -/
instance : KeepsDrop EvidenceGrows where
  tombstoneRelation s id := logged_of_eq (s.logged_tombstoneRelation id) (s.pushUndo_evidence _)
  tombstoneSequence s id := logged_of_eq (s.logged_tombstoneSequence id) (s.pushUndo_evidence _)
  tombstoneTrigger s id := logged_of_eq (s.logged_tombstoneTrigger id) (s.pushUndo_evidence _)
  retainGraphEdges s keep := logged_of_eq (s.logged_retainGraphEdges keep) (s.pushUndo_evidence _)
  removeConstraint s key := logged_of_eq (s.logged_removeConstraint key) (s.pushUndo_evidence _)
  setPendingValidation s _ := (EvidenceGrows.pushUndo s fun _ => rfl).trans (of_eq rfl rfl)
  setBaselineForeignKeys s _ := (EvidenceGrows.pushUndo s fun _ => rfl).trans (of_eq rfl rfl)
  retainPublicationObjects s update := by
    refine logged_of_eq (s.logged_retainPublicationObjects update) ?_
    unfold AnalysisState.retainPublicationObjects
    dsimp only
    split
    · split
      · exact s.pushUndo_evidence _
      · exact s.pushUndo_evidence _
    · exact s.pushUndo_evidence _
  setRelations _ _ := of_eq rfl rfl

end EvidenceGrows

end SafeMigrate
