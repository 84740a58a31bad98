import SafeMigrate.Rollback

/-! Transitions whose changes are covered by the undo entries they push. The
relation composes, so an operation is covered as soon as its steps are. -/

namespace SafeMigrate

/-- Entries pushed onto the innermost frame, if one is open. -/
def appendUndo (entries : List StateChange) : List TransactionFrame → List TransactionFrame
  | [] => []
  | frame :: outer => { frame with undoLog := frame.undoLog ++ entries } :: outer

@[simp] theorem appendUndo_nil (frames : List TransactionFrame) : appendUndo [] frames = frames := by
  cases frames <;> simp [appendUndo]

theorem appendUndo_append (es es' : List StateChange) (frames : List TransactionFrame) :
    appendUndo es' (appendUndo es frames) = appendUndo (es ++ es') frames := by
  cases frames <;> simp [appendUndo]

@[simp] theorem appendUndo_eq_nil {es : List StateChange} {frames : List TransactionFrame} :
    appendUndo es frames = [] ↔ frames = [] := by
  cases frames <;> simp [appendUndo]

theorem AgreeOutside.refl (cells : List Cell) (v : LoggedState) : AgreeOutside cells v v where
  schemas _ _ _ := rfl
  relations _ _ _ := rfl
  types _ _ _ := rfl
  functions _ _ _ := rfl
  sequences _ _ _ := rfl
  extensions _ _ _ := rfl
  publications _ _ _ := rfl
  subscriptions _ _ := rfl
  roles _ _ := rfl
  triggers _ _ _ := rfl
  constraints _ _ _ := rfl
  graph _ _ := Or.inl rfl
  pendingValidation _ _ := rfl
  baselineForeignKeys _ _ := rfl
  baseline _ := rfl
  searchPath _ _ := rfl
  timeouts _ := rfl
  generationCounter _ := rfl
  roleMembershipGrantors _ := rfl
  roleContext _ := rfl
  confidence _ := rfl
  evidence _ := rfl

theorem AgreeOutside.mono {cells cells' : List Cell} {v w : LoggedState} (h : AgreeOutside cells v w)
    (hsub : cells ⊆ cells') : AgreeOutside cells' v w where
  schemas hn k hk := h.schemas (fun hm => hn (hsub hm)) k fun hm => hk (hsub hm)
  relations hn k hk := h.relations (fun hm => hn (hsub hm)) k fun hm => hk (hsub hm)
  types hn k hk := h.types (fun hm => hn (hsub hm)) k fun hm => hk (hsub hm)
  functions hn k hk := h.functions (fun hm => hn (hsub hm)) k fun hm => hk (hsub hm)
  sequences hn k hk := h.sequences (fun hm => hn (hsub hm)) k fun hm => hk (hsub hm)
  extensions hn k hk := h.extensions (fun hm => hn (hsub hm)) k fun hm => hk (hsub hm)
  publications hn k hk := h.publications (fun hm => hn (hsub hm)) k fun hm => hk (hsub hm)
  subscriptions k hk := h.subscriptions k fun hm => hk (hsub hm)
  roles k hk := h.roles k fun hm => hk (hsub hm)
  triggers hn k hk := h.triggers (fun hm => hn (hsub hm)) k fun hm => hk (hsub hm)
  constraints hn k hk := h.constraints (fun hm => hn (hsub hm)) k fun hm => hk (hsub hm)
  graph hn hg := (h.graph (fun hm => hn (hsub hm)) fun hm => hg (hsub hm)).imp_right
    fun ⟨len, hlen, he⟩ => ⟨len, hsub hlen, he⟩
  pendingValidation hn hf := h.pendingValidation (fun hm => hn (hsub hm)) fun hm => hf (hsub hm)
  baselineForeignKeys hn hf := h.baselineForeignKeys (fun hm => hn (hsub hm)) fun hm => hf (hsub hm)
  baseline hn := h.baseline fun hm => hn (hsub hm)
  searchPath hn hf := h.searchPath (fun hm => hn (hsub hm)) fun hm => hf (hsub hm)
  timeouts hf := h.timeouts fun hm => hf (hsub hm)
  generationCounter hf := h.generationCounter fun hm => hf (hsub hm)
  roleMembershipGrantors hf := h.roleMembershipGrantors fun hm => hf (hsub hm)
  roleContext hf := h.roleContext fun hm => hf (hsub hm)
  confidence hf := h.confidence fun hm => hf (hsub hm)
  evidence hf := h.evidence fun hm => hf (hsub hm)

/-- `t` is reached from `s` with entries that restore `s`, and these entries
cover the given cells. -/
def LoggedCovering (cells : List Cell) (s t : AnalysisState) : Prop :=
  ∃ entries, t.transactions = appendUndo entries s.transactions ∧
    NestedUndo.replay restore entries t.logged = s.logged ∧
    cells ⊆ entries.map StateChange.cell

abbrev Logged (s t : AnalysisState) : Prop := LoggedCovering [] s t

theorem Logged.refl (s : AnalysisState) : Logged s s := ⟨[], by simp⟩

theorem LoggedCovering.trans {cells cells' : List Cell} {s t u : AnalysisState}
    (h : LoggedCovering cells s t) (h' : LoggedCovering cells' t u) :
    LoggedCovering (cells ++ cells') s u := by
  obtain ⟨es, hf, hr, hc⟩ := h
  obtain ⟨es', hf', hr', hc'⟩ := h'
  refine ⟨es ++ es', ?_, ?_, ?_⟩
  · rw [hf', hf, appendUndo_append]
  · rw [NestedUndo.replay_append, hr', hr]
  · rw [List.map_append]
    exact List.append_subset.mpr
      ⟨List.Subset.trans hc (List.subset_append_left _ _),
        List.Subset.trans hc' (List.subset_append_right _ _)⟩

theorem LoggedCovering.weaken {cells cells' : List Cell} {s t : AnalysisState}
    (h : LoggedCovering cells s t) (hsub : cells' ⊆ cells) : LoggedCovering cells' s t := by
  obtain ⟨es, hf, hr, hc⟩ := h
  exact ⟨es, hf, hr, List.Subset.trans hsub hc⟩

theorem LoggedCovering.logged {cells : List Cell} {s t : AnalysisState}
    (h : LoggedCovering cells s t) : Logged s t := h.weaken (List.nil_subset _)

theorem LoggedCovering.then {cells : List Cell} {s t u : AnalysisState}
    (h : LoggedCovering cells s t) (h' : Logged t u) : LoggedCovering cells s u := by
  simpa using h.trans h'

theorem Logged.trans {s t u : AnalysisState} (h : Logged s t) (h' : Logged t u) : Logged s u :=
  LoggedCovering.then h h'

/-- A write to covered cells needs no further entry. -/
theorem LoggedCovering.write {cells : List Cell} {s t u : AnalysisState}
    (h : LoggedCovering cells s t) (hagree : AgreeOutside cells t.logged u.logged)
    (hframes : u.transactions = t.transactions) : LoggedCovering cells s u := by
  obtain ⟨es, hf, hr, hc⟩ := h
  refine ⟨es, hframes.trans hf, ?_, hc⟩
  rw [← hr]
  exact (hagree.mono hc).replay_eq.symm

/-- The part of a state that no undo entry is about. -/
theorem Logged.of_unlogged {s t : AnalysisState} (hframes : t.transactions = s.transactions)
    (hlogged : t.logged = s.logged) : Logged s t :=
  ⟨[], by simp [hframes], by simpa using hlogged, by simp⟩

theorem Logged.foldl {α : Type} {f : AnalysisState → α → AnalysisState}
    (h : ∀ s a, Logged s (f s a)) (l : List α) (s : AnalysisState) : Logged s (l.foldl f s) := by
  induction l generalizing s with
  | nil => exact Logged.refl s
  | cons a l ih => exact (h s a).trans (ih (f s a))

theorem Logged.ite {p : Prop} [Decidable p] {s t u : AnalysisState} (ht : p → Logged s t)
    (hu : ¬p → Logged s u) : Logged s (if p then t else u) := by
  by_cases hp : p
  · simpa [hp] using ht hp
  · simpa [hp] using hu hp

namespace AnalysisState

variable (s : AnalysisState)

theorem pushUndo_transactions (e : StateChange) :
    (s.pushUndo e).transactions = appendUndo [e] s.transactions := by
  cases h : s.transactions <;> simp [pushUndo, setTransactions, appendUndo, h]

@[simp] theorem logged_pushUndo (e : StateChange) : (s.pushUndo e).logged = s.logged := by
  cases h : s.transactions with
  | nil => simp [pushUndo, h]
  | cons frame outer =>
    simp only [pushUndo, h]
    rfl

variable {s}

theorem logged_of_records {e : StateChange} (h : Records s e) :
    LoggedCovering [e.cell] s (s.pushUndo e) :=
  ⟨[e], s.pushUndo_transactions e, by simpa using h.restore_logged, by simp⟩

end AnalysisState

section Writes

open AnalysisState

variable {cells : List Cell} {s t : AnalysisState}

theorem LoggedCovering.setSchemas (h : LoggedCovering cells s t) {name : String}
    (hc : .schema name ∈ cells) {m : KeyedMap String SchemaOverlay}
    (hm : ∀ k, k ≠ name → m.lookup k = t.schemas.lookup k) :
    LoggedCovering cells s (t.setSchemas m) :=
  h.write { AgreeOutside.refl cells t.logged with
    schemas := fun _ k hk => (hm k fun he => hk (he ▸ hc)).symm } rfl

theorem LoggedCovering.setRelations (h : LoggedCovering cells s t) {id : ObjectId}
    (hc : .relation id ∈ cells) {m : KeyedMap ObjectId RelationOverlay}
    (hm : ∀ k, k ≠ id → m.lookup k = t.relations.lookup k) :
    LoggedCovering cells s (t.setRelations m) :=
  h.write { AgreeOutside.refl cells t.logged with
    relations := fun _ k hk => (hm k fun he => hk (he ▸ hc)).symm } rfl

theorem LoggedCovering.setTypes (h : LoggedCovering cells s t) {id : ObjectId}
    (hc : .type id ∈ cells) {m : KeyedMap ObjectId TypeOverlay}
    (hm : ∀ k, k ≠ id → m.lookup k = t.types.lookup k) :
    LoggedCovering cells s (t.setTypes m) :=
  h.write { AgreeOutside.refl cells t.logged with
    types := fun _ k hk => (hm k fun he => hk (he ▸ hc)).symm } rfl

theorem LoggedCovering.setSequences (h : LoggedCovering cells s t) {id : ObjectId}
    (hc : .sequence id ∈ cells) {m : KeyedMap ObjectId SequenceOverlay}
    (hm : ∀ k, k ≠ id → m.lookup k = t.sequences.lookup k) :
    LoggedCovering cells s (t.setSequences m) :=
  h.write { AgreeOutside.refl cells t.logged with
    sequences := fun _ k hk => (hm k fun he => hk (he ▸ hc)).symm } rfl

theorem LoggedCovering.setPublications (h : LoggedCovering cells s t) {name : String}
    (hc : .publication name ∈ cells) {m : KeyedMap String PublicationOverlay}
    (hm : ∀ k, k ≠ name → m.lookup k = t.publications.lookup k) :
    LoggedCovering cells s (t.setPublications m) :=
  h.write { AgreeOutside.refl cells t.logged with
    publications := fun _ k hk => (hm k fun he => hk (he ▸ hc)).symm } rfl

theorem LoggedCovering.setTriggers (h : LoggedCovering cells s t) {id : ObjectId}
    (hc : .trigger id ∈ cells) {m : KeyedMap ObjectId TriggerOverlay}
    (hm : ∀ k, k ≠ id → m.lookup k = t.triggers.lookup k) :
    LoggedCovering cells s (t.setTriggers m) :=
  h.write { AgreeOutside.refl cells t.logged with
    triggers := fun _ k hk => (hm k fun he => hk (he ▸ hc)).symm } rfl

theorem LoggedCovering.setConstraints (h : LoggedCovering cells s t) {key : ObjectId × String}
    (hc : .constraint key ∈ cells) {m : KeyedMap (ObjectId × String) ConstraintState}
    (hm : ∀ k, k ≠ key → m.lookup k = t.constraints.lookup k) :
    LoggedCovering cells s (t.setConstraints m) :=
  h.write { AgreeOutside.refl cells t.logged with
    constraints := fun _ k hk => (hm k fun he => hk (he ▸ hc)).symm } rfl

theorem LoggedCovering.setGraph (h : LoggedCovering cells s t) (hc : .graph ∈ cells)
    (g : DependencyGraph) : LoggedCovering cells s (t.setGraph g) :=
  h.write { AgreeOutside.refl cells t.logged with graph := fun _ hg => absurd hc hg } rfl

theorem LoggedCovering.setPendingValidation (h : LoggedCovering cells s t)
    (hc : .pendingValidation ∈ cells) (p : Finset (ObjectId × String)) :
    LoggedCovering cells s (t.setPendingValidation p) :=
  h.write { AgreeOutside.refl cells t.logged with
    pendingValidation := fun _ hp => absurd hc hp } rfl

theorem LoggedCovering.setBaselineForeignKeys (h : LoggedCovering cells s t)
    (hc : .baselineForeignKeys ∈ cells) (b : Finset (ObjectId × String)) :
    LoggedCovering cells s (t.setBaselineForeignKeys b) :=
  h.write { AgreeOutside.refl cells t.logged with
    baselineForeignKeys := fun _ hb => absurd hc hb } rfl

theorem LoggedCovering.setGenerationCounter (h : LoggedCovering cells s t)
    (hc : .generationCounter ∈ cells) (n : Nat) :
    LoggedCovering cells s (t.setGenerationCounter n) :=
  h.write { AgreeOutside.refl cells t.logged with
    generationCounter := fun hg => absurd hc hg } rfl

theorem LoggedCovering.setConfidence (h : LoggedCovering cells s t) (hc : .confidence ∈ cells)
    (c : Confidence) : LoggedCovering cells s (t.setConfidence c) :=
  h.write { AgreeOutside.refl cells t.logged with confidence := fun hg => absurd hc hg } rfl

theorem LoggedCovering.setEvidence (h : LoggedCovering cells s t) (hc : .evidence ∈ cells)
    (e : EvidenceLog) : LoggedCovering cells s (t.setEvidence e) :=
  h.write { AgreeOutside.refl cells t.logged with evidence := fun hg => absurd hc hg } rfl

end Writes

namespace AnalysisState

variable (s : AnalysisState)

theorem logged_markTainted : Logged s s.markTainted := by
  unfold markTainted
  refine Logged.ite (fun _ => Logged.refl s) fun _ => ?_
  have h : LoggedCovering [.confidence] s s.snapshotConfidence := logged_of_records .confidence
  exact (h.setConfidence (by simp) .tainted).logged

theorem logged_recordEvidence (record : EvidenceRecord) : Logged s (s.recordEvidence record) := by
  unfold recordEvidence
  refine Logged.ite (fun _ => Logged.refl s) fun _ => ?_
  have h : LoggedCovering [.evidence] s s.snapshotEvidence := logged_of_records .evidence
  exact ((h.then s.snapshotEvidence.logged_markTainted).setEvidence (by simp) _).logged

theorem logged_taint (code : EvidenceCode) (scope : EvidenceScope) : Logged s (s.taint code scope) :=
  s.logged_recordEvidence _

end AnalysisState

end SafeMigrate
