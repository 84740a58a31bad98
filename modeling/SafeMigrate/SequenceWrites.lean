import SafeMigrate.ColumnCommands
import SafeMigrate.ColumnSources
import SafeMigrate.SequenceOptions

/-! The sequences of a state as the statements leave them that create tables,
columns and sequences. -/

namespace SafeMigrate

open Command AnalysisState

/-- Valid parameters, and an exactly known value that lies within them. -/
structure SequenceState.Valid (sequence : SequenceState) : Prop where
  parameters : sequence.parameters.Valid
  lastValue : sequence.runtimeExact = true → ∀ value, sequence.runtime.lastValue = some value →
    sequence.parameters.minValue ≤ value ∧ value ≤ sequence.parameters.maxValue

/-- A sequence that stands at the value it starts with. -/
theorem SequenceState.Valid.fresh {sequence : SequenceState} (h : sequence.parameters.Valid)
    (hruntime : sequence.runtime = .fresh sequence.parameters.startValue) : sequence.Valid := by
  refine ⟨h, fun _ value hvalue => ?_⟩
  rw [hruntime] at hvalue
  cases hvalue
  exact ⟨h.min_le, h.le_max⟩

namespace AnalysisState

def SequencesValid (s : AnalysisState) : Prop :=
  ∀ id sequence, s.sequences.lookup id = some (.present sequence) → sequence.Valid

abbrev KeepsSequences (s t : AnalysisState) : Prop := s.SequencesValid → t.SequencesValid

variable {s t : AnalysisState}

theorem SequencesValid.same (hs : s.SequencesValid) (h : t.sequences = s.sequences) :
    t.SequencesValid := by
  intro id sequence hlookup
  rw [h] at hlookup
  exact hs id sequence hlookup

theorem SequencesValid.insert (hs : s.SequencesValid) {id : ObjectId} {sequence : SequenceState}
    (ht : t.sequences = s.sequences.insert id (.present sequence)) (h : sequence.Valid) :
    t.SequencesValid := by
  intro k found hlookup
  rw [ht] at hlookup
  by_cases hk : k = id
  · subst hk
    rw [AList.lookup_insert] at hlookup
    cases hlookup
    exact h
  · rw [AList.lookup_insert_ne hk] at hlookup
    exact hs k found hlookup

theorem SequencesValid.erase (hs : s.SequencesValid) {id : ObjectId}
    (ht : t.sequences = s.sequences.erase id) : t.SequencesValid := by
  intro k sequence hlookup
  rw [ht] at hlookup
  by_cases hk : k = id
  · subst hk
    rw [AList.lookup_erase] at hlookup
    cases hlookup
  · rw [AList.lookup_erase_ne hk] at hlookup
    exact hs k sequence hlookup

theorem SequencesValid.present (hs : s.SequencesValid) {id : ObjectId} {sequence : SequenceState}
    (h : s.presentSequence id = some sequence) : sequence.Valid := by
  unfold presentSequence at h
  split at h
  · rename_i hlookup
    cases h
    exact hs id sequence hlookup
  · cases h

theorem taint_sequences (s : AnalysisState) (code : EvidenceCode) (scope : EvidenceScope) :
    (s.taint code scope).sequences = s.sequences := by
  unfold taint recordEvidence markTainted
  dsimp only
  split
  · rfl
  · split <;> simp [setEvidence, setConfidence, snapshotEvidence, snapshotConfidence]

instance : KeepsEvidence KeepsSequences where
  refl _ h := h
  trans _ _ _ h h' hs := h' (h hs)
  taint s code scope hs := hs.same (s.taint_sequences code scope)

theorem keepsSequences_pushUndo (s : AnalysisState) (change : StateChange) :
    KeepsSequences s (s.pushUndo change) := fun hs => hs.same (s.pushUndo_sequences change)

theorem keepsSequences_modifyRelation (s : AnalysisState) (id : ObjectId)
    (f : RelationState → RelationState) : KeepsSequences s (s.modifyRelation id f) := by
  intro hs
  unfold modifyRelation
  split
  · exact hs.same rfl
  · exact hs

theorem keepsSequences_putSequence (s : AnalysisState) (id : ObjectId)
    {f : AnalysisState → SequenceState} (hf : ∀ s, (f s).Valid) :
    KeepsSequences s (s.putSequence id f) := by
  intro hs
  have hsnapshot : (s.snapshotSequence id).bumpGeneration.SequencesValid :=
    keepsSequences_pushUndo _ _ (keepsSequences_pushUndo s _ hs)
  exact hsnapshot.insert rfl (hf _)

theorem keepsRelationWrites_keepsSequences {id : ObjectId} {declared : Option ObjectId} :
    KeepsRelationWrites id declared KeepsSequences where
  openTable s hs := keepsSequences_pushUndo _ _ (keepsSequences_pushUndo s _ hs)
  putRelation _ _ hs := hs.same rfl
  modifyRelation s f := keepsSequences_modifyRelation s id f
  listTrigger s _ hs := keepsSequences_modifyRelation _ _ _ (keepsSequences_pushUndo s _ hs)
  bumpGeneration s := keepsSequences_pushUndo s _
  addGraphEdge s _ _ := keepsSequences_pushUndo s _
  addGraphEdges s _ _ := keepsSequences_pushUndo s _
  addGraphEdgeFull s _ _ := keepsSequences_pushUndo s _
  putConstraint s _ := keepsSequences_pushUndo s _
  putConstraintEdges s writes _ hs := by
    refine keeps_foldl (R := KeepsSequences) writes (fun write _ s => ?_) _
      (keepsSequences_pushUndo s _ hs)
    exact keepsSequences_pushUndo s _
  putTrigger s _ := keepsSequences_pushUndo s _
  setIndexDefinition s _ _ := keepsSequences_pushUndo s _

theorem identityParameters_valid (hs : s.SequencesValid) {table : ObjectId} {column : String}
    {parameters : SequenceParameters} (h : s.identityParameters table column = some parameters) :
    parameters.Valid := by
  obtain ⟨entry, hentry, hfound⟩ := List.exists_of_findSome?_eq_some h
  split at hfound
  · rename_i sequence hpresent
    split at hfound
    · cases hfound
      refine (hs entry.1 sequence ?_).parameters
      rw [← hpresent]
      exact AList.mem_lookup_iff.mpr hentry
    · cases hfound
  · cases hfound

end AnalysisState

/-- The parameters of the identity columns that a table takes over are valid. -/
def TableSources.IdentitiesValid (sources : TableSources) : Prop :=
  ∀ identity ∈ sources.identityColumns, identity.2.2.Valid

theorem TableSources.IdentitiesValid.of_same {sources sources' : TableSources}
    (h : sources.IdentitiesValid) (hsame : sources'.identityColumns = sources.identityColumns) :
    sources'.IdentitiesValid := by
  unfold IdentitiesValid
  rw [hsame]
  exact h

namespace CreateTable

open TableSources

variable {text : SqlText} {create : CreateTable} {sources : TableSources}

section Sources

theorem returns_mergeInheritedColumn_identities (h : sources.IdentitiesValid) (column : Column) :
    Returns IdentitiesValid (mergeInheritedColumn sources column) := by
  unfold mergeInheritedColumn
  split
  · exact Returns.pure (h.of_same rfl)
  · exact Returns.ite (fun _ => returns_refuse _) fun _ => Returns.pure (h.of_same rfl)

theorem returns_mergeInheritedCheck_identities (h : sources.IdentitiesValid) (parent : ObjectId)
    (constraint : ConstraintState) :
    Returns IdentitiesValid (mergeInheritedCheck text parent sources constraint) := by
  refine Returns.then fun s => ?_
  split
  · exact Returns.ite (fun _ => returns_refuse _) fun _ => Returns.pure (h.of_same rfl)
  · exact returns_leaveUnresolved _

theorem returns_inheritFrom_identities (h : sources.IdentitiesValid) (parentId : ObjectRef) :
    Returns IdentitiesValid (create.inheritFrom text sources parentId) := by
  refine Returns.then fun _ => Returns.then fun s => Returns.then fun _ => ?_
  split
  · exact returns_leaveUnresolved _
  · refine Returns.bind (Returns.foldlM _ (fun _ column h =>
      returns_mergeInheritedColumn_identities h column) (h.of_same rfl)) fun _ h => ?_
    refine Returns.bind (Returns.foldlM _ (fun _ _ h => Returns.ite (fun _ => returns_refuse _)
      fun _ => Returns.pure (h.of_same rfl)) h) fun _ h => ?_
    exact Returns.foldlM _ (fun _ constraint h =>
      returns_mergeInheritedCheck_identities h _ constraint) h

theorem returns_copyCheck_identities (h : sources.IdentitiesValid) (source : ObjectId)
    (constraint : ConstraintState) : Returns IdentitiesValid (copyCheck source sources constraint) := by
  refine Returns.then fun s => ?_
  split
  · exact Returns.pure (h.of_same rfl)
  · exact returns_leaveUnresolved _

theorem returns_copyChecks_identities (h : sources.IdentitiesValid) (source : ObjectId)
    (properties : LikeProperties) : Returns IdentitiesValid (copyChecks source properties sources) :=
  Returns.ite (fun _ => Returns.then fun _ => Returns.foldlM _ (fun _ constraint h =>
    returns_copyCheck_identities h source constraint) h) fun _ => Returns.pure h

theorem returns_copyIndexes_identities (h : sources.IdentitiesValid) (source : ObjectId)
    (properties : LikeProperties) :
    Returns IdentitiesValid (copyIndexes source properties sources) := by
  refine Returns.ite (fun _ => Returns.then fun s => ?_) fun _ => Returns.pure h
  refine Returns.foldlM _ (fun sources constraint h => ?_) (h.of_same rfl)
  refine Returns.then fun s => ?_
  split
  · exact returns_leaveUnresolved _
  · exact Returns.pure (h.of_same rfl)

/-- An identity column is copied with the parameters its sequence has. -/
theorem yields_copyIdentityColumns (h : sources.IdentitiesValid) (source : ObjectId)
    (properties : LikeProperties) (relation : RelationState) :
    Yields SequencesValid IdentitiesValid
      (copyIdentityColumns source properties relation sources) := by
  refine Yields.ite (fun _ => Yields.foldlM _ (fun sources identity h => ?_) h) fun _ =>
    Yields.pure h
  refine Yields.bind Yields.get fun s hs => ?_
  split
  · exact Yields.of (keeps_leaveUnresolved _) (returns_leaveUnresolved _)
  · rename_i parameters hparameters
    refine Yields.pure fun other hother => ?_
    rcases List.mem_append.mp hother with hold | hnew
    · exact h other hold
    · rw [List.mem_singleton.mp hnew]
      exact identityParameters_valid hs hparameters

theorem identities_copyStatistics (s : AnalysisState) (statistics : List ExtendedStatisticsState)
    (h : sources.IdentitiesValid) :
    (statistics.foldl (create.copyStatistics s) sources).IdentitiesValid := by
  induction statistics generalizing sources with
  | nil => exact h
  | cons first statistics ih => exact ih (h.of_same rfl)

theorem yields_copyLikeRelation (h : sources.IdentitiesValid) (like : LikeSource) :
    Yields SequencesValid IdentitiesValid (create.copyLikeRelation like sources) := by
  refine Yields.then (keeps_ensureRelationTarget _ _ _ _) fun _ =>
    Yields.bind Yields.get fun s _ => ?_
  split
  · exact Yields.of (keeps_leaveUnresolved _) (returns_leaveUnresolved _)
  · rename_i source _
    have hstatistics : (if like.properties.statistics = true then
        (source.extendedStatistics.entries.map (·.2)).foldl (create.copyStatistics s)
          { sources with complete := sources.complete && source.columnsComplete }
        else { sources with complete := sources.complete && source.columnsComplete }).IdentitiesValid := by
      split
      · exact identities_copyStatistics s _ (h.of_same rfl)
      · exact h.of_same rfl
    refine Yields.bind (Q := IdentitiesValid) ?_ fun identified h => ?_
    · refine yields_copyIdentityColumns ?_ _ _ _
      exact hstatistics.of_same rfl
    have hgenerated : (if like.properties.generated = true then
        { identified with
          likeGeneratedColumns := identified.likeGeneratedColumns ++
            source.generatedColumns.entries.map fun entry => (entry.1, entry.2) }
        else identified).IdentitiesValid := by
      split
      · exact h.of_same rfl
      · exact h
    refine Yields.of (Keeps.bind (keeps_copyChecks _ _ _) fun _ =>
      Keeps.bind (keeps_copyIndexes _ _ _) fun _ =>
        Keeps.foldlM _ _ (keeps_copyLikeColumn like.properties)) ?_
    refine Returns.bind (returns_copyChecks_identities hgenerated _ _) fun _ h => ?_
    refine Returns.bind (returns_copyIndexes_identities h _ _) fun _ h => ?_
    exact Returns.foldlM _ (fun _ _ h => Returns.ite (fun _ => returns_refuse _)
      fun _ => Returns.pure (h.of_same rfl)) h

theorem yields_copyLike (h : sources.IdentitiesValid) (like : LikeSource) :
    Yields SequencesValid IdentitiesValid (create.copyLike sources like) := by
  refine Yields.bind Yields.get fun s _ => ?_
  dsimp only
  split
  · refine Yields.of (Keeps.foldlM _ _ keeps_copyCompositeField) (Returns.foldlM _ (fun _ _ h => ?_) h)
    exact Returns.ite (fun _ => returns_refuse _) fun _ => Returns.pure (h.of_same rfl)
  · exact yields_copyLikeRelation h like

theorem returns_copyPartitionParent_identities (h : sources.IdentitiesValid)
    (parentId : ObjectRef) : Returns IdentitiesValid (copyPartitionParent sources parentId) := by
  refine Returns.then fun _ => Returns.then fun s => ?_
  split
  · exact returns_leaveUnresolved _
  · refine Returns.then fun _ => ?_
    refine Returns.bind (Returns.foldlM _ (fun _ _ h => Returns.ite (fun _ => returns_refuse _)
      fun _ => Returns.pure (h.of_same rfl)) (h.of_same rfl)) fun _ h => ?_
    refine Returns.bind (Returns.foldlM _ (fun _ constraint h =>
      returns_copyCheck_identities h _ constraint) (h.of_same rfl)) fun _ h => ?_
    exact Returns.pure (h.of_same rfl)

theorem yields_sources : Yields SequencesValid IdentitiesValid (create.sources text) := by
  have hempty : IdentitiesValid {} := fun _ h => absurd h List.not_mem_nil
  refine Yields.bind (Yields.of (Keeps.foldlM _ _ keeps_inheritFrom) (Returns.foldlM _
    (fun _ parent h => returns_inheritFrom_identities h parent) hempty)) fun _ h => ?_
  refine Yields.bind (Yields.foldlM _ (fun _ like h => yields_copyLike h like) (h.of_same rfl))
    fun _ h => ?_
  split
  · exact Yields.pure h
  · exact Yields.of (keeps_copyPartitionParent _ _) (returns_copyPartitionParent_identities h _)

end Sources

section Plan

/-- The options of every identity column are 64-bit values. -/
def InRange (create : CreateTable) : Prop :=
  ∀ column ∈ create.columns, ∀ options, column.identitySequence = some options → options.InRange

def PlannedValid (planned : List ImplicitSequence) : Prop := ∀ q ∈ planned, q.parameters.Valid

theorem PlannedValid.append {planned : List ImplicitSequence} (h : PlannedValid planned)
    {q : ImplicitSequence} (hq : q.parameters.Valid) : PlannedValid (planned ++ [q]) := by
  intro other hother
  rcases List.mem_append.mp hother with hold | hnew
  · exact h other hold
  · rwa [List.mem_singleton.mp hnew]

theorem returns_planSequence {planned : List ImplicitSequence} (h : PlannedValid planned)
    {column : ColumnMutation}
    (hcolumn : ∀ options, column.identitySequence = some options → options.InRange) :
    Returns PlannedValid (create.planSequence planned column) := by
  unfold planSequence
  split
  · exact Returns.pure h
  · refine Returns.then fun s => Returns.then fun _ => ?_
    dsimp only
    split
    · exact returns_refuse _
    · rename_i parameters hparameters
      refine Returns.pure (h.append ?_)
      split at hparameters
      · cases hparameters
        exact defaultColumnSequenceParameters_valid _ _
      · exact identitySequenceParameters_valid hcolumn hparameters

theorem returns_planSequences (hrange : create.InRange) :
    Returns PlannedValid (create.columns.foldlM create.planSequence []) := by
  have hempty : PlannedValid [] := fun _ h => absurd h List.not_mem_nil
  unfold InRange at hrange
  generalize create.columns = columns at hrange
  generalize ([] : List ImplicitSequence) = planned at hempty
  induction columns generalizing planned with
  | nil => exact Returns.pure hempty
  | cons column columns ih =>
    rw [List.foldlM_cons]
    refine Returns.bind (returns_planSequence hempty (hrange column List.mem_cons_self))
      fun planned hplanned => ih (fun c hc => hrange c (List.mem_cons_of_mem _ hc)) planned hplanned

theorem planned_planCopiedSequences (s : AnalysisState)
    (identities : List (String × IdentityGeneration × SequenceParameters))
    (hidentities : ∀ identity ∈ identities, identity.2.2.Valid) {planned : List ImplicitSequence}
    (h : PlannedValid planned) :
    PlannedValid (identities.foldl (create.planCopiedSequence s) planned) := by
  induction identities generalizing planned with
  | nil => exact h
  | cons identity identities ih =>
    refine ih (fun i hi => hidentities i (List.mem_cons_of_mem _ hi)) (h.append ?_)
    exact hidentities identity List.mem_cons_self

/-- A plan that stands creates valid sequences only. -/
theorem yields_plan (hrange : create.InRange) :
    Yields SequencesValid (fun plan => PlannedValid plan.sequences) (create.plan text) := by
  refine Yields.bind yields_sources fun sources hsources => ?_
  refine Yields.then (Keeps.foldlM _ _ (keeps_checkColumn _)) fun _ => ?_
  refine Yields.then (Keeps.forM _ (keeps_checkGeneratedColumn _)) fun _ => ?_
  refine Yields.then (keeps_refuseIf _ _) fun _ => ?_
  refine Yields.then (Keeps.forM _ (keeps_checkKeyConstraint _)) fun _ => ?_
  refine Yields.then (Keeps.mapM _ (keeps_planForeignKey _ _)) fun _ => ?_
  refine Yields.bind (Yields.of (Keeps.foldlM _ _ keeps_planSequence) (returns_planSequences hrange))
    fun planned hplanned => ?_
  refine Yields.bind Yields.get fun s _ => Yields.then (keeps_planNames _) fun names => ?_
  exact Yields.pure (planned_planCopiedSequences s sources.identityColumns hsources hplanned)

theorem keepsSequences_addImplicitSequence (create : CreateTable) {q : ImplicitSequence}
    (hq : q.parameters.Valid) (s : AnalysisState) :
    KeepsSequences s (create.addImplicitSequence s q) := fun hs =>
  keepsSequences_pushUndo _ _ (keepsSequences_putSequence s q.id (fun _ => .fresh hq rfl) hs)

theorem keepsSequences_command (hrange : create.InRange) :
    Keeps KeepsSequences (create.command text) := by
  refine Keeps.bind (keeps_refuseFound _ _) fun _ => Keeps.bind (keeps_refuseIf _ _) fun _ =>
    Keeps.bind (keeps_ensureCreationTarget _) fun _ =>
      Keeps.bind keeps_checkNamespace fun _ => Keeps.bind keeps_checkOfType fun _ => ?_
  refine Keeps.bind_of keeps_plan fun s plan t hrun hs => ?_
  obtain ⟨ht, hplanned⟩ := yields_plan hrange s plan t hs hrun
  refine keeps_execute keepsRelationWrites_keepsSequences (fun s hs => ?_) plan
    (fun q hq s => keepsSequences_addImplicitSequence create (hplanned q hq) s) t ht
  unfold noteIfTemporary
  split
  · exact hs.same rfl
  · exact hs

end Plan

end CreateTable

namespace AlterColumn

variable {text : ColumnText} {alter : AlterColumn} {column : AddedColumn}

theorem keepsSequences_addImplicitSequence
    (hrange : ∀ options, column.identitySequence = some options → options.InRange)
    (sequence : ObjectId) : Keeps KeepsSequences (alter.addImplicitSequence column sequence) := by
  refine Keeps.bind Keeps.get fun s => ?_
  dsimp only
  split
  · exact keeps_refuse _
  · rename_i parameters hparameters
    have hvalid : parameters.Valid := by
      split at hparameters
      · cases hparameters
        exact defaultColumnSequenceParameters_valid _ _
      · exact identitySequenceParameters_valid hrange hparameters
    refine Keeps.bind (Keeps.modify fun s => ?_) fun _ =>
      Keeps.modify fun s => keepsSequences_pushUndo s _
    exact keepsSequences_putSequence s sequence fun _ => .fresh hvalid rfl

theorem keepsSequences_addColumn
    (hrange : ∀ options, column.identitySequence = some options → options.InRange) :
    Keeps KeepsSequences (alter.addColumn text column) := by
  have hwrites : KeepsRelationWrites alter.id.id none KeepsSequences :=
    keepsRelationWrites_keepsSequences
  refine Keeps.bind Keeps.get fun s => Keeps.bind (keeps_refuseFound _ _) fun _ =>
    Keeps.bind (Keeps.modify fun s => keepsSequences_pushUndo s _) fun _ =>
      Keeps.bind (Keeps.modify fun s => hwrites.modifyRelation s _) fun _ =>
        Keeps.bind (Keeps.modify fun s =>
          keeps_addColumnEdges hwrites.toKeepsDependentWrites s column) fun _ => ?_
  refine Keeps.ite (fun _ => Keeps.bind (Keeps.modify fun s =>
    hwrites.registerNotNullConstraint s _ _) fun _ => ?_) fun _ => ?_
  all_goals
    split
    · exact keepsSequences_addImplicitSequence hrange _
    · exact Keeps.pure _

/-- `ADD COLUMN`, whatever its outcome. -/
theorem keepsSequences_command (haction : alter.action = .addColumn column)
    (hrange : ∀ options, column.identitySequence = some options → options.InRange) :
    Keeps KeepsSequences (alter.command text) := by
  refine Keeps.bind Keeps.get fun s => Keeps.bind keeps_checkRecursion fun _ =>
    Keeps.bind keeps_checkTarget fun relation => Keeps.bind (keeps_checkColumn relation) fun _ =>
      Keeps.bind ?_ fun _ => Keeps.pure _
  unfold execute
  rw [haction]
  exact keepsSequences_addColumn hrange

end AlterColumn

namespace CreateSequence

variable {create : CreateSequence}

theorem parameters_valid (hrange : create.options.InRange) {parameters : SequenceParameters}
    (h : create.parameters = .ok parameters) : parameters.Valid := by
  obtain ⟨initial, hinitial, rfl⟩ := exists_of_map_ok h
  exact ((initialized_of_ok hinitial).valid hrange fun hinit => by cases hinit).persistence _

theorem keeps_checkOwner {R : AnalysisState → AnalysisState → Prop} [KeepsEvidence R] :
    Keeps R create.checkOwner := by
  unfold checkOwner
  split
  · exact Keeps.pure _
  · refine Keeps.bind (keeps_refuseIf _ _) fun _ =>
      Keeps.bind (keeps_ensureRelationTarget _ _ _ _) fun _ => Keeps.bind Keeps.get fun s => ?_
    split
    · exact Keeps.bind (keeps_refuseIf _ _) fun _ => keeps_refuseIf _ _
    · exact Keeps.ite (fun _ => keeps_refuse _) fun _ => keeps_leaveUnresolved _

theorem keepsSequences_write {parameters : SequenceParameters} (h : parameters.Valid)
    (s : AnalysisState) : KeepsSequences s (create.write parameters s) := by
  intro hs
  have hinsert : (s.setSequences (s.sequences.insert create.id.id (.present
      { id := create.id.id, owner := ⟨"", s.currentRole⟩,
        ownedBy := create.ownedBy.map fun owner => (owner.1.id, owner.2),
        kind := if create.ownedBy.isSome then .owned else .standalone,
        parameters, runtime := .fresh parameters.startValue, runtimeExact := true,
        generation := s.generationCounter }))).SequencesValid :=
    hs.insert rfl (.fresh h rfl)
  unfold write
  dsimp only
  split
  · exact keepsSequences_pushUndo _ _ hinsert
  · exact hinsert

theorem keepsSequences_command (hrange : create.options.InRange) :
    Keeps KeepsSequences create.command := by
  refine Keeps.bind (keeps_ensureCreationTarget _) fun _ => Keeps.bind Keeps.get fun s => ?_
  dsimp only
  refine Keeps.ite (fun _ => Keeps.bind (Keeps.throw _) fun _ => ?_) fun _ => ?_
  all_goals
    refine Keeps.bind (keeps_refuseIf _ _) fun _ => Keeps.bind keeps_checkOwner fun _ =>
      Keeps.bind (Keeps.modify fun s hs =>
        keepsSequences_pushUndo _ _ (keepsSequences_pushUndo s _ hs)) fun _ => ?_
    split
    · exact keeps_refuse _
    · rename_i parameters hparameters
      exact Keeps.bind (Keeps.modify (keepsSequences_write (parameters_valid hrange hparameters)))
        fun _ => Keeps.pure _

end CreateSequence

end SafeMigrate
