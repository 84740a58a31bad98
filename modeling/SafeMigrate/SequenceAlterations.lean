import SafeMigrate.SequenceWrites

/-! `ALTER SEQUENCE` against the bounds of the sequence: the merged parameters
are valid, and an exactly known value stays within them. -/

namespace SafeMigrate

open Command AnalysisState

theorem within_of_no_conflict {current : SequenceState} {merged : SequenceParameters}
    (h : sequenceRuntimeBoundsConflict current merged = none) (hexact : current.runtimeExact = true)
    {value : Int} (hvalue : current.runtime.lastValue = some value) :
    merged.minValue ≤ value ∧ value ≤ merged.maxValue := by
  unfold sequenceRuntimeBoundsConflict at h
  rw [hvalue, Option.bind_some] at h
  split at h
  · cases h
  · rename_i hlow
    split at h
    · cases h
    · rename_i hhigh
      have hlow' : ¬value < merged.minValue := fun hlt => hlow ⟨hlt, .inl hexact⟩
      have hhigh' : ¬merged.maxValue < value := fun hlt => hhigh ⟨hlt, .inl hexact⟩
      omega

namespace AnalysisState

variable {s t : AnalysisState}

/-- A change of one sequence that keeps it valid. -/
theorem SequencesValid.updateSequence (hs : s.SequencesValid) {id : ObjectId}
    {f : SequenceState → SequenceState}
    (hf : ∀ sequence, s.presentSequence id = some sequence → (f sequence).Valid) :
    (s.updateSequence id f).SequencesValid := by
  have hsnapshot : (s.snapshotSequence id).SequencesValid := keepsSequences_pushUndo s _ hs
  have hpresent : (s.snapshotSequence id).presentSequence id = s.presentSequence id := by
    unfold presentSequence
    rw [snapshotSequence, pushUndo_sequences]
  unfold AnalysisState.updateSequence
  dsimp only
  rw [hpresent]
  split
  · rename_i sequence hfound
    exact hsnapshot.insert rfl (hf sequence hfound)
  · exact hsnapshot

theorem presentSequence_congr (h : t.sequences = s.sequences) (id : ObjectId) :
    t.presentSequence id = s.presentSequence id := by
  unfold presentSequence
  rw [h]

/-- The states of the sequences are the same. -/
abbrev SameSequences (s t : AnalysisState) : Prop := t.sequences = s.sequences

instance : KeepsEvidence SameSequences where
  refl _ := rfl
  trans _ _ _ h h' := Eq.trans h' h
  taint s code scope := s.taint_sequences code scope

end AnalysisState

namespace AlterSequence

variable {alter : AlterSequence} {current : SequenceState} {s t : AnalysisState}

/-- The statement works on the sequence as it is. -/
theorem checkTarget_ok (h : alter.checkTarget.run.run s = (.ok current, t)) :
    t = s ∧ s.presentSequence alter.id.id = some current := by
  obtain ⟨u, v, hget, h⟩ := exists_run_of_bind h
  cases hget
  split at h
  · split at h
    · cases h
      exact ⟨rfl, by assumption⟩
    · cases h
  · split at h <;> cases h
  · split at h
    · cases h
    · split at h <;> cases h
  · cases h

theorem keeps_checkTarget {R : AnalysisState → AnalysisState → Prop} [KeepsEvidence R] :
    Keeps R alter.checkTarget := by
  refine Keeps.bind Keeps.get fun s => ?_
  split
  · split
    · exact Keeps.pure _
    · exact keeps_leaveUnresolved _
  · exact Keeps.ite (fun _ => Keeps.throw _) fun _ => keeps_refuse _
  · exact Keeps.ite (fun _ => keeps_refuse _) fun _ =>
      Keeps.ite (fun _ => Keeps.throw _) fun _ => keeps_leaveUnresolved _
  · exact keeps_leaveUnresolved _

theorem merged_valid (hcurrent : current.parameters.Valid) {set : SequenceOptionSet}
    (hset : set.InRange) {parameters : SequenceParameters}
    (h : merged current.parameters set = .ok parameters) : parameters.Valid ∧
      ∀ restart, set.restart = some restart →
        parameters.minValue ≤ restart.getD parameters.startValue ∧
          restart.getD parameters.startValue ≤ parameters.maxValue := by
  obtain ⟨initial, hinitial, rfl⟩ := exists_of_map_ok h
  have hinit := initialized_of_ok hinitial
  exact ⟨(hinit.valid hset fun _ => hcurrent).persistence _, hinit.restart⟩

theorem keeps_checkRuntime {R : AnalysisState → AnalysisState → Prop} [KeepsEvidence R]
    (parameters : SequenceParameters) : Keeps R (checkRuntime current parameters) := by
  unfold checkRuntime
  split
  · exact keeps_refuse _
  · exact keeps_taintIf _ _ _

theorem checkRuntime_ok {parameters : SequenceParameters} {a : Unit}
    (h : (checkRuntime current parameters).run.run s = (.ok a, t)) :
    t.sequences = s.sequences ∧ sequenceRuntimeBoundsConflict current parameters = none := by
  have hkeeps : Keeps SameSequences (checkRuntime current parameters) := keeps_checkRuntime parameters
  have hsame := hkeeps s
  rw [after, h] at hsame
  refine ⟨hsame, ?_⟩
  unfold checkRuntime at h
  split at h
  · cases h
  · assumption

/-- From a state that still has the sequence as the statement found it. -/
def KeepsFrom (alter : AlterSequence) (current : SequenceState) (s t : AnalysisState) : Prop :=
  s.SequencesValid → s.presentSequence alter.id.id = some current → t.SequencesValid

theorem keepsFrom_of_keeps {α : Type} {c : Statement α} (h : Keeps KeepsSequences c) :
    Keeps (KeepsFrom alter current) c := fun s hs _ => h s hs

theorem keepsFrom_bind {α β : Type} {c : Statement α} {k : α → Statement β}
    (hc : Keeps (KeepsFrom alter current) c) (hk : ∀ a, Keeps KeepsSequences (k a)) :
    Keeps (KeepsFrom alter current) (c >>= k) := by
  intro s hs hpresent
  have hc' := hc s hs hpresent
  rw [after_bind]
  rcases hrun : c.run.run s with ⟨e | a, t⟩
  · rwa [after, hrun] at hc'
  · rw [after, hrun] at hc'
    exact hk a t hc'

theorem keepsFrom_writeParameters {parameters : SequenceParameters} (hvalid : parameters.Valid)
    {restart : Option (Option Int)}
    (hrestart : ∀ value, restart = some value →
      parameters.minValue ≤ value.getD parameters.startValue ∧
        value.getD parameters.startValue ≤ parameters.maxValue) :
    Keeps (KeepsFrom alter current) (alter.writeParameters current parameters restart) := by
  cases restart with
  | some value =>
    intro s hs _
    refine hs.updateSequence fun sequence _ => ⟨hvalid, fun _ last hlast => ?_⟩
    cases hlast
    exact hrestart value rfl
  | none =>
    refine Keeps.bind_of (keepsFrom_of_keeps (keeps_checkRuntime parameters))
      fun s a t hrun hs hpresent => ?_
    obtain ⟨hsame, hconflict⟩ := checkRuntime_ok hrun
    have ht : t.SequencesValid := hs.same hsame
    have hpresent' : t.presentSequence alter.id.id = some current :=
      (presentSequence_congr hsame _).trans hpresent
    split
    · refine ht.updateSequence fun sequence hsequence => ⟨hvalid, fun hexact value hvalue => ?_⟩
      -- the sequence that is written to is the one that was checked
      cases hpresent'.symm.trans hsequence
      exact within_of_no_conflict hconflict hexact hvalue
    · exact ht

theorem keepsFrom_alterParameters (hcurrent : current.parameters.Valid)
    (hrange : ∀ option ∈ alter.options, option.InRange) :
    Keeps (KeepsFrom alter current) (alter.alterParameters current) := by
  unfold alterParameters
  split
  · exact keepsFrom_of_keeps (keeps_refuse _)
  · rename_i set hset
    split
    · exact keepsFrom_of_keeps (keeps_refuse _)
    · rename_i parameters hmerged
      obtain ⟨hvalid, hrestart⟩ :=
        merged_valid hcurrent (inRange_sequenceOptionSet hrange hset) hmerged
      exact keepsFrom_writeParameters hvalid hrestart

section Execute

theorem keepsSequences_writeOwner (owner : Option (ObjectRef × String)) (s : AnalysisState) :
    KeepsSequences s (alter.writeOwner owner s) := by
  intro hs
  have hsnapshot : ((s.snapshotSequence alter.id.id).snapshotGraphFull).SequencesValid :=
    keepsSequences_pushUndo _ _ (keepsSequences_pushUndo s _ hs)
  unfold writeOwner
  dsimp only
  generalize (s.snapshotSequence alter.id.id).snapshotGraphFull = u at hsnapshot ⊢
  have hgraph : (u.setGraph (u.graph.retainEdges fun e =>
      !(e.kind.isSequenceOwnedBy && e.dependent == alter.id.id))).SequencesValid :=
    hsnapshot.same rfl
  generalize u.setGraph _ = v at hgraph ⊢
  cases hpresent : v.presentSequence alter.id.id with
  | none =>
    dsimp only
    split
    · exact hgraph.same rfl
    · exact hgraph
  | some sequence =>
    have hsequence := hgraph.present hpresent
    have howned : (v.setSequences (v.sequences.insert alter.id.id (.present { sequence with
        ownedBy := owner.map fun owner => (owner.1.id, owner.2),
        kind := if owner.isSome then .owned else .standalone }))).SequencesValid :=
      hgraph.insert rfl ⟨hsequence.parameters, hsequence.lastValue⟩
    dsimp only
    split
    · exact howned.same rfl
    · exact howned

theorem keepsSequences_alterOwnedBy (owner : Option (ObjectRef × String)) :
    Keeps KeepsSequences (alter.alterOwnedBy current owner) := by
  have hwrite : Keeps KeepsSequences (modify (alter.writeOwner owner) : Statement PUnit) :=
    Keeps.modify (keepsSequences_writeOwner owner)
  refine Keeps.bind (keeps_refuseIf _ _) fun _ => ?_
  split
  · exact hwrite
  · refine Keeps.bind (keeps_refuseIf _ _) fun _ =>
      Keeps.bind (keeps_ensureRelationTarget _ _ _ _) fun _ => Keeps.bind Keeps.get fun s => ?_
    split
    · exact Keeps.bind (keeps_leaveUnresolved _) fun _ => hwrite
    · exact Keeps.bind (keeps_refuseIf _ _) fun _ => Keeps.bind (keeps_refuseIf _ _) fun _ => hwrite

theorem keepsSequences_ownerTo (owner : RoleFact) :
    Keeps KeepsSequences (alter.ownerTo current owner) := by
  refine Keeps.bind (keeps_refuseIf _ _) fun _ => Keeps.bind Keeps.get fun s => ?_
  split
  · exact keeps_leaveUnresolved _
  · rename_i name known _
    have hwrite : Keeps KeepsSequences (modify fun s => s.updateSequence alter.id.id fun sequence =>
        { sequence with owner := ⟨"", name⟩ } : Statement PUnit) :=
      Keeps.modify fun s hs => hs.updateSequence fun sequence hsequence =>
        ⟨(hs.present hsequence).parameters, (hs.present hsequence).lastValue⟩
    refine Keeps.bind (keeps_refuseIf _ _) fun _ => Keeps.bind (keeps_taintIf _ _ _) fun _ => ?_
    split
    · exact hwrite
    · refine Keeps.bind (keeps_ensureRelationTarget _ _ _ _) fun _ => Keeps.bind Keeps.get fun s => ?_
      split
      · exact Keeps.bind (keeps_leaveUnresolved _) fun _ => hwrite
      · exact Keeps.bind (keeps_refuseIf _ _) fun _ => hwrite

theorem keepsSequences_move (newId : ObjectId) (s : AnalysisState) :
    KeepsSequences s (alter.move newId s) := by
  intro hs
  have hsnapshot : s.snapshotNamespace.SequencesValid := keepsSequences_pushUndo s _ hs
  unfold move
  dsimp only
  generalize s.snapshotNamespace = u at hsnapshot ⊢
  cases hpresent : u.presentSequence alter.id.id with
  | none => exact hsnapshot.same rfl
  | some sequence =>
    have hsequence := hsnapshot.present hpresent
    have herased : (u.setSequences (u.sequences.erase alter.id.id)).SequencesValid :=
      hsnapshot.erase rfl
    have hmoved : ((u.setSequences (u.sequences.erase alter.id.id)).setSequences
        ((u.sequences.erase alter.id.id).insert newId
          (.present { sequence with id := newId }))).SequencesValid :=
      herased.insert rfl ⟨hsequence.parameters, hsequence.lastValue⟩
    exact hmoved.same rfl

theorem keepsSequences_moveTo (newId : ObjectId) :
    Keeps KeepsSequences (alter.moveTo current newId) :=
  Keeps.bind (keeps_refuseIf _ _) fun _ => Keeps.bind (keeps_ensureSchemaTarget _) fun _ =>
    Keeps.bind Keeps.get fun _ => Keeps.bind (keeps_refuseIf _ _) fun _ =>
      Keeps.bind (keeps_refuseIf _ _) fun _ => Keeps.modify (keepsSequences_move newId)

theorem keepsSequences_execute : Keeps KeepsSequences (alter.execute current) := by
  unfold execute
  split
  · exact keepsSequences_alterOwnedBy _
  · split
    · exact keepsSequences_ownerTo _
    · exact keepsSequences_moveTo _
    · exact keepsSequences_moveTo _
    · exact Keeps.pure _

end Execute

/-- `ALTER SEQUENCE`, whatever its outcome. -/
theorem keepsSequences_command (hrange : ∀ option ∈ alter.options, option.InRange) :
    Keeps KeepsSequences alter.command := by
  refine Keeps.bind_of keeps_checkTarget fun s current t hrun hs => ?_
  obtain ⟨rfl, hpresent⟩ := checkTarget_ok hrun
  have hparameters := keepsFrom_alterParameters (hs.present hpresent).parameters hrange
  exact keepsFrom_bind hparameters
    (fun _ => Keeps.bind keepsSequences_execute fun _ => Keeps.pure _) t hs hpresent

end AlterSequence

end SafeMigrate
