import SafeMigrate.CoveredWrites
import SafeMigrate.DomainPaths
import SafeMigrate.TypeCreationFrames

/-! `CREATE TYPE`, `CREATE DOMAIN` and `ALTER DOMAIN … ADD` push the entries that
restore what they change. -/

namespace SafeMigrate

open Command AnalysisState

variable {cells : List Cell} {s t : AnalysisState}

theorem LoggedCovering.putType (h : LoggedCovering cells s t) {id : ObjectId}
    (hc : .type id ∈ cells) (type : TypeOverlay) :
    LoggedCovering cells s (t.setTypes (t.types.insert id type)) :=
  h.setTypes hc fun _ hk => AList.lookup_insert_ne hk

theorem LoggedCovering.modifyDomain (h : LoggedCovering cells s t) {id : ObjectId}
    (hc : .type id ∈ cells) (f : DomainState → DomainState) :
    LoggedCovering cells s (t.modifyDomain id f) := by
  unfold AnalysisState.modifyDomain
  split
  · split
    · exact h.putType hc _
    · exact h
  · exact h

namespace AnalysisState

variable (s : AnalysisState)

theorem logged_putFunction (f : FunctionState) : Logged s (s.putFunction f) := by
  have h : LoggedCovering [.function f.id] s (s.snapshotFunction f.id) :=
    logged_of_records (.function f.id)
  exact (h.setFunctions (List.mem_singleton_self _) fun k hk => AList.lookup_insert_ne hk).logged

theorem covering_bumpGeneration : LoggedCovering [.generationCounter] s s.bumpGeneration := by
  have h : LoggedCovering [.generationCounter] s s.snapshotGenerationCounter :=
    logged_of_records .generationCounter
  exact h.setGenerationCounter (List.mem_singleton_self _) _

theorem covering_putNewType (id : ObjectId) (kind : TypeKind) :
    LoggedCovering [.type id, .generationCounter] s (s.putNewType id kind) := by
  have hopen := (s.covering_snapshotType id).trans (s.snapshotType id).covering_bumpGeneration
  exact hopen.putType (by simp) _

/-- The companion's generation is written under the entry of the type before. -/
theorem covered_putCompanionType (hc : .generationCounter ∈ cells) (id : ObjectId) (kind : TypeKind) :
    StaysCovered cells s (s.putCompanionType id kind) := by
  intro r hr
  have hopen := (hr.trans (s.covering_snapshotType id)).setGenerationCounter (by simp [hc])
    ((s.snapshotType id).generationCounter + 1)
  have htype : LoggedCovering (cells ++ [.type id]) r (s.putCompanionType id kind) :=
    hopen.putType (by simp) _
  exact htype.weaken (List.subset_append_left _ _)

end AnalysisState

namespace CreateType

variable {create : CreateType} {text : TypeText}

theorem logged_introduce (kind : TypeKind) (s : AnalysisState) :
    Logged s (create.introduce kind s) := by
  unfold introduce
  split
  · rename_i range
    have hfunctions := Logged.foldl logged_putFunction (create.constructors range) s
    have hrange := covering_putNewType ((create.constructors range).foldl putFunction s)
      create.id.id (.range range)
    exact hfunctions.trans (hrange.close (covered_putCompanionType _ (by simp) _ _))
  · exact (s.covering_putNewType create.id.id kind).logged

theorem keeps_resolveKind {R : AnalysisState → AnalysisState → Prop} [KeepsEvidence R] :
    Keeps R (create.resolveKind text) := by
  unfold resolveKind
  split
  · exact Keeps.bind Keeps.get fun _ => Keeps.pure _
  · exact Keeps.bind (Keeps.mapM _ keeps_resolveField) fun _ => Keeps.pure _
  · exact Keeps.bind Keeps.get fun _ => Keeps.bind Keeps.get fun _ =>
      Keeps.bind (keeps_refuseIf _ _) fun _ =>
        Keeps.bind (keeps_ensureCreationTarget _) fun _ => Keeps.pure _
  · exact Keeps.pure _

theorem logged_apply : Keeps Logged (create.apply text) := by
  refine Keeps.bind (keeps_ensureCreationTarget _) fun _ => Keeps.bind Keeps.get fun s => ?_
  split
  · unfold completeShell
    split
    · refine Keeps.bind (keeps_refuseFound _ _) fun _ => Keeps.bind (Keeps.modify fun s => ?_)
        fun _ => Keeps.pure _
      exact ((s.covering_snapshotType create.id.id).putType (List.mem_singleton_self _) _).logged
    · exact keeps_refuse _
  · refine Keeps.bind Keeps.get fun s => Keeps.bind (keeps_refuseIf _ _) fun _ => ?_
    refine Keeps.bind (keeps_checkCreatedType _ _) fun _ => Keeps.bind keeps_resolveKind fun kind => ?_
    exact Keeps.bind (Keeps.modify (logged_introduce kind)) fun _ => Keeps.pure _

end CreateType

theorem CreateDomain.logged_apply {create : CreateDomain} {text : TypeText} :
    Keeps Logged (create.apply text) := by
  refine Keeps.bind keeps_checkDomain fun collation => Keeps.bind Keeps.get fun s => ?_
  split
  · exact keeps_refuse _
  · refine Keeps.bind (Keeps.modify fun s => ?_) fun _ =>
      Keeps.bind (Keeps.modify fun s => ?_) fun _ => Keeps.pure _
    · unfold taintUnprovenDefault
      split
      · exact Logged.ite (fun _ => Logged.refl s) fun _ => s.logged_taint _ _
      · exact Logged.refl s
    · have hopen := (s.covering_snapshotType create.id.id).trans (covering_bumpGeneration _)
      exact (hopen.putType (by simp) _).logged

section AddConstraint

variable (domain : ObjectRef)

theorem keeps_taintDomainValidation {R : AnalysisState → AnalysisState → Prop} [KeepsEvidence R]
    (id : ObjectId) :
    Keeps R (modify fun s => s.taintDomainValidationIfDataScanned id : Statement PUnit) :=
  Keeps.modify fun s => keeps_ite (fun _ => KeepsEvidence.taint s _ _) fun _ => Std.Refl.refl s

theorem logged_changeDomain (f : AnalysisState → DomainState → DomainState) :
    Keeps Logged (do
      modify fun s => (s.snapshotType domain.id).modifyDomain domain.id (f s)
      pure .applied : Statement MutationResult) :=
  Keeps.bind (Keeps.modify fun s => ((s.covering_snapshotType domain.id).modifyDomain
    (List.mem_singleton_self _) (f s)).logged) fun _ => Keeps.pure _

theorem logged_addNamedCheck (check : DomainCheckFact) (name : String) :
    Keeps Logged (addNamedCheck domain check name) := by
  refine Keeps.bind Keeps.get fun s => Keeps.bind (keeps_refuseIf _ _) fun _ => ?_
  refine Keeps.ite (fun _ => logged_changeDomain domain fun _ => _) fun _ => ?_
  exact Keeps.bind (keeps_refuseFound _ _) fun _ =>
    Keeps.bind (keeps_taintDomainValidation domain.id) fun _ => logged_changeDomain domain fun _ => _

theorem logged_addNamedNotNull (name : String) : Keeps Logged (addNamedNotNull domain name) := by
  refine Keeps.bind Keeps.get fun s => Keeps.bind (keeps_refuseIf _ _) fun _ => ?_
  refine Keeps.bind (keeps_refuseFound _ _) fun _ =>
    Keeps.bind (keeps_taintDomainValidation domain.id) fun _ => ?_
  exact logged_changeDomain domain fun s d => { d with
    notNull := true
    notNullConstraint := if s.recordsDomainNotNull then some name else none }

theorem logged_addDomainConstraint (constraint : DomainConstraintFact) :
    Keeps Logged (addDomainConstraint domain constraint) := by
  refine Keeps.bind (Keeps.bind Keeps.get fun s => ?_) fun _ => ?_
  · split
    · exact Keeps.pure _
    · exact keeps_refuse _
    · exact keeps_refuse _
    · exact keeps_refuse _
    · exact keeps_leaveUnresolved _
  · cases constraint with
    | check check => exact Keeps.bind Keeps.get fun s => logged_addNamedCheck domain check _
    | notNull name =>
      refine Keeps.bind Keeps.get fun s => ?_
      split
      · exact Keeps.ite (fun _ => Keeps.pure _) fun _ => logged_addNamedNotNull domain _
      · exact keeps_refuse _
    | null => exact keeps_leaveUnresolved _

end AddConstraint

end SafeMigrate
