import SafeMigrate.TypeCascadeRuns
import SafeMigrate.TypeCreation

/-! What `CREATE TYPE` leaves as it was. The names of a new type and of its
multirange are looked up first, but those of the constructors are not. -/

namespace SafeMigrate

open Command

namespace AnalysisState

variable (s : AnalysisState) (change : StateChange)

@[simp] theorem pushUndo_types : (s.pushUndo change).types = s.types :=
  (SameContents.pushUndo s change).types

@[simp] theorem pushUndo_functions : (s.pushUndo change).functions = s.functions :=
  (SameContents.pushUndo s change).functions

/-- Two states have the same relations, sequences and edges. -/
structure SameElsewhere (s t : AnalysisState) : Prop where
  relations : t.relations = s.relations
  sequences : t.sequences = s.sequences
  graph : t.graph = s.graph

theorem SameElsewhere.trans {s t u : AnalysisState} (h : SameElsewhere s t)
    (h' : SameElsewhere t u) : SameElsewhere s u :=
  ⟨h'.relations.trans h.relations, h'.sequences.trans h.sequences, h'.graph.trans h.graph⟩

theorem SameElsewhere.of_contents {s t : AnalysisState} (h : SameContents s t) :
    SameElsewhere s t :=
  ⟨h.relations, h.sequences, h.graph⟩

theorem sameElsewhere_insertType (id : ObjectId) (kind : TypeKind) :
    SameElsewhere s (s.insertType id kind) := ⟨rfl, rfl, rfl⟩

theorem sameElsewhere_putFunction (f : FunctionState) : SameElsewhere s (s.putFunction f) :=
  (SameElsewhere.of_contents (.pushUndo s _)).trans ⟨rfl, rfl, rfl⟩

theorem putFunction_functions (f : FunctionState) :
    (s.putFunction f).functions = s.functions.insert f.id (.present f) := by
  rw [← pushUndo_functions s (.functionSnapshot f.id (s.functions.lookup f.id))]
  rfl

theorem putFunction_types (f : FunctionState) : (s.putFunction f).types = s.types := by
  rw [← pushUndo_types s (.functionSnapshot f.id (s.functions.lookup f.id))]
  rfl

theorem sameContents_snapshotType (id : ObjectId) : SameContents s (s.snapshotType id) :=
  SameContents.pushUndo s _

theorem sameContents_newGeneration (id : ObjectId) :
    SameContents s (s.snapshotType id).bumpGeneration :=
  (s.sameContents_snapshotType id).trans (SameContents.bumpGeneration _)

theorem putNewType_same (id : ObjectId) (kind : TypeKind) :
    SameElsewhere s (s.putNewType id kind) ∧ (s.putNewType id kind).functions = s.functions ∧
      ∃ state : TypeState, state.kind = kind ∧
        (s.putNewType id kind).types = s.types.insert id (.present state) := by
  have hsame := s.sameContents_newGeneration id
  refine ⟨(SameElsewhere.of_contents hsame).trans (sameElsewhere_insertType _ id kind),
    hsame.functions, ?_⟩
  rw [← hsame.types]
  exact ⟨_, rfl, rfl⟩

theorem putCompanionType_same (id : ObjectId) (kind : TypeKind) :
    SameElsewhere s (s.putCompanionType id kind) ∧
      (s.putCompanionType id kind).functions = s.functions ∧
        ∃ state : TypeState, state.kind = kind ∧
          (s.putCompanionType id kind).types = s.types.insert id (.present state) := by
  have hsame := s.sameContents_snapshotType id
  refine ⟨(SameElsewhere.of_contents hsame).trans ⟨rfl, rfl, rfl⟩, hsame.functions, ?_⟩
  rw [← hsame.types]
  exact ⟨_, rfl, rfl⟩

/-- The last of some routines that has this identity. -/
def lastRoutine (routines : List FunctionState) (id : ObjectId) : Option FunctionState :=
  routines.reverse.find? fun f => f.id == id

/-- Routines put one after another: the last one under an identity stays. -/
theorem foldl_putFunction (routines : List FunctionState) :
    SameElsewhere s (routines.foldl putFunction s) ∧
      (routines.foldl putFunction s).types = s.types ∧
        ∀ id, (routines.foldl putFunction s).functions.lookup id =
          ((lastRoutine routines id).map Overlay.present <|> s.functions.lookup id) := by
  induction routines using List.reverseRecOn with
  | nil => exact ⟨⟨rfl, rfl, rfl⟩, rfl, fun _ => rfl⟩
  | append_singleton routines f ih =>
    obtain ⟨helsewhere, htypes, hfunctions⟩ := ih
    rw [List.foldl_concat]
    refine ⟨helsewhere.trans (sameElsewhere_putFunction _ f), ?_, fun id => ?_⟩
    · rw [putFunction_types, htypes]
    · rw [putFunction_functions, lastRoutine, List.reverse_concat, List.find?_cons]
      by_cases hid : f.id = id
      · rw [hid, AList.lookup_insert, beq_self_eq_true]
        rfl
      · rw [AList.lookup_insert_ne (Ne.symm hid), hfunctions, beq_false_of_ne hid]
        rfl

end AnalysisState

namespace CreateType

open AnalysisState

variable {create : CreateType} {text : TypeText} {s t : AnalysisState}

/-- What was present before the creation is there as it was, but for a shell that
it completes, and a range that it creates is one. -/
structure KeepsLiveObjects (create : CreateType) (s t : AnalysisState) : Prop where
  relations : ∀ id relation, s.relations.lookup id = some (.present relation) →
    t.relations.lookup id = some (.present relation)
  sequences : ∀ id sequence, s.sequences.lookup id = some (.present sequence) →
    t.sequences.lookup id = some (.present sequence)
  edges : ∀ e ∈ s.graph.edges, e ∈ t.graph.edges
  types : ∀ id state, s.types.lookup id = some (.present state) →
    t.types.lookup id = some (.present state) ∨ id = create.id.id ∧
      ∃ shell options, state.kind = .base true shell ∧
        t.types.lookup id = some (.present { state with kind := .base false options })
  routines : ∀ id f, s.functions.lookup id = some (.present f) →
    t.functions.lookup id = some (.present f)
  range : ∀ range, create.kind = .range range → ∃ state range', state.kind = .range range' ∧
    t.types.lookup create.id.id = some (.present state)

/-- The multirange is not the range, and no other routine is where a
constructor is to be. -/
structure ConstructorsFree (create : CreateType) (s : AnalysisState) (range : RangeState) :
    Prop where
  apart : create.multirangeId.id ≠ create.id.id
  routines : ∀ id f, s.functions.lookup id = some (.present f) →
    ∀ g, lastRoutine (create.constructors range) id = some g → g = f

/-- A run of `resolveKind` changes no contents; it makes a range of a range,
which keeps its subtype, and then the multirange is new. -/
inductive Resolves (create : CreateType) (s : AnalysisState) : TypeKind → Prop
  | range {range range' : RangeState} (hkind : create.kind = .range range)
      (hconstructors : create.constructors range' = create.constructors range)
      (hfree : s.typeIsPresent create.multirangeId.id = false) : Resolves create s (.range range')
  | other {kind : TypeKind} (hkind : ∀ range, create.kind ≠ .range range)
      (hother : ∀ range, kind ≠ .range range) : Resolves create s kind

theorem keeps_checkCreatedType {R : AnalysisState → AnalysisState → Prop} [KeepsEvidence R]
    (text : SqlText) (kind : TypeKind) : Keeps R (checkCreatedType text kind) :=
  Keeps.bind (keeps_refuseFound _ _) fun _ => Keeps.bind (keeps_refuseFound _ _) fun _ =>
    Keeps.forM _ fun _ => keeps_checkDeclaredType _ _

theorem keeps_resolveField {R : AnalysisState → AnalysisState → Prop} [KeepsEvidence R]
    (field : CompositeFieldState) : Keeps R (resolveField text field) :=
  Keeps.bind (keeps_resolveCollation _ _ _) fun _ => Keeps.pure _

theorem resolves_of_run {u : AnalysisState} {kind : TypeKind}
    (hrun : (create.resolveKind text).run.run s = (.ok kind, u)) :
    SameContents s u ∧ create.Resolves s kind := by
  unfold resolveKind at hrun
  split at hrun
  · cases hrun
    refine ⟨.refl s, .other (by simp_all) (by simp)⟩
  · rename_i fields hkind
    obtain ⟨resolved, v, hfields, hrest⟩ := exists_run_of_bind hrun
    cases hrest
    exact ⟨SameContents.of_check (Keeps.mapM _ keeps_resolveField) hfields,
      .other (by simp_all) (by simp)⟩
  · rename_i range hkind
    obtain ⟨_, _, ⟨⟩, hrun⟩ := exists_run_of_bind hrun
    obtain ⟨_, _, ⟨⟩, hrun⟩ := exists_run_of_bind hrun
    obtain ⟨_, v, hfree, hrun⟩ := exists_run_of_bind hrun
    obtain ⟨rfl, hfree⟩ := refuseIf_ok hfree
    obtain ⟨_, w, htarget, hrest⟩ := exists_run_of_bind hrun
    cases hrest
    refine ⟨SameContents.of_check (keeps_ensureCreationTarget _) htarget, .range hkind rfl ?_⟩
    have hparts := Bool.or_eq_false_iff.mp (Bool.eq_false_iff.mpr hfree)
    exact hparts.2
  · cases hrun
    exact ⟨.refl s, .other (by simp_all) (by simp_all)⟩

theorem declines_resolveKind : Declines (create.resolveKind text) := by
  unfold resolveKind
  split
  · exact Declines.bind declines_get fun _ => declines_pure _
  · exact Declines.bind (Throws.mapM _ fun field =>
      Declines.bind (declines_resolveCollation _ _ _) fun _ => declines_pure _) fun _ =>
        declines_pure _
  · exact Declines.bind declines_get fun _ => Declines.bind declines_get fun _ =>
      Declines.bind (declines_refuseIf _ _) fun _ =>
        Declines.bind (declines_ensureCreationTarget _) fun _ => declines_pure _
  · exact declines_pure _

theorem declines_apply : Declines (create.apply text) := by
  refine Declines.bind (declines_ensureCreationTarget _) fun _ =>
    Declines.bind declines_get fun s => ?_
  split
  · unfold completeShell
    split
    · exact Declines.bind (declines_refuseFound _ _) fun _ =>
        Declines.bind (declines_modify _) fun _ => declines_pure _
    · exact declines_refuse _
  · refine Declines.bind declines_get fun s => Declines.bind (declines_refuseIf _ _) fun _ =>
      Declines.bind ?_ fun _ => Declines.bind declines_resolveKind fun _ =>
        Declines.bind (declines_modify _) fun _ => declines_pure _
    exact Declines.bind (declines_refuseFound _ _) fun _ =>
      Declines.bind (declines_refuseFound _ _) fun _ =>
        Throws.forM _ fun _ => declines_checkDeclaredType _ _

/-- An applied creation has completed a shell, or introduced a type under a name
that no type had. -/
theorem apply_cases (h : (create.apply text).outcome s = (.applied, t)) :
    (∃ u existing shell options options', SameContents s u ∧
      s.types.lookup create.id.id = some (.present existing) ∧ existing.kind = .base true shell ∧
        create.kind = .base false options ∧ SameElsewhere u t ∧ t.functions = u.functions ∧
          t.types = u.types.insert create.id.id
            (.present { existing with kind := .base false options' })) ∨
    ∃ u kind, SameContents s u ∧ create.Resolves s kind ∧ s.typeIsPresent create.id.id = false ∧
      t = create.introduce kind u := by
  obtain ⟨_, u, htarget, hrun⟩ := exists_run_of_bind (ran_of_outcome declines_apply h)
  have hu : SameContents s u := SameContents.of_check (keeps_ensureCreationTarget _) htarget
  obtain ⟨_, _, ⟨⟩, hrun⟩ := exists_run_of_bind hrun
  split at hrun
  · rename_i existing hexisting
    rw [hu.types] at hexisting
    unfold completeShell at hrun
    split at hrun
    · rename_i shell options hshell hkind
      obtain ⟨_, v, hconflict, hwrites⟩ := exists_run_of_bind hrun
      obtain rfl := isCheck_refuseFound _ _ _ _ v hconflict
      obtain ⟨_, w, hwrite, hrest⟩ := exists_run_of_bind hwrites
      cases hwrite
      cases hrest
      refine Or.inl ⟨v, existing, shell, options, v.canonicalizeBaseTypeOptions options, hu,
        hexisting, hshell, hkind, ?_, ?_, ?_⟩
      · exact (SameElsewhere.of_contents (.pushUndo v _)).trans ⟨rfl, rfl, rfl⟩
      · exact pushUndo_functions v _
      · dsimp only [setTypes]
        rw [snapshotType, pushUndo_types]
    · cases hrun
  · obtain ⟨_, _, ⟨⟩, hrun⟩ := exists_run_of_bind hrun
    obtain ⟨_, v, hfree, hchecks⟩ := exists_run_of_bind hrun
    obtain ⟨rfl, hfree⟩ := refuseIf_ok hfree
    obtain ⟨_, v', hcheck, hrun⟩ := exists_run_of_bind hchecks
    have hv : SameContents v v' := SameContents.of_check (keeps_checkCreatedType _ _) hcheck
    obtain ⟨kind, w, hresolved, hrun⟩ := exists_run_of_bind hrun
    obtain ⟨hw, hresolves⟩ := resolves_of_run hresolved
    obtain ⟨_, _, hwrite, hrest⟩ := exists_run_of_bind hrun
    cases hwrite
    cases hrest
    have hpresent (id : ObjectId) : v'.typeIsPresent id = s.typeIsPresent id :=
      (hu.trans hv).typeIsPresent id
    refine Or.inr ⟨w, kind, (hu.trans hv).trans hw, ?_, ?_, rfl⟩
    · cases hresolves with
      | range hkind hconstructors hmultirange =>
        exact .range hkind hconstructors ((hpresent _).symm.trans hmultirange)
      | other hkind hother => exact .other hkind hother
    · have hparts := Bool.or_eq_false_iff.mp (Bool.eq_false_iff.mpr hfree)
      exact (hu.typeIsPresent create.id.id).symm.trans hparts.2

variable (create) in
/-- What the writes of a creation leave, map by map. -/
theorem introduce_other {kind : TypeKind} (hkind : ∀ range, kind ≠ .range range) :
    SameElsewhere s (create.introduce kind s) ∧ (create.introduce kind s).functions = s.functions ∧
      ∃ state : TypeState, state.kind = kind ∧
        (create.introduce kind s).types = s.types.insert create.id.id (.present state) := by
  have hintroduce : create.introduce kind s = s.putNewType create.id.id kind := by
    cases kind with
    | range range => exact absurd rfl (hkind range)
    | _ => rfl
  rw [hintroduce]
  exact s.putNewType_same create.id.id kind

variable (create) in
theorem introduce_range (range : RangeState) :
    SameElsewhere s (create.introduce (.range range) s) ∧
      (∀ id, (create.introduce (.range range) s).functions.lookup id =
        ((lastRoutine (create.constructors range) id).map Overlay.present <|>
          s.functions.lookup id)) ∧
      ∃ state companion : TypeState, state.kind = .range range ∧
        companion.kind = .multirange (some create.id.id) ∧
          (create.introduce (.range range) s).types = (s.types.insert create.id.id
            (.present state)).insert create.multirangeId.id (.present companion) := by
  obtain ⟨hfold, htypes, hfunctions⟩ := s.foldl_putFunction (create.constructors range)
  obtain ⟨hnew, hnewFunctions, state, hkind, hnewTypes⟩ := putNewType_same
    ((create.constructors range).foldl putFunction s) create.id.id (.range range)
  obtain ⟨hlast, hlastFunctions, companion, hcompanion, hlastTypes⟩ := putCompanionType_same
    (((create.constructors range).foldl putFunction s).putNewType create.id.id (.range range))
    create.multirangeId.id (.multirange (some create.id.id))
  refine ⟨(hfold.trans hnew).trans hlast, fun id => ?_, state, companion, hkind, hcompanion, ?_⟩
  · rw [← hfunctions, ← hnewFunctions, ← hlastFunctions]
    rfl
  · rw [← htypes, ← hnewTypes, ← hlastTypes]
    rfl

theorem KeepsLiveObjects.of_elsewhere (hsame : SameElsewhere s t)
    (htypes : ∀ id state, s.types.lookup id = some (.present state) →
      t.types.lookup id = some (.present state) ∨ id = create.id.id ∧
        ∃ shell options, state.kind = .base true shell ∧
          t.types.lookup id = some (.present { state with kind := .base false options }))
    (hroutines : ∀ id f, s.functions.lookup id = some (.present f) →
      t.functions.lookup id = some (.present f))
    (hrange : ∀ range, create.kind = .range range → ∃ state range', state.kind = .range range' ∧
      t.types.lookup create.id.id = some (.present state)) : create.KeepsLiveObjects s t where
  relations id relation h := by rwa [hsame.relations]
  sequences id sequence h := by rwa [hsame.sequences]
  edges e he := by rwa [hsame.graph]
  types := htypes
  routines := hroutines
  range := hrange

theorem ne_of_absent {id x : ObjectId} {state : TypeState} (hid : s.typeIsPresent id = false)
    (hstate : s.types.lookup x = some (.present state)) : x ≠ id := by
  rintro rfl
  rw [typeIsPresent_iff.mpr ⟨state, hstate⟩] at hid
  cases hid

/-- An applied creation leaves what is present alone exactly when the places of
the constructors are free and the multirange has a name of its own. -/
theorem apply_keepsLiveObjects_iff (h : (create.apply text).outcome s = (.applied, t)) :
    create.KeepsLiveObjects s t ↔
      ∀ range, create.kind = .range range → create.ConstructorsFree s range := by
  rcases apply_cases h with
    ⟨u, existing, shell, options, options', hu, hexisting, hshell, hkind, helsewhere, hfunctions,
      htypes⟩ | ⟨u, kind, hu, hresolves, hfree, rfl⟩
  · have hnone (range : RangeState) : create.kind ≠ .range range := by
      rw [hkind]
      exact TypeKind.noConfusion
    refine ⟨fun _ range hrange => absurd hrange (hnone range), fun _ => ?_⟩
    refine .of_elsewhere ((SameElsewhere.of_contents hu).trans helsewhere) (fun id state hstate => ?_)
      (fun id f h => by rwa [hfunctions, hu.functions])
      fun range hrange => absurd hrange (hnone range)
    rw [htypes, hu.types]
    by_cases hid : id = create.id.id
    · rw [hid, hexisting] at hstate
      cases hstate
      exact Or.inr ⟨hid, shell, options', hshell, by rw [hid, AList.lookup_insert]⟩
    · exact Or.inl (by rwa [AList.lookup_insert_ne hid])
  · cases hresolves with
    | other hkind hother =>
      obtain ⟨helsewhere, hfunctions, state, -, htypes⟩ :=
        create.introduce_other (s := u) hother
      refine ⟨fun _ range hrange => absurd hrange (hkind range), fun _ => ?_⟩
      refine .of_elsewhere ((SameElsewhere.of_contents hu).trans helsewhere)
        (fun id state hstate => Or.inl ?_)
        (fun id f h => by rwa [hfunctions, hu.functions])
        fun range hrange => absurd hrange (hkind range)
      rw [htypes, AList.lookup_insert_ne (ne_of_absent hfree hstate), hu.types]
      exact hstate
    | @range range range' hkind hconstructors hmultirange =>
      obtain ⟨helsewhere, hfunctions, created, companion, hcreated, hcompanion, htypes⟩ :=
        create.introduce_range (s := u) range'
      rw [hconstructors] at hfunctions
      constructor
      · intro hkeeps other hother
        rw [hkind] at hother
        cases hother
        refine ⟨fun heq => ?_, fun id f hf g hg => ?_⟩
        · obtain ⟨state, range', hstate, hlookup⟩ := hkeeps.range range hkind
          rw [htypes, heq, AList.lookup_insert] at hlookup
          cases hlookup
          rw [hcompanion] at hstate
          cases hstate
        · have hlookup := hkeeps.routines id f hf
          rw [hfunctions, hg] at hlookup
          cases hlookup
          rfl
      · intro hall
        obtain ⟨hapart, hroutines⟩ := hall range hkind
        refine .of_elsewhere ((SameElsewhere.of_contents hu).trans helsewhere)
          (fun id state hstate => Or.inl ?_) (fun id f hf => ?_)
          fun _ _ => ⟨created, range', hcreated, ?_⟩
        · rw [htypes, AList.lookup_insert_ne (ne_of_absent hmultirange hstate),
            AList.lookup_insert_ne (ne_of_absent hfree hstate), hu.types]
          exact hstate
        · rw [hfunctions]
          cases hlast : lastRoutine (create.constructors range) id with
          | some g =>
            rw [hroutines id f hf g hlast]
            rfl
          | none =>
            rw [hu.functions]
            exact hf
        · rw [htypes, AList.lookup_insert_ne hapart.symm, AList.lookup_insert]

end CreateType

section Sample

/-- Every declared type is built in. -/
def builtinText : TypeText where
  parseDataType declared := ⟨true, true, false, declared, false⟩
  parseTypeReference _ := none
  normalizedConstraintExpression definition := definition
  canonicalPartitionBound bound := bound
  partitionKeys _ := none
  partitionCheckClauses _ _ _ _ := none
  renameColumnSource _ _ _ _ := none
  renamePartitionKeySource _ _ _ _ := none
  builtinCollatable _ := some false
  domainDefaultIsProvablyCoercible _ _ := true

def periodRange : RangeState where
  subtype := some "integer"
  subtypeId := none
  multirange := none
  collation := none
  collationId := none
  opclass := none
  opclassId := none
  canonical := none
  canonicalId := none
  subtypeDiff := none
  subtypeDiffId := none

def createPeriod : CreateType where
  id := ⟨⟨"app", "period"⟩, false⟩
  kind := .range periodRange
  multirangeName := none

/-- A function of the user's own, written in SQL. -/
def ownFunction (name : String) (argTypes : List String) : FunctionState where
  id := ⟨"app", name⟩
  routineKind := .function
  argTypes
  argTypeIds := argTypes.map fun _ => none
  returnType := "integer"
  returnsSet := false
  parameters := []
  defaultCount := 0
  returnTypeId := none
  volatility := .volatile
  language := "sql"
  security := .invoker
  internalTypeOwner := none
  aggregate := none

/-- A schema with a table, an enum and this routine. -/
def withRoutine (routine : FunctionState) : AnalysisState where
  schemas := AList.singleton "app" (.present ⟨"app", ⟨"", "owner"⟩, 0⟩)
  relations := AList.singleton ⟨"app", "visits"⟩ (.present
    (RelationState.new ⟨"app", "visits"⟩ ⟨"", "owner"⟩ 0 none .table .permanent 0))
  types := AList.singleton ⟨"app", "mood"⟩ (.present
    ⟨⟨"app", "mood"⟩, 0, ⟨"", "owner"⟩, .enum ["good", "bad"]⟩)
  functions := AList.singleton routine.id (.present routine)

def ownTotal : FunctionState := ownFunction "total(integer)" ["integer"]

/-- It has the name of the constructor of a range. -/
def ownPeriod : FunctionState := ownFunction "period(integer,integer)" ["integer", "integer"]

/-- The table, the enum and the function stay, beside the range and its routines. -/
theorem createPeriod_keeps : createPeriod.KeepsLiveObjects (withRoutine ownTotal)
    ((createPeriod.apply builtinText).outcome (withRoutine ownTotal)).2 := by
  have happlied : (createPeriod.apply builtinText).outcome (withRoutine ownTotal) =
      (.applied, ((createPeriod.apply builtinText).outcome (withRoutine ownTotal)).2) :=
    Prod.ext (by decide +kernel) rfl
  refine (CreateType.apply_keepsLiveObjects_iff happlied).mpr
    fun range hrange => ⟨by decide +kernel, fun id f hf g hg => ?_⟩
  cases hrange
  obtain rfl : id = ownTotal.id := by
    by_contra hid
    rw [withRoutine, AList.lookup_eq_none.mpr fun hmem => hid (List.mem_singleton.mp hmem)] at hf
    cases hf
  have hnone : AnalysisState.lastRoutine (createPeriod.constructors periodRange) ownTotal.id = none := by
    decide +kernel
  cases hnone.symm.trans hg

/-- The constructor of a new range takes the place of the function. -/
theorem createPeriod_overwrites :
    ((createPeriod.apply builtinText).outcome (withRoutine ownPeriod)).1 = .applied ∧
      ¬createPeriod.KeepsLiveObjects (withRoutine ownPeriod)
        ((createPeriod.apply builtinText).outcome (withRoutine ownPeriod)).2 := by
  refine ⟨by decide +kernel, fun hkeeps => ?_⟩
  have hlookup := hkeeps.routines ownPeriod.id ownPeriod (by decide +kernel)
  revert hlookup
  decide +kernel

end Sample

end SafeMigrate
