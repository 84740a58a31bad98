import SafeMigrate.LiveAliases
import SafeMigrate.TypeRenameTotal

/-! A type rename that is the whole substitution in every iteration order
leaves nothing halfway: the condition on the state is needed as well. -/

namespace SafeMigrate

open MapRebuild MapMoves

namespace AnalysisState

section Necessary

variable {s : AnalysisState} {text : SqlText} {rename : Rename}

theorem firstTaken_head {taken : ObjectId → Bool} {id : ObjectId} {ids : List ObjectId}
    (h : taken id = true) : firstTaken taken [] (id :: ids) = some id := by
  simp [firstTaken, h]

theorem firstTaken_pair {taken : ObjectId → Bool} {id : ObjectId} {ids : List ObjectId} :
    firstTaken taken [] (id :: id :: ids) = some id := by
  by_cases h : taken id = true
  · exact firstTaken_head h
  · simp [firstTaken, h]

/-- An iteration order that begins with the given moves. -/
theorem exists_moves_first {first : List RoutineMove} (hnodup : (first.map (·.oldId)).Nodup)
    (hfirst : ∀ move ∈ first, s.Moves text rename move) :
    ∃ m rest, Reordered s.functions m ∧
      (s.setFunctions m).routineMoves text rename = first ++ rest := by
  have hentries : ∃ entries : List (Sigma fun _ : ObjectId => FunctionOverlay),
      entries.keys = first.map (·.oldId) ∧ (∀ entry ∈ entries, entry ∈ s.functions.entries) ∧
        entries.filterMap (rename.overlayMove text) = first := by
    clear hnodup
    induction first with
    | nil => exact ⟨[], rfl, by simp, rfl⟩
    | cons move first ih =>
      obtain ⟨entries, hkeys, hmem, hmoves⟩ :=
        ih fun move' h' => hfirst move' (List.mem_cons_of_mem _ h')
      obtain ⟨f, hf, hmove⟩ := hfirst move List.mem_cons_self
      refine ⟨⟨move.oldId, .present f⟩ :: entries, ?_, ?_, ?_⟩
      · rw [List.keys_cons, hkeys]
        rfl
      · exact List.forall_mem_cons.mpr ⟨mem_entries_iff.mpr hf, hmem⟩
      · have hentry : rename.overlayMove text ⟨move.oldId, .present f⟩ = some move := hmove
        rw [List.filterMap_cons_some hentry, hmoves]
  obtain ⟨entries, hkeys, hmem, hmoves⟩ := hentries
  have hdistinct : entries.Nodup := by
    have hfst : entries.map Sigma.fst = first.map (·.oldId) := hkeys
    exact List.Nodup.of_map Sigma.fst (hfst ▸ hnodup)
  obtain ⟨m, rest, hm, hsplit⟩ := exists_reordered_first (List.subperm_of_subset hdistinct hmem)
  refine ⟨m, rest.filterMap (rename.overlayMove text), hm, ?_⟩
  show m.entries.filterMap (rename.overlayMove text) = _
  rw [hsplit, List.filterMap_append, hmoves]

theorem exists_move_last {move : RoutineMove} (h : s.Moves text rename move) :
    ∃ m front, Reordered s.functions m ∧
      (s.setFunctions m).routineMoves text rename = front ++ [move] := by
  obtain ⟨f, hf, hmove⟩ := h
  obtain ⟨m, front, hm, hsplit⟩ := exists_reordered_last_entry (mem_entries_iff.mpr hf)
  refine ⟨m, front.filterMap (rename.overlayMove text), hm, ?_⟩
  have hentry : rename.overlayMove text ⟨move.oldId, .present f⟩ = some move := hmove
  show m.entries.filterMap (rename.overlayMove text) = _
  rw [hsplit, List.filterMap_append, List.filterMap_cons_some hentry, List.filterMap_nil]

theorem not_signatureNames_of_unchanged (hplain : rename.Plain) {id : ObjectId} {f : FunctionState}
    (h : rename.retypeOwner f = substRoutine s text rename id f) : ¬rename.SignatureNames f := by
  rintro (⟨typeId, hmem, i, hi, hnames⟩ | ⟨i, hi, hnames⟩)
  · have hids : f.argTypeIds.map (fun typeId => typeId) =
        f.argTypeIds.map (Option.map rename.substId) := by
      rw [List.map_id']
      exact congrArg FunctionState.argTypeIds h
    have hself := List.map_inj_left.mp hids typeId hmem
    exact hplain.substId_ne_of_names hnames (optionMap_eq_self_iff.mp hself.symm i hi)
  · have hself : f.returnTypeId = f.returnTypeId.map rename.substId :=
      congrArg FunctionState.returnTypeId h
    exact hplain.substId_ne_of_names hnames (optionMap_eq_self_iff.mp hself.symm i hi)

theorem parameters_of_map_eq {f : FunctionState}
    (h : f.parameters = f.parameters.map (substParameter s text rename)) :
    ∀ parameter ∈ f.parameters, substTypeText s text rename parameter.ty = parameter.ty := by
  have hmap : f.parameters.map (fun parameter => parameter) =
      f.parameters.map (substParameter s text rename) := by
    rw [List.map_id']
    exact h
  intro parameter hmem
  have hself := List.map_inj_left.mp hmap parameter hmem
  exact (congrArg RoutineParameter.ty hself).symm

section

variable (hall : ∀ m, Reordered s.functions m → (s.setFunctions m).RenamesEverything text rename)

include hall

theorem tombstones_of_renames (move : RoutineMove) (hmove : s.Moves text rename move) :
    s.functions.lookup move.newId ≠ some .dropped := by
  intro hdropped
  have hone : ∀ x ∈ [move], s.Moves text rename x := by simpa using hmove
  obtain ⟨m, rest, hm, hmoves⟩ := exists_moves_first (by simp) hone
  have hlookup : (s.setFunctions m).functions.lookup move.newId = some .dropped :=
    (hm.lookup_eq _).trans hdropped
  have htaken : routineTaken (s.setFunctions m) text rename move.newId = true := by
    by_contra hnot
    rcases routineTaken_eq_false.mp (Bool.eq_false_iff.mpr hnot) with h | ⟨_, ⟨f, hf, -⟩, hold⟩
    · rw [hlookup] at h
      cases h
    · rw [hold, hlookup] at hf
      cases hf
  have hconflict : (s.setFunctions m).routineConflict text rename = some move.newId := by
    show firstTaken (routineTaken (s.setFunctions m) text rename) [] _ = _
    rw [hmoves]
    exact firstTaken_head htaken
  have hpresent := (hall m hm).refused _ hconflict
  rw [routineIsPresent, hlookup] at hpresent
  cases hpresent

theorem shared_of_renames (move move' : RoutineMove) (hmove : s.Moves text rename move)
    (hmove' : s.Moves text rename move') (hnew : move.newId = move'.newId)
    (hne : move.oldId ≠ move'.oldId) : s.routineIsPresent move.newId = true := by
  have htwo : ∀ x ∈ [move, move'], s.Moves text rename x := by simpa using ⟨hmove, hmove'⟩
  obtain ⟨m, rest, hm, hmoves⟩ := exists_moves_first (by simpa using hne) htwo
  have hconflict : (s.setFunctions m).routineConflict text rename = some move.newId := by
    show firstTaken (routineTaken (s.setFunctions m) text rename) [] _ = _
    rw [hmoves]
    simp only [List.cons_append, List.map_cons, ← hnew]
    exact firstTaken_pair
  rw [← routineIsPresent_setFunctions hm]
  exact (hall m hm).refused _ hconflict

variable (ha : s.AdmitsTypeRename rename) (hc : s.NoRoutineConflict text rename)

include ha hc

theorem substituted_of_renames {m : KeyedMap ObjectId FunctionOverlay}
    (hm : Reordered s.functions m) : TypeSubstituted text rename (s.setFunctions m)
      ((s.setFunctions m).renameType text rename) := by
  have hnone : (s.setFunctions m).routineConflict text rename = none :=
    routineConflict_eq_none.mpr ((noRoutineConflict_setFunctions hm).mpr hc)
  have happlied := (hall m hm).applied
  rw [applyRenameType_of_admits (ha.setFunctions m), hnone] at happlied
  exact (happlied rfl).1

/-- The identity that a moved routine leaves is free if it moves last. -/
theorem exists_order_vacated {move : RoutineMove} (hmove : s.Moves text rename move)
    (hne : move.oldId ≠ move.newId) : ∃ m, Reordered s.functions m ∧
      TypeSubstituted text rename (s.setFunctions m) ((s.setFunctions m).renameType text rename) ∧
        ((s.setFunctions m).renameType text rename).functions.lookup move.oldId = none := by
  obtain ⟨m, front, hm, hmoves⟩ := exists_move_last hmove
  refine ⟨m, hm, substituted_of_renames hall ha hc hm, ?_⟩
  rw [renameType_functions, hmoves, List.map_append]
  have hleaves : (move.toMove rename).source ≠ (move.toMove rename).target := hne
  exact lookup_run_last _ hleaves

theorem canonical_of_renames (id : ObjectId) (f : FunctionState)
    (hf : s.functions.lookup id = some (.present f)) (hargs : ¬rename.ArgumentNames f) :
    routineIdentity id f.argTypes = id := by
  by_contra hne
  have hsame : rename.renamedArgTypes text f = f.argTypes := renamedArgTypes_of_not_names hargs
  rw [← hsame] at hne
  obtain ⟨move, hmove, rfl, hnew⟩ := routineMove_isSome_of_ne hne
  obtain ⟨m, hm, hsubst, hvacated⟩ := exists_order_vacated hall ha hc ⟨f, hf, hmove⟩
    fun he => hne (hnew.symm.trans he.symm)
  have hcarried := hsubst.routines.carried move.oldId f ((hm.lookup_eq _).trans hf)
  rw [substRoutineKey, if_neg hargs, hvacated] at hcarried
  cases hcarried

theorem newId_of_renames {move : RoutineMove} {f : FunctionState}
    (hf : s.functions.lookup move.oldId = some (.present f))
    (hmove : rename.routineMove text move.oldId f = some move) :
    move.newId = substRoutineKey text rename move.oldId f := by
  have hcanonical := canonical_of_renames hall ha hc move.oldId f hf
  have hnew := congrArg RoutineMove.newId (routineMove_eq_some hmove)
  exact hnew.trans (newId_eq_of_canonical hcanonical)

theorem unchained_of_renames (move move' : RoutineMove) (hmove : s.Moves text rename move)
    (hmove' : s.Moves text rename move') (hchain : move.newId = move'.oldId) :
    move.oldId = move'.oldId := by
  by_contra hne
  have hleaves : move'.oldId ≠ move'.newId := fun he =>
    hne (hc.distinct move move' hmove hmove' (hchain.trans he))
  obtain ⟨m, hm, hsubst, hvacated⟩ := exists_order_vacated hall ha hc hmove' hleaves
  obtain ⟨f, hf, hsome⟩ := hmove
  have hcarried := hsubst.routines.carried move.oldId f ((hm.lookup_eq _).trans hf)
  rw [← newId_of_renames hall ha hc hf hsome, hchain, hvacated] at hcarried
  cases hcarried

theorem substituted_here : TypeSubstituted text rename s (s.renameType text rename) :=
  substituted_of_renames hall ha hc (List.Perm.refl s.functions.entries)

variable (hplain : rename.Plain)

include hplain

theorem routineFollows_of_renames (id : ObjectId) (f : FunctionState)
    (hf : s.functions.lookup id = some (.present f)) : RoutineFollows s text rename id f := by
  have hcanonical := canonical_of_renames hall ha hc id f hf
  have hcarried := (substituted_here hall ha hc).routines.carried id f hf
  cases hmove : rename.routineMove text id f with
  | none =>
    have hkey : substRoutineKey text rename id f = id :=
      (newId_eq_of_canonical hcanonical).symm.trans (routineMove_eq_none.mp hmove).1
    rw [hkey, lookup_renameType_unmoved hc hf hmove] at hcarried
    have hvalue : rename.retypeOwner f = substRoutine s text rename id f := by simpa using hcarried
    refine ⟨hcanonical, ?_, parameters_of_map_eq (congrArg FunctionState.parameters hvalue)⟩
    intro hnames
    exact absurd hnames (not_signatureNames_of_unchanged hplain hvalue)
  | some move =>
    have hold : move.oldId = id := by rw [routineMove_eq_some hmove]
    subst hold
    have hind := hc.independent (unchained_of_renames hall ha hc)
    rw [← newId_of_renames hall ha hc hf hmove, lookup_renameType_moved hind hf hmove] at hcarried
    have hvalue : rename.retypeRoutine move (rename.retypeOwner f) =
        substRoutine s text rename move.oldId f := by simpa using hcarried
    refine ⟨hcanonical, ?_, parameters_of_map_eq (congrArg FunctionState.parameters hvalue)⟩
    intro _
    rw [hmove]
    rfl

theorem kindFollows_of_renames (k : ObjectId) (type : TypeState)
    (hk : s.types.lookup k = some (.present type)) : KindFollows s text rename type.kind := by
  have hcarried := (substituted_here hall ha hc).types.carried k type hk
  rw [renameType_types, lookup_mapValues_of_present (lookup_moveType_present ha hk)] at hcarried
  refine hplain.retypeKind_eq_iff.mp ?_
  have hvalue := congrArg TypeState.kind (Overlay.present.inj (Option.some.inj hcarried))
  exact hvalue

theorem memberFollows_of_renames (k : String) (extension : ExtensionState)
    (hk : s.extensions.lookup k = some (.present extension)) (member : ExtensionMember)
    (hmember : member ∈ extension.members) : MemberFollows s text rename member := by
  have hext := (substituted_here hall ha hc).extensions
  rw [renameType_extensions] at hext
  have hmembers : extension.members.image rename.retypeMember =
      extension.members.image (substMember s text rename) :=
    congrArg ExtensionState.members (carried_mapValues_eq hext hk)
  obtain ⟨kind, id⟩ := member
  have hstays : ∀ (hkeep : rename.retypeMember ⟨kind, id⟩ = ⟨kind, id⟩),
      ∃ member ∈ extension.members, substMember s text rename member = ⟨kind, id⟩ := by
    intro hkeep
    have hmem : rename.retypeMember ⟨kind, id⟩ ∈ extension.members.image rename.retypeMember :=
      Finset.mem_image_of_mem _ hmember
    rw [hkeep, hmembers] at hmem
    exact Finset.mem_image.mp hmem
  refine ⟨?_, ?_⟩
  · rintro (rfl : kind = .type) (rfl : id = _)
    obtain ⟨⟨kind', id'⟩, -, heq⟩ := hstays (by
      simp [Rename.retypeMember, Rename.arrayTypeId_ne])
    cases kind' with
    | type => exact hplain.substId_ne_array (congrArg ExtensionMember.id heq)
    | _ => cases congrArg ExtensionMember.kind heq
  · rintro (rfl : kind = .routine)
    by_contra hmoved
    obtain ⟨⟨kind', id'⟩, -, heq⟩ := hstays (by simp [Rename.retypeMember])
    have hlands : substRoutineId s text rename id' = id := by
      cases kind' with
      | routine => exact congrArg ExtensionMember.id heq
      | _ => cases congrArg ExtensionMember.kind heq
    have hmove : ∀ i, substRoutineId s text rename i ≠ i → ∃ move, s.Moves text rename move ∧
        move.oldId = i ∧ move.newId = substRoutineId s text rename i := by
      intro i hi
      rw [substRoutineId] at hi ⊢
      split at hi
      · rename_i f hf
        have hnew : routineIdentity i (rename.renamedArgTypes text f) =
            substRoutineKey text rename i f :=
          newId_eq_of_canonical (canonical_of_renames hall ha hc i f hf)
        obtain ⟨move, hsome, rfl, hid⟩ := routineMove_isSome_of_ne (hnew ▸ hi)
        exact ⟨move, ⟨f, hf, hsome⟩, rfl, hid.trans hnew⟩
      · exact absurd rfl hi
    obtain ⟨move, hmoves, rfl, -⟩ := hmove id hmoved
    by_cases hself : substRoutineId s text rename id' = id'
    · rw [hself] at hlands
      exact hmoved (hlands ▸ hself)
    · obtain ⟨move', hmoves', rfl, hnew'⟩ := hmove id' hself
      have hsame := unchained_of_renames hall ha hc move' move hmoves' hmoves (hnew'.trans hlands)
      exact hmoved (hsame ▸ hlands)

theorem edgeFollows_of_renames (e : DependencyEdge) (he : e ∈ s.graph.edges) :
    EdgeFollows rename e := by
  obtain ⟨dependent, referenced, kind⟩ := e
  rintro (rfl : kind = .viewUsesType) (rfl : referenced = _)
  have hind := hc.independent (unchained_of_renames hall ha hc)
  have hcurrent : (⟨dependent, arrayTypeId rename.oldName, .viewUsesType⟩ : DependencyEdge).kind ≠
      .renameTo := DependencyKind.noConfusion
  have hkept : (⟨dependent, arrayTypeId rename.oldName, .viewUsesType⟩ : DependencyEdge) ∈
      (s.renameType text rename).graph.edges := by
    refine (renameType_edges hind hcurrent).mpr ⟨_, he, ?_⟩
    have hend : renameId rename.oldName rename.newName (arrayTypeId rename.oldName) =
        arrayTypeId rename.oldName := if_neg (Rename.arrayTypeId_ne _)
    simp only [DependencyEdge.renameType, DependencyEdge.mapRoutines, hend]
  obtain ⟨⟨dependent', referenced', kind'⟩, -, heq⟩ :=
    ((substituted_here hall ha hc).edges _ hcurrent).mp hkept
  cases kind' with
  | viewUsesType => exact hplain.substId_ne_array (congrArg DependencyEdge.referenced heq)
  | viewUsesRoutine name =>
    cases name with
    | none => cases congrArg DependencyEdge.kind heq
    | some name => cases congrArg DependencyEdge.kind heq
  | _ => cases congrArg DependencyEdge.kind heq

theorem everythingFollows_of_renames : s.EverythingFollows text rename where
  relations k r hk := by
    have hrelations := (substituted_here hall ha hc).relations
    rw [renameType_relations] at hrelations
    exact hplain.retypeRelation_eq_iff.mp (carried_mapValues_eq hrelations hk)
  types := kindFollows_of_renames hall ha hc hplain
  routines := routineFollows_of_renames hall ha hc hplain
  unchained := unchained_of_renames hall ha hc
  members := memberFollows_of_renames hall ha hc hplain
  edges := edgeFollows_of_renames hall ha hc hplain

end

end Necessary

/-- In the states described by `TypeRenameTotal`, and for a rename that is not
the type's own name or array name only in these, an accepted rename is the
substitution in every iteration order and only a live routine stops it. -/
theorem applyRenameType_renames_iff {s : AnalysisState} {text : SqlText} {rename : Rename}
    (ha : s.AdmitsTypeRename rename) :
    (s.TypeRenameTotal text rename →
      ∀ m, Reordered s.functions m → (s.setFunctions m).RenamesEverything text rename) ∧
    (rename.Plain →
      (∀ m, Reordered s.functions m → (s.setFunctions m).RenamesEverything text rename) →
        s.TypeRenameTotal text rename) := by
  refine ⟨fun htotal m hm => htotal.renamesEverything ha hm, ?_⟩
  intro hplain hall
  exact {
    tombstones := tombstones_of_renames hall
    shared := shared_of_renames hall
    follows := fun hc => everythingFollows_of_renames hall ha hc hplain }

section Samples

/-- Type texts of one unquoted, unqualified lowercase name. -/
def bareNames : SqlText :=
  { textless with parseTypeReference := fun raw => some (none, raw, false) }

def moodToFeeling : Rename := ⟨⟨⟨"public", "mood"⟩, false⟩, ⟨⟨"public", "feeling"⟩, false⟩⟩

def moodType : TypeState :=
  { id := ⟨"public", "mood"⟩, generation := 1, owner := ⟨"", "postgres"⟩
    kind := .composite [{ name := "label", dataType := "text", dataTypeId := none,
                          collation := none, collationId := none }] }

/-- A table beside the composite type `mood`. -/
def moodState (table : RelationState) : AnalysisState :=
  { schemas := (∅ : KeyedMap String SchemaOverlay).insert "public"
      (.present { name := "public", owner := ⟨"", "postgres"⟩, generation := 0 })
    types := (∅ : KeyedMap ObjectId TypeOverlay).insert ⟨"public", "mood"⟩ (.present moodType)
    relations := (∅ : KeyedMap ObjectId RelationOverlay).insert ⟨"public", "days"⟩ (.present table) }

def daysTable : RelationState :=
  { RelationState.new ⟨"public", "days"⟩ ⟨"", "postgres"⟩ 2 none .table .permanent 0 with
    columns := [{ Column.migrationCreated "mood" (some "mood") true none with
                  typeId := some ⟨"public", "mood"⟩ }] }

theorem moodState_admits (table : RelationState) :
    (moodState table).AdmitsTypeRename moodToFeeling where
  found := rfl
  free := Or.inr rfl
  schema := by
    intro _
    rfl

/-- A column of the type follows it in every iteration order. -/
theorem daysTable_renamed :
    (moodState daysTable).AdmitsTypeRename moodToFeeling ∧
      ∀ m, Reordered (moodState daysTable).functions m →
        ((moodState daysTable).setFunctions m).RenamesEverything bareNames moodToFeeling := by
  refine ⟨moodState_admits daysTable,
    (applyRenameType_renames_iff (moodState_admits daysTable)).1 ?_⟩
  have hno : ∀ move, ¬(moodState daysTable).Moves bareNames moodToFeeling move := by
    rintro move ⟨f, hf, -⟩
    cases hf
  refine ⟨fun move hmove => absurd hmove (hno move), fun move _ hmove => absurd hmove (hno move), ?_⟩
  intro _
  exact {
    relations := by
      intro k r hk id hid
      obtain ⟨-, hr⟩ := lookup_insert_empty hk
      obtain rfl : r = daysTable := by simpa using hr
      cases hid
    types := by
      intro k type hk
      obtain ⟨-, htype⟩ := lookup_insert_empty hk
      obtain rfl : type = moodType := by simpa using htype
      trivial
    routines := by
      intro k f hf
      cases hf
    unchained := fun move _ hmove => absurd hmove (hno move)
    members := by
      intro k extension hk
      cases hk
    edges := by
      intro e he
      cases he }

/-- A typed table keeps the old name of its type. -/
theorem typedTable_keepsOldName :
    (moodState { daysTable with ofType := some ⟨"public", "mood"⟩ }).AdmitsTypeRename moodToFeeling ∧
      ¬(moodState { daysTable with ofType := some ⟨"public", "mood"⟩ }).RenamesEverything bareNames
        moodToFeeling := by
  refine ⟨moodState_admits _, fun hrenames => ?_⟩
  have hnothing := (hrenames.applied rfl).2
  have htable : ((moodState { daysTable with
      ofType := some ⟨"public", "mood"⟩ }).applyRenameType bareNames moodToFeeling).2.relations.lookup
        ⟨"public", "days"⟩ = some (.present (moodToFeeling.retypeRelation bareNames
          { daysTable with ofType := some ⟨"public", "mood"⟩ })) := rfl
  have hgone := hnothing.relations _ _ htable ⟨"public", "mood"⟩ (by decide +kernel) (Or.inl rfl)
  revert hgone
  decide +kernel

end Samples

end AnalysisState

end SafeMigrate
