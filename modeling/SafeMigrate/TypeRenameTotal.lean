import SafeMigrate.RenamedTypes

/-! States in which a type rename is the whole substitution: none of the
records that it rewrites only halfway names the type. -/

namespace SafeMigrate

open MapRebuild MapMoves

namespace AnalysisState

/-- The checks that `apply_rename_type` makes before it looks at routines. -/
structure AdmitsTypeRename (s : AnalysisState) (rename : Rename) : Prop where
  found : s.typeLookup rename.oldId (fun _ => true) = .present
  free : rename.oldName = rename.newName ∨ s.relationNamespaceIsTaken rename.newName = false
  schema : rename.isSchemaMove = true → s.schemaIsPresent rename.newName.schema = true

/-- No record is left behind by the rename. -/
structure EverythingFollows (s : AnalysisState) (text : SqlText) (rename : Rename) : Prop where
  relations : ∀ k r, s.relations.lookup k = some (.present r) → RelationFollows rename r
  types : ∀ k type, s.types.lookup k = some (.present type) → KindFollows s text rename type.kind
  routines : ∀ k f, s.functions.lookup k = some (.present f) → RoutineFollows s text rename k f
  unchained : ∀ move move', s.Moves text rename move → s.Moves text rename move' →
    move.newId = move'.oldId → move.oldId = move'.oldId
  members : ∀ k extension, s.extensions.lookup k = some (.present extension) →
    ∀ member ∈ extension.members, MemberFollows s text rename member
  edges : ∀ e ∈ s.graph.edges, EdgeFollows rename e

/-- A state in which a rename rewrites all, or is stopped by a live routine. -/
structure TypeRenameTotal (s : AnalysisState) (text : SqlText) (rename : Rename) : Prop where
  tombstones : ∀ move, s.Moves text rename move → s.functions.lookup move.newId ≠ some .dropped
  shared : ∀ move move', s.Moves text rename move → s.Moves text rename move' →
    move.newId = move'.newId → move.oldId ≠ move'.oldId → s.routineIsPresent move.newId = true
  follows : s.NoRoutineConflict text rename → s.EverythingFollows text rename

/-- What is asked of one run of the rename. -/
structure RenamesEverything (s : AnalysisState) (text : SqlText) (rename : Rename) : Prop where
  applied : (s.applyRenameType text rename).1 = .applied →
    TypeSubstituted text rename s (s.applyRenameType text rename).2 ∧
      NothingNamed rename (s.applyRenameType text rename).2
  refused : ∀ id, s.routineConflict text rename = some id → s.routineIsPresent id = true

section Checks

variable {s : AnalysisState} {text : SqlText} {rename : Rename}

theorem applyRenameType_of_admits (h : s.AdmitsTypeRename rename) :
    s.applyRenameType text rename = match s.routineConflict text rename with
      | some id => (.rejected ("routine '" ++ id.display ++ "' already exists after renaming type '" ++
          rename.oldId.display ++ "'"), s)
      | none => (.applied, s.renameType text rename) := by
  have hfree : ¬(rename.oldName ≠ rename.newName ∧ s.relationNamespaceIsTaken rename.newName = true) := by
    rintro ⟨hne, htaken⟩
    have hnot := h.free.resolve_left hne
    rw [htaken] at hnot
    cases hnot
  have hschema : ¬(rename.isSchemaMove && !s.schemaIsPresent rename.newName.schema) = true := by
    intro hmove
    obtain ⟨hmoves, habsent⟩ := Bool.and_eq_true_iff.mp hmove
    rw [h.schema hmoves] at habsent
    cases habsent
  unfold applyRenameType
  simp only [h.found]
  refine (if_neg hfree).trans ((if_neg hschema).trans ?_)
  cases s.routineConflict text rename with
  | some id => rfl
  | none => rfl

/-- Every accepted rename passed those checks. -/
theorem admits_of_applied (h : (s.applyRenameType text rename).1 = .applied) :
    s.AdmitsTypeRename rename := by
  unfold applyRenameType at h
  cases hfound : s.typeLookup rename.oldId (fun _ => true) with
  | tombstone =>
    simp only [hfound] at h
    split at h <;> cases h
  | authoritativelyAbsent =>
    simp only [hfound] at h
    split at h <;> cases h
  | unknown =>
    simp only [hfound] at h
    split at h <;> cases h
  | wrongKind =>
    exfalso
    unfold typeLookup at hfound
    split at hfound
    · cases hfound
    · split at hfound
      · cases hfound
      · cases hfound
      · split at hfound <;> cases hfound
  | present =>
    simp only [hfound] at h
    split at h
    · cases h
    · rename_i hfree
      split at h
      · split at h <;> cases h
      · rename_i hschema
        refine ⟨hfound, ?_, ?_⟩
        · by_cases hid : rename.oldName = rename.newName
          · exact Or.inl hid
          · refine Or.inr ?_
            simpa using fun htaken => hfree ⟨hid, htaken⟩
        · intro hmoves
          rw [hmoves] at hschema
          simpa using hschema

theorem applyRenameDomain_applied (h : (s.applyRenameDomain text rename).1 = .applied) :
    s.applyRenameDomain text rename = s.applyRenameType text rename := by
  unfold applyRenameDomain at h ⊢
  split at h
  · rfl
  all_goals cases h

theorem AdmitsTypeRename.exists_type (h : s.AdmitsTypeRename rename) :
    ∃ type, s.types.lookup rename.oldName = some (.present type) := by
  have hfound := h.found
  unfold typeLookup at hfound
  split at hfound
  · cases hfound
  · split at hfound
    · rename_i type hlookup
      exact ⟨type, hlookup⟩
    · cases hfound
    · split at hfound <;> cases hfound

theorem AdmitsTypeRename.not_present (h : s.AdmitsTypeRename rename)
    (hne : rename.oldName ≠ rename.newName) (type : TypeState) :
    s.types.lookup rename.newName ≠ some (.present type) := by
  intro hlookup
  have hfree := h.free.resolve_left hne
  have hpresent : s.typeIsPresent rename.newName = true := by
    rw [typeIsPresent, hlookup]
    rfl
  rw [relationNamespaceIsTaken, hpresent, Bool.or_true] at hfree
  cases hfree

end Checks

/-! The state after an accepted rename. -/

section Result

variable {s : AnalysisState} {text : SqlText} {rename : Rename}

theorem renameType_relations : (s.renameType text rename).relations =
    mapValues (Overlay.map (rename.retypeRelation text)) s.relations :=
  (foldl_moveRoutine_frame _).1

theorem renameType_types : (s.renameType text rename).types =
    mapValues (Overlay.map (rename.retypeType text)) (rename.moveType s.types) :=
  (foldl_moveRoutine_frame _).2.1

theorem snapshotNamespace_extensions : s.snapshotNamespace.extensions = s.extensions := by
  unfold snapshotNamespace pushUndo
  split <;> rfl

theorem renameType_extensions : (s.renameType text rename).extensions =
    mapValues (Overlay.map rename.retypeExtension) s.extensions := by
  have hfold : (s.renameType text rename).extensions =
      mapValues (Overlay.map rename.retypeExtension) s.snapshotNamespace.extensions :=
    congrArg (mapValues (Overlay.map rename.retypeExtension)) (foldl_moveRoutine_frame _).2.2
  rw [hfold, snapshotNamespace_extensions]

theorem renameType_functions : (s.renameType text rename).functions =
    run ((s.routineMoves text rename).map (RoutineMove.toMove rename))
      (mapValues (Overlay.map rename.retypeOwner) s.functions) :=
  foldl_moveRoutine_functions _

theorem lookup_mapValues_present {κ α : Type} [DecidableEq κ] {g : α → α}
    {m : KeyedMap κ (Overlay α)} {k : κ} {v' : α}
    (h : (mapValues (Overlay.map g) m).lookup k = some (.present v')) :
    ∃ v, m.lookup k = some (.present v) ∧ g v = v' := by
  rw [lookup_mapValues] at h
  obtain ⟨overlay, hlookup, hmap⟩ := Option.map_eq_some_iff.mp h
  cases overlay with
  | dropped => cases hmap
  | present v => exact ⟨v, hlookup, by simpa [Overlay.map] using hmap⟩

theorem lookup_mapValues_of_present {κ α : Type} [DecidableEq κ] {g : α → α}
    {m : KeyedMap κ (Overlay α)} {k : κ} {v : α} (h : m.lookup k = some (.present v)) :
    (mapValues (Overlay.map g) m).lookup k = some (.present (g v)) := by
  rw [lookup_mapValues, h]
  rfl

/-- Values rewritten in place are carried over if they are rewritten in full. -/
theorem carried_mapValues {κ α : Type} [DecidableEq κ] {g h : α → α} {m : KeyedMap κ (Overlay α)}
    (hgh : ∀ k v, m.lookup k = some (.present v) → g v = h v) :
    Carried (fun k _ => k) (fun _ => h) m (mapValues (Overlay.map g) m) where
  carried k v hk := hgh k v hk ▸ lookup_mapValues_of_present hk
  source k' v' hk' := by
    obtain ⟨v, hk, rfl⟩ := lookup_mapValues_present hk'
    exact ⟨k', v, hk, rfl, (hgh k' v hk).symm⟩
  distinct k₁ v₁ k₂ v₂ _ _ hkey := hkey

theorem carried_mapValues_eq {κ α : Type} [DecidableEq κ] {g h : α → α}
    {m : KeyedMap κ (Overlay α)}
    (hc : Carried (fun k _ => k) (fun _ => h) m (mapValues (Overlay.map g) m)) {k : κ} {v : α}
    (hk : m.lookup k = some (.present v)) : g v = h v := by
  have hlookup := hc.carried k v hk
  rw [lookup_mapValues_of_present hk] at hlookup
  simpa using hlookup

theorem lookup_moveType_new {type : TypeState}
    (h : s.types.lookup rename.oldName = some (.present type)) :
    (rename.moveType s.types).lookup rename.newName =
      some (.present { type with id := rename.newName }) := by
  rw [Rename.moveType, h]
  exact AList.lookup_insert _

theorem lookup_moveType_ne {type : TypeState}
    (h : s.types.lookup rename.oldName = some (.present type)) {k : ObjectId}
    (hold : k ≠ rename.oldName) (hnew : k ≠ rename.newName) :
    (rename.moveType s.types).lookup k = s.types.lookup k := by
  rw [Rename.moveType, h]
  show ((s.types.erase rename.oldName).insert rename.newName _).lookup k = s.types.lookup k
  rw [AList.lookup_insert_ne hnew, AList.lookup_erase_ne hold]

theorem lookup_moveType_old {type : TypeState}
    (h : s.types.lookup rename.oldName = some (.present type))
    (hne : rename.oldName ≠ rename.newName) :
    (rename.moveType s.types).lookup rename.oldName = none := by
  rw [Rename.moveType, h]
  show ((s.types.erase rename.oldName).insert rename.newName _).lookup rename.oldName = none
  rw [AList.lookup_insert_ne hne]
  exact AList.lookup_erase _ _

/-- Every present type is found under its own name, or the new one. -/
theorem lookup_moveType_present (ha : s.AdmitsTypeRename rename) {k : ObjectId} {type : TypeState}
    (h : s.types.lookup k = some (.present type)) :
    (rename.moveType s.types).lookup (renameId rename.oldName rename.newName k) =
      some (.present { type with id := if k = rename.oldName then rename.newName else type.id }) := by
  obtain ⟨moved, hmoved⟩ := ha.exists_type
  by_cases hold : k = rename.oldName
  · subst hold
    rw [renameId, if_pos rfl, if_pos rfl]
    exact lookup_moveType_new h
  · have hnew : k ≠ rename.newName := by
      rintro rfl
      exact ha.not_present (fun he => hold he.symm) type h
    rw [renameId, if_neg hold, if_neg hold, lookup_moveType_ne hmoved hold hnew]
    exact h

theorem lookup_moveType_source (ha : s.AdmitsTypeRename rename) {k : ObjectId} {type : TypeState}
    (h : (rename.moveType s.types).lookup k = some (.present type)) :
    ∃ k₀ type₀, s.types.lookup k₀ = some (.present type₀) ∧
      renameId rename.oldName rename.newName k₀ = k ∧
        { type₀ with id := if k₀ = rename.oldName then rename.newName else type₀.id } = type := by
  obtain ⟨moved, hmoved⟩ := ha.exists_type
  by_cases hnew : k = rename.newName
  · subst hnew
    rw [lookup_moveType_new hmoved] at h
    refine ⟨rename.oldName, moved, hmoved, if_pos rfl, ?_⟩
    rw [if_pos rfl]
    simpa using h
  · by_cases hold : k = rename.oldName
    · subst hold
      rw [lookup_moveType_old hmoved hnew] at h
      cases h
    · rw [lookup_moveType_ne hmoved hold hnew] at h
      refine ⟨k, type, h, if_neg hold, ?_⟩
      rw [if_neg hold]

end Result

/-! The condition is enough. -/

section Sufficient

variable {s : AnalysisState} {text : SqlText} {rename : Rename}

theorem NoRoutineConflict.independent (hc : s.NoRoutineConflict text rename)
    (hunchained : ∀ move move', s.Moves text rename move → s.Moves text rename move' →
      move.newId = move'.oldId → move.oldId = move'.oldId) :
    Independent ((s.routineMoves text rename).map (RoutineMove.toMove rename)) where
  sources := by
    rw [List.map_map]
    exact routineMoves_sources_nodup
  targets := by
    rw [List.map_map]
    exact hc.targets_nodup
  unchained := by
    intro mv hmv mv' hmv' htarget
    obtain ⟨move, hmove, rfl⟩ := List.mem_map.mp hmv
    obtain ⟨move', hmove', rfl⟩ := List.mem_map.mp hmv'
    exact hunchained move move' (mem_routineMoves.mp hmove) (mem_routineMoves.mp hmove') htarget

theorem EverythingFollows.independent (h : s.EverythingFollows text rename)
    (hc : s.NoRoutineConflict text rename) :
    Independent ((s.routineMoves text rename).map (RoutineMove.toMove rename)) :=
  hc.independent h.unchained

/-- A routine that stays keeps its identity. -/
theorem not_source_of_none {id : ObjectId} {f : FunctionState}
    (hf : s.functions.lookup id = some (.present f)) (hnone : rename.routineMove text id f = none) :
    ∀ move, s.Moves text rename move → id ≠ move.oldId := by
  rintro move ⟨f', hf', hmove⟩ rfl
  rw [hf] at hf'
  obtain rfl : f = f' := by simpa using hf'
  rw [hnone] at hmove
  cases hmove

theorem forall_mem_toMove {p : Move ObjectId FunctionOverlay → Prop}
    (h : ∀ move, s.Moves text rename move → p (move.toMove rename)) :
    ∀ mv ∈ (s.routineMoves text rename).map (RoutineMove.toMove rename), p mv := by
  intro mv hmv
  obtain ⟨move, hmove, rfl⟩ := List.mem_map.mp hmv
  exact h move (mem_routineMoves.mp hmove)

theorem mem_toMove {move : RoutineMove} (h : s.Moves text rename move) :
    move.toMove rename ∈ (s.routineMoves text rename).map (RoutineMove.toMove rename) :=
  List.mem_map_of_mem (mem_routineMoves.mpr h)

theorem EverythingFollows.follow_eq (h : s.EverythingFollows text rename)
    (hc : s.NoRoutineConflict text rename) (id : ObjectId) :
    follow ((s.routineMoves text rename).map (RoutineMove.toMove rename)) id =
      substRoutineId s text rename id := by
  by_cases hmoved : ∃ move, s.Moves text rename move ∧ move.oldId = id
  · obtain ⟨move, hmove, rfl⟩ := hmoved
    have hfollow := (h.independent hc).follow_source (mem_toMove hmove)
    obtain ⟨f, hf, hsome⟩ := hmove
    have hkey : substRoutineId s text rename move.oldId = substRoutineKey text rename move.oldId f := by
      rw [substRoutineId, hf]
    rw [hkey, ← ((h.routines _ f hf).moved hsome).1]
    exact hfollow
  · have hnot : ∀ move, s.Moves text rename move → id ≠ move.oldId :=
      fun move hmove he => hmoved ⟨move, hmove, he.symm⟩
    rw [follow_of_not_source (forall_mem_toMove hnot), substRoutineId]
    split
    · rename_i f hf
      cases hmove : rename.routineMove text id f with
      | none => exact ((h.routines id f hf).unmoved hmove).1.symm
      | some move =>
        have hold : move.oldId = id := by rw [routineMove_eq_some hmove]
        exact absurd hold.symm (hnot move ⟨f, hold ▸ hf, hold ▸ hmove⟩)
    · rfl

/-- The new identity of a routine is free for it alone. -/
theorem NoRoutineConflict.not_target (hc : s.NoRoutineConflict text rename) {id : ObjectId}
    {f : FunctionState} (hf : s.functions.lookup id = some (.present f))
    (hnone : rename.routineMove text id f = none) :
    ∀ move, s.Moves text rename move → id ≠ move.newId := by
  rintro move hmove rfl
  rcases hc.free move hmove with hfree | ⟨move', hmove', hold⟩
  · rw [hf] at hfree
    cases hfree
  · exact not_source_of_none hf hnone move' hmove' hold.symm

theorem lookup_renameType_moved (hind : Independent ((s.routineMoves text rename).map
    (RoutineMove.toMove rename))) {move : RoutineMove} {f : FunctionState}
    (hf : s.functions.lookup move.oldId = some (.present f))
    (hmove : rename.routineMove text move.oldId f = some move) :
    (s.renameType text rename).functions.lookup move.newId =
      some (.present (rename.retypeRoutine move (rename.retypeOwner f))) := by
  rw [renameType_functions]
  exact lookup_run_target hind (mem_toMove ⟨f, hf, hmove⟩) (lookup_mapValues_of_present hf) rfl

theorem lookup_renameType_unmoved (hc : s.NoRoutineConflict text rename) {id : ObjectId}
    {f : FunctionState} (hf : s.functions.lookup id = some (.present f))
    (hnone : rename.routineMove text id f = none) :
    (s.renameType text rename).functions.lookup id = some (.present (rename.retypeOwner f)) := by
  rw [renameType_functions, lookup_run_untouched
    (forall_mem_toMove fun move hmove => not_source_of_none hf hnone move hmove)
    (forall_mem_toMove fun move hmove => hc.not_target hf hnone move hmove)]
  exact lookup_mapValues_of_present hf

theorem EverythingFollows.routines_carried (h : s.EverythingFollows text rename)
    (hc : s.NoRoutineConflict text rename) :
    Carried (substRoutineKey text rename) (substRoutine s text rename) s.functions
      (s.renameType text rename).functions where
  carried := by
    intro id f hf
    have hfollows := h.routines id f hf
    cases hmove : rename.routineMove text id f with
    | none =>
      obtain ⟨hkey, hvalue⟩ := hfollows.unmoved hmove
      rw [hkey, ← hvalue]
      exact lookup_renameType_unmoved hc hf hmove
    | some move =>
      obtain ⟨hkey, hvalue⟩ := hfollows.moved hmove
      have hold : move.oldId = id := by rw [routineMove_eq_some hmove]
      subst hold
      rw [← hkey, ← hvalue]
      exact lookup_renameType_moved (h.independent hc) hf hmove
  source := by
    intro id' f' hf'
    rw [renameType_functions] at hf'
    rcases lookup_run_cases (h.independent hc) hf' with ⟨mv, hmv, rfl⟩ | ⟨hstay, hkept⟩
    · obtain ⟨move, hmem, rfl⟩ := List.mem_map.mp hmv
      obtain ⟨f, hf, hmove⟩ := mem_routineMoves.mp hmem
      obtain ⟨hkey, hvalue⟩ := (h.routines _ f hf).moved hmove
      have htarget := lookup_renameType_moved (h.independent hc) hf hmove
      rw [renameType_functions] at htarget
      have hsame := htarget.symm.trans hf'
      refine ⟨move.oldId, f, hf, hkey.symm, ?_⟩
      rw [← hvalue]
      simpa using hsame
    · obtain ⟨f, hf, rfl⟩ := lookup_mapValues_present hkept
      cases hmove : rename.routineMove text id' f with
      | none =>
        obtain ⟨hkey, hvalue⟩ := (h.routines id' f hf).unmoved hmove
        exact ⟨id', f, hf, hkey, hvalue.symm⟩
      | some move =>
        have hold : move.oldId = id' := by rw [routineMove_eq_some hmove]
        have hmoves : s.Moves text rename move := ⟨f, hold ▸ hf, hold ▸ hmove⟩
        exact absurd hold.symm (hstay _ (mem_toMove hmoves))
  distinct := by
    intro id₁ f₁ id₂ f₂ hf₁ hf₂ hkey
    have hnew : ∀ id f, s.functions.lookup id = some (.present f) →
        (∃ move, s.Moves text rename move ∧ move.oldId = id ∧
          move.newId = substRoutineKey text rename id f) ∨
        rename.routineMove text id f = none ∧ substRoutineKey text rename id f = id := by
      intro id f hf
      cases hmove : rename.routineMove text id f with
      | none => exact Or.inr ⟨rfl, ((h.routines id f hf).unmoved hmove).1⟩
      | some move =>
        have hold : move.oldId = id := by rw [routineMove_eq_some hmove]
        exact Or.inl ⟨move, ⟨f, hold ▸ hf, hold ▸ hmove⟩, hold, ((h.routines id f hf).moved hmove).1⟩
    rcases hnew id₁ f₁ hf₁ with ⟨move₁, hmove₁, rfl, hnew₁⟩ | ⟨hnone₁, hself₁⟩
    · rcases hnew id₂ f₂ hf₂ with ⟨move₂, hmove₂, rfl, hnew₂⟩ | ⟨hnone₂, hself₂⟩
      · exact hc.distinct move₁ move₂ hmove₁ hmove₂ (hnew₁.trans (hkey.trans hnew₂.symm))
      · have hland : id₂ = move₁.newId := hself₂.symm.trans (hkey.symm.trans hnew₁.symm)
        exact absurd hland (hc.not_target hf₂ hnone₂ move₁ hmove₁)
    · rcases hnew id₂ f₂ hf₂ with ⟨move₂, hmove₂, rfl, hnew₂⟩ | ⟨hnone₂, hself₂⟩
      · have hland : id₁ = move₂.newId := hself₁.symm.trans (hkey.trans hnew₂.symm)
        exact absurd hland (hc.not_target hf₁ hnone₁ move₂ hmove₂)
      · exact hself₁.symm.trans (hkey.trans hself₂)

theorem types_carried (ha : s.AdmitsTypeRename rename)
    (hkinds : ∀ k type, s.types.lookup k = some (.present type) →
      KindFollows s text rename type.kind) :
    Carried (fun k _ => renameId rename.oldName rename.newName k) (substType s text rename) s.types
      (s.renameType text rename).types where
  carried := by
    intro k type hk
    rw [renameType_types, lookup_mapValues_of_present (lookup_moveType_present ha hk)]
    rw [Rename.retypeType, retypeKind_eq (hkinds k type hk)]
    rfl
  source := by
    intro k' type' hk'
    rw [renameType_types] at hk'
    obtain ⟨moved, hmoved, rfl⟩ := lookup_mapValues_present hk'
    obtain ⟨k, type, hk, hkey, rfl⟩ := lookup_moveType_source ha hmoved
    refine ⟨k, type, hk, hkey, ?_⟩
    rw [Rename.retypeType, retypeKind_eq (hkinds k type hk)]
    rfl
  distinct := by
    intro k₁ type₁ k₂ type₂ hk₁ hk₂ hkey
    have hother : ∀ k type, s.types.lookup k = some (.present type) → k ≠ rename.oldName →
        k ≠ rename.newName := by
      rintro k type hk hold rfl
      exact ha.not_present (fun he => hold he.symm) type hk
    by_cases h₁ : k₁ = rename.oldName
    · by_cases h₂ : k₂ = rename.oldName
      · exact h₁.trans h₂.symm
      · rw [renameId, if_pos h₁, renameId, if_neg h₂] at hkey
        exact absurd hkey.symm (hother k₂ type₂ hk₂ h₂)
    · by_cases h₂ : k₂ = rename.oldName
      · rw [renameId, if_neg h₁, renameId, if_pos h₂] at hkey
        exact absurd hkey (hother k₁ type₁ hk₁ h₁)
      · rw [renameId, if_neg h₁, renameId, if_neg h₂] at hkey
        exact hkey

theorem retypeMember_eq {member : ExtensionMember} (h : MemberFollows s text rename member) :
    rename.retypeMember member = substMember s text rename member := by
  obtain ⟨kind, id⟩ := member
  cases kind with
  | type =>
    by_cases hold : id = rename.oldName
    · simp [Rename.retypeMember, substMember, Rename.substId, hold]
    · have hnot : ¬rename.Names id := by
        rintro (he | he)
        · exact hold he
        · exact h.1 rfl he
      simp [Rename.retypeMember, substMember, hold, Rename.substId_of_not_names hnot]
  | routine =>
    have hself : substRoutineId s text rename id = id := h.2 rfl
    simp [Rename.retypeMember, substMember, hself]
  | _ => simp [Rename.retypeMember, substMember]

theorem retypeExtension_eq {extension : ExtensionState}
    (h : ∀ member ∈ extension.members, MemberFollows s text rename member) :
    rename.retypeExtension extension = substExtension s text rename extension := by
  have himage : extension.members.image rename.retypeMember =
      extension.members.image (substMember s text rename) :=
    Finset.image_congr fun member hmem => retypeMember_eq (h member hmem)
  rw [Rename.retypeExtension, substExtension, himage]

theorem renameType_edges (hind : Independent ((s.routineMoves text rename).map
    (RoutineMove.toMove rename))) {e : DependencyEdge} (hkind : e.kind ≠ .renameTo) :
    e ∈ (s.renameType text rename).graph.edges ↔ ∃ x ∈ s.graph.edges,
      (x.renameType rename.oldName rename.newName).mapRoutines
        (follow ((s.routineMoves text rename).map (RoutineMove.toMove rename))) = e := by
  have hloop := foldl_moveRoutine_edges (s := { s.snapshotNamespace with
    graph := s.graph.propagateTypeRename rename.oldName rename.newName
    types := mapValues (Overlay.map (rename.retypeType text)) (rename.moveType s.types)
    relations := mapValues (Overlay.map (rename.retypeRelation text)) s.relations
    functions := mapValues (Overlay.map rename.retypeOwner) s.functions }) hind ?_ hkind
  · refine hloop.trans ?_
    simp only [DependencyGraph.propagateTypeRename, DependencyGraph.mem_mapEdges,
      exists_exists_and_eq_and]
  · intro move hmove
    obtain ⟨f, hf, -⟩ := mem_routineMoves.mp hmove
    exact ⟨rename.retypeOwner f, lookup_mapValues_of_present hf⟩

theorem mapRoutines_renameType_eq {e : DependencyEdge} (h : EdgeFollows rename e) :
    (e.renameType rename.oldName rename.newName).mapRoutines (substRoutineId s text rename) =
      substEdge s text rename e := by
  obtain ⟨dependent, referenced, kind⟩ := e
  cases kind with
  | viewUsesType =>
    have hend : renameId rename.oldName rename.newName referenced = rename.substId referenced := by
      by_cases hold : referenced = rename.oldName
      · rw [renameId, if_pos hold, Rename.substId, if_pos hold]
      · have hnot : ¬rename.Names referenced := by
          rintro (he | he)
          · exact hold he
          · exact h rfl he
        rw [renameId, if_neg hold, Rename.substId_of_not_names hnot]
    simp only [DependencyEdge.renameType, DependencyEdge.mapRoutines, substEdge, hend]
  | viewUsesRoutine name =>
    cases name with
    | none => rfl
    | some name => rfl
  | _ => rfl

theorem EverythingFollows.substituted (h : s.EverythingFollows text rename)
    (ha : s.AdmitsTypeRename rename) (hc : s.NoRoutineConflict text rename) :
    TypeSubstituted text rename s (s.renameType text rename) where
  relations := by
    rw [renameType_relations]
    exact carried_mapValues fun k r hk => retypeRelation_eq (h.relations k r hk)
  types := types_carried ha h.types
  routines := h.routines_carried hc
  extensions := by
    rw [renameType_extensions]
    exact carried_mapValues fun k extension hk => retypeExtension_eq (h.members k extension hk)
  edges := by
    intro e hkind
    have hfollow : follow ((s.routineMoves text rename).map (RoutineMove.toMove rename)) =
        substRoutineId s text rename := funext (h.follow_eq hc)
    rw [renameType_edges (h.independent hc) hkind, hfollow]
    constructor
    · rintro ⟨x, hx, rfl⟩
      exact ⟨x, hx, (mapRoutines_renameType_eq (h.edges x hx)).symm⟩
    · rintro ⟨x, hx, rfl⟩
      exact ⟨x, hx, mapRoutines_renameType_eq (h.edges x hx)⟩

end Sufficient

/-! The map of routines in another iteration order. -/

section Orders

variable {s : AnalysisState} {text : SqlText} {rename : Rename}
  {m : KeyedMap ObjectId FunctionOverlay}

theorem substRoutineId_setFunctions (hm : Reordered s.functions m) :
    substRoutineId (s.setFunctions m) text rename = substRoutineId s text rename := by
  funext id
  have hlookup : (s.setFunctions m).functions.lookup id = s.functions.lookup id := hm.lookup_eq id
  rw [substRoutineId, substRoutineId, hlookup]

theorem kindFollows_setFunctions (hm : Reordered s.functions m) {kind : TypeKind} :
    KindFollows (s.setFunctions m) text rename kind ↔ KindFollows s text rename kind := by
  cases kind with
  | range state => simp only [KindFollows, substRoutineId_setFunctions hm]
  | _ => exact Iff.rfl

theorem memberFollows_setFunctions (hm : Reordered s.functions m) {member : ExtensionMember} :
    MemberFollows (s.setFunctions m) text rename member ↔ MemberFollows s text rename member := by
  simp only [MemberFollows, substRoutineId_setFunctions hm]

theorem EverythingFollows.setFunctions (h : s.EverythingFollows text rename)
    (hm : Reordered s.functions m) : (s.setFunctions m).EverythingFollows text rename where
  relations := h.relations
  types k type hk := (kindFollows_setFunctions hm).mpr (h.types k type hk)
  routines k f hk := by
    have hf : s.functions.lookup k = some (.present f) := (hm.lookup_eq k).symm.trans hk
    have hfollows := h.routines k f hf
    exact ⟨hfollows.canonical, hfollows.recognised, hfollows.parameters⟩
  unchained move move' hmove hmove' :=
    h.unchained move move' ((moves_setFunctions hm).mp hmove) ((moves_setFunctions hm).mp hmove')
  members k extension hk member hmember :=
    (memberFollows_setFunctions hm).mpr (h.members k extension hk member hmember)
  edges := h.edges

theorem AdmitsTypeRename.setFunctions (h : s.AdmitsTypeRename rename)
    (m : KeyedMap ObjectId FunctionOverlay) : (s.setFunctions m).AdmitsTypeRename rename :=
  ⟨h.found, h.free, h.schema⟩

theorem routineIsPresent_of_taken {id : ObjectId} (htaken : routineTaken s text rename id = true)
    (hlive : s.functions.lookup id ≠ some .dropped) : s.routineIsPresent id = true := by
  cases hlookup : s.functions.lookup id with
  | none =>
    rw [routineTaken_eq_false.mpr (Or.inl hlookup)] at htaken
    cases htaken
  | some overlay =>
    cases overlay with
    | dropped => exact absurd hlookup hlive
    | present f =>
      rw [routineIsPresent, hlookup]
      rfl

theorem routineIsPresent_setFunctions (hm : Reordered s.functions m) (id : ObjectId) :
    (s.setFunctions m).routineIsPresent id = s.routineIsPresent id := by
  have hlookup : (s.setFunctions m).functions.lookup id = s.functions.lookup id := hm.lookup_eq id
  rw [routineIsPresent, routineIsPresent, hlookup]

/-- A refusal names a live routine. -/
theorem TypeRenameTotal.refused (h : s.TypeRenameTotal text rename) (hm : Reordered s.functions m)
    {id : ObjectId} (hconflict : (s.setFunctions m).routineConflict text rename = some id) :
    (s.setFunctions m).routineIsPresent id = true := by
  obtain ⟨hmem, hcase⟩ := firstTaken_eq_some hconflict
  rcases hcase with htaken | hseen | htwice
  · obtain ⟨move, hmove, rfl⟩ := List.mem_map.mp hmem
    have hmoves := (moves_setFunctions hm).mp (mem_routineMoves.mp hmove)
    refine routineIsPresent_of_taken htaken ?_
    have hlive := h.tombstones move hmoves
    rw [← hm.lookup_eq] at hlive
    exact hlive
  · cases hseen
  · obtain ⟨pair, hsub, hpair⟩ := List.sublist_map_iff.mp htwice
    have hlength : pair.length = 2 := by
      have h := congrArg List.length hpair
      simpa using h.symm
    obtain ⟨move, move', rfl⟩ := List.length_eq_two.mp hlength
    obtain ⟨hnew, hnew'⟩ : id = move.newId ∧ id = move'.newId := by simpa using hpair
    have hmoves : ∀ x ∈ [move, move'], s.Moves text rename x := fun x hx =>
      (moves_setFunctions hm).mp (mem_routineMoves.mp (hsub.subset hx))
    have hne : move.oldId ≠ move'.oldId := by
      have hnodup : ([move, move'].map (·.oldId)).Nodup :=
        routineMoves_sources_nodup.sublist (hsub.map _)
      simpa using hnodup
    rw [routineIsPresent_setFunctions hm, hnew]
    exact h.shared move move' (hmoves move (by simp)) (hmoves move' (by simp))
      (hnew.symm.trans hnew') hne

theorem TypeRenameTotal.renamesEverything (h : s.TypeRenameTotal text rename)
    (ha : s.AdmitsTypeRename rename) (hm : Reordered s.functions m) :
    (s.setFunctions m).RenamesEverything text rename where
  applied := by
    rw [applyRenameType_of_admits (ha.setFunctions m)]
    cases hconflict : (s.setFunctions m).routineConflict text rename with
    | some id =>
      intro happlied
      cases happlied
    | none =>
      intro _
      have hc := routineConflict_eq_none.mp hconflict
      have hfollows := (h.follows ((noRoutineConflict_setFunctions hm).mp hc)).setFunctions hm
      have hsubst := hfollows.substituted (ha.setFunctions m) hc
      exact ⟨hsubst, hsubst.nothingNamed⟩
  refused _ hconflict := h.refused hm hconflict

end Orders

end AnalysisState

end SafeMigrate
