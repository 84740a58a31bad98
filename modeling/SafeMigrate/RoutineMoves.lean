import SafeMigrate.TypeSubstitution

/-! The routines that a type rename moves: which they are, when their new
identities collide, and what the loop over them does to maps and edges. -/

namespace SafeMigrate

open MapRebuild MapMoves

/-- What a move does to the overlay it finds. -/
def RoutineMove.toMove (rename : Rename) (move : RoutineMove) : Move ObjectId FunctionOverlay where
  source := move.oldId
  target := move.newId
  change
    | .present f => some (.present (rename.retypeRoutine move f))
    | .dropped => none

/-- An edge with another identity for each routine it names. -/
def DependencyEdge.mapRoutines (φ : ObjectId → ObjectId) (e : DependencyEdge) : DependencyEdge :=
  match e.kind with
  | .triggerOnTable triggerId functionId generation =>
    { e with kind := .triggerOnTable triggerId (φ functionId) generation }
  | .viewUsesRoutine none => { e with referenced := φ e.referenced }
  | _ => e

namespace AnalysisState

/-- The routine `move.oldId` is present and its identity or texts change. -/
def Moves (s : AnalysisState) (text : SqlText) (rename : Rename) (move : RoutineMove) : Prop :=
  ∃ f, s.functions.lookup move.oldId = some (.present f) ∧
    rename.routineMove text move.oldId f = some move

/-- No new identity is shared, or held by an overlay that stays. -/
structure NoRoutineConflict (s : AnalysisState) (text : SqlText) (rename : Rename) : Prop where
  distinct : ∀ move move', s.Moves text rename move → s.Moves text rename move' →
    move.newId = move'.newId → move.oldId = move'.oldId
  free : ∀ move, s.Moves text rename move → s.functions.lookup move.newId = none ∨
    ∃ move', s.Moves text rename move' ∧ move'.oldId = move.newId

end AnalysisState

section Moves

variable {s : AnalysisState} {text : SqlText} {rename : Rename} {move : RoutineMove}

theorem routineMove_eq_some {id : ObjectId} {f : FunctionState}
    (h : rename.routineMove text id f = some move) :
    move = { oldId := id, newId := routineIdentity id (rename.renamedArgTypes text f),
             argTypes := rename.renamedArgTypes text f,
             returnType := rename.renamedReturnType text f } := by
  simp only [Rename.routineMove] at h
  split at h
  · exact (Option.some.inj h).symm
  · cases h

theorem routineMove_eq_none {id : ObjectId} {f : FunctionState} :
    rename.routineMove text id f = none ↔
      routineIdentity id (rename.renamedArgTypes text f) = id ∧
        rename.renamedArgTypes text f = f.argTypes ∧
          rename.renamedReturnType text f = f.returnType := by
  simp only [Rename.routineMove, ite_eq_right_iff, reduceCtorEq, imp_false, not_or, not_not]

theorem routineMove_isSome_of_ne {id : ObjectId} {f : FunctionState}
    (h : routineIdentity id (rename.renamedArgTypes text f) ≠ id) :
    ∃ move, rename.routineMove text id f = some move ∧ move.oldId = id ∧
      move.newId = routineIdentity id (rename.renamedArgTypes text f) := by
  cases hmove : rename.routineMove text id f with
  | none => exact absurd (routineMove_eq_none.mp hmove).1 h
  | some move =>
    obtain rfl := routineMove_eq_some hmove
    exact ⟨_, rfl, rfl, rfl⟩

theorem mem_routineMoves : move ∈ s.routineMoves text rename ↔ s.Moves text rename move := by
  constructor
  · intro h
    obtain ⟨⟨id, overlay⟩, hentry, hmove⟩ := List.mem_filterMap.mp h
    cases overlay with
    | dropped => cases hmove
    | present f =>
      have hsome : rename.routineMove text id f = some move := hmove
      have hid : move.oldId = id := by rw [routineMove_eq_some hsome]
      refine ⟨f, ?_, ?_⟩
      · rw [hid]
        exact mem_entries_iff.mp hentry
      · rw [hid]
        exact hmove
  · rintro ⟨f, hf, hmove⟩
    exact List.mem_filterMap.mpr ⟨⟨move.oldId, .present f⟩, mem_entries_iff.mpr hf, hmove⟩

/-- The moved identities are keys of the map, in its order. -/
theorem routineMoves_sources_nodup : ((s.routineMoves text rename).map (·.oldId)).Nodup := by
  have hsub : ∀ entries : List (Sigma fun _ : ObjectId => FunctionOverlay),
      ((entries.filterMap (rename.overlayMove text)).map (·.oldId)).Sublist entries.keys := by
    intro entries
    induction entries with
    | nil => exact List.Sublist.refl _
    | cons entry entries ih =>
      obtain ⟨id, overlay⟩ := entry
      cases hmove : rename.overlayMove text ⟨id, overlay⟩ with
      | none =>
        rw [List.filterMap_cons_none hmove, List.keys_cons]
        exact ih.cons _
      | some move =>
        have hid : move.oldId = id := by
          cases overlay with
          | dropped => cases hmove
          | present f =>
            have hsome : rename.routineMove text id f = some move := hmove
            rw [routineMove_eq_some hsome]
        rw [List.filterMap_cons_some hmove, List.keys_cons, List.map_cons, hid]
        exact ih.cons_cons _
  have hkeys : s.functions.entries.keys.Nodup := s.functions.nodupKeys
  exact hkeys.sublist (hsub s.functions.entries)

theorem moves_unique {move' : RoutineMove} (h : s.Moves text rename move)
    (h' : s.Moves text rename move') (hid : move.oldId = move'.oldId) : move = move' := by
  obtain ⟨f, hf, hmove⟩ := h
  obtain ⟨f', hf', hmove'⟩ := h'
  rw [hid, hf'] at hf
  obtain rfl : f' = f := by simpa using hf
  rw [hid] at hmove
  rw [hmove'] at hmove
  exact (Option.some.inj hmove).symm

theorem moves_setFunctions {m : KeyedMap ObjectId FunctionOverlay} (hm : Reordered s.functions m) :
    (s.setFunctions m).Moves text rename move ↔ s.Moves text rename move := by
  show (∃ f, m.lookup move.oldId = some (.present f) ∧ _) ↔ _
  rw [hm.lookup_eq]
  exact Iff.rfl

end Moves

/-! The check for collisions. -/

section Conflict

variable {s : AnalysisState} {text : SqlText} {rename : Rename}

theorem firstTaken_eq_none {taken : ObjectId → Bool} {seen ids : List ObjectId} :
    AnalysisState.firstTaken taken seen ids = none ↔
      ids.Nodup ∧ (∀ id ∈ ids, id ∉ seen) ∧ ∀ id ∈ ids, taken id = false := by
  induction ids generalizing seen with
  | nil => simp [AnalysisState.firstTaken]
  | cons id ids ih =>
    by_cases htaken : id ∈ seen ∨ taken id = true
    · simp only [AnalysisState.firstTaken, htaken, if_true, reduceCtorEq, false_iff]
      rintro ⟨-, hseen, hfree⟩
      rcases htaken with h | h
      · exact hseen id List.mem_cons_self h
      · rw [hfree id List.mem_cons_self] at h
        cases h
    · simp only [AnalysisState.firstTaken, htaken, if_false, ih, List.nodup_cons]
      obtain ⟨hseen, hfree⟩ := not_or.mp htaken
      constructor
      · rintro ⟨hnodup, hnew, hrest⟩
        refine ⟨⟨fun hmem => hnew id hmem List.mem_cons_self, hnodup⟩, ?_, ?_⟩
        · refine List.forall_mem_cons.mpr ⟨hseen, fun x hx hs => ?_⟩
          exact hnew x hx (List.mem_cons_of_mem _ hs)
        · exact List.forall_mem_cons.mpr ⟨by simpa using hfree, hrest⟩
      · rintro ⟨⟨hnotin, hnodup⟩, hnew, hall⟩
        refine ⟨hnodup, ?_, fun x hx => hall x (List.mem_cons_of_mem _ hx)⟩
        intro x hx hmem
        rcases List.mem_cons.mp hmem with rfl | hmem
        · exact hnotin hx
        · exact hnew x (List.mem_cons_of_mem _ hx) hmem

/-- A reported identity is held by an overlay or was already claimed. -/
theorem firstTaken_eq_some {taken : ObjectId → Bool} {seen ids : List ObjectId} {id : ObjectId}
    (h : AnalysisState.firstTaken taken seen ids = some id) :
    id ∈ ids ∧ (taken id = true ∨ id ∈ seen ∨ [id, id].Sublist ids) := by
  induction ids generalizing seen with
  | nil => cases h
  | cons x ids ih =>
    by_cases htaken : x ∈ seen ∨ taken x = true
    · simp only [AnalysisState.firstTaken, htaken, if_true, Option.some.injEq] at h
      subst h
      refine ⟨List.mem_cons_self, ?_⟩
      rcases htaken with h | h
      · exact Or.inr (Or.inl h)
      · exact Or.inl h
    · simp only [AnalysisState.firstTaken, htaken, if_false] at h
      obtain ⟨hmem, hcase⟩ := ih h
      refine ⟨List.mem_cons_of_mem _ hmem, ?_⟩
      rcases hcase with h | h | h
      · exact Or.inl h
      · rcases List.mem_cons.mp h with rfl | h
        · exact Or.inr (Or.inr ((List.singleton_sublist.mpr hmem).cons_cons id))
        · exact Or.inr (Or.inl h)
      · exact Or.inr (Or.inr (h.cons x))

/-- An identity that some overlay holds which does not move away. -/
def routineTaken (s : AnalysisState) (text : SqlText) (rename : Rename) (id : ObjectId) : Bool :=
  s.functions.keys.contains id && !((s.routineMoves text rename).map (·.oldId)).contains id

theorem routineTaken_eq_false {id : ObjectId} : routineTaken s text rename id = false ↔
    s.functions.lookup id = none ∨ ∃ move, s.Moves text rename move ∧ move.oldId = id := by
  rw [routineTaken, Bool.and_eq_false_iff, Bool.not_eq_false', List.contains_eq_mem,
    List.contains_eq_mem, decide_eq_false_iff_not, decide_eq_true_iff, List.mem_map,
    AList.lookup_eq_none, AList.mem_keys]
  simp only [mem_routineMoves]

theorem AnalysisState.NoRoutineConflict.targets_nodup (h : s.NoRoutineConflict text rename) :
    ((s.routineMoves text rename).map (·.newId)).Nodup := by
  refine List.Nodup.map_on ?_ routineMoves_sources_nodup.of_map
  intro move hmove move' hmove' htarget
  have hmoves := mem_routineMoves.mp hmove
  have hmoves' := mem_routineMoves.mp hmove'
  exact moves_unique hmoves hmoves' (h.distinct move move' hmoves hmoves' htarget)

theorem routineConflict_eq_none :
    s.routineConflict text rename = none ↔ s.NoRoutineConflict text rename := by
  have hcheck : s.routineConflict text rename = none ↔
      ((s.routineMoves text rename).map (·.newId)).Nodup ∧
        (∀ id ∈ (s.routineMoves text rename).map (·.newId), id ∉ ([] : List ObjectId)) ∧
          ∀ id ∈ (s.routineMoves text rename).map (·.newId), routineTaken s text rename id = false :=
    firstTaken_eq_none
  rw [hcheck]
  constructor
  · rintro ⟨hnodup, -, hfree⟩
    refine ⟨?_, ?_⟩
    · intro move move' h h' htarget
      have hsame := List.inj_on_of_nodup_map hnodup (mem_routineMoves.mpr h)
        (mem_routineMoves.mpr h') htarget
      rw [hsame]
    · intro move h
      exact routineTaken_eq_false.mp
        (hfree move.newId (List.mem_map_of_mem (mem_routineMoves.mpr h)))
  · intro h
    refine ⟨h.targets_nodup, by simp, ?_⟩
    intro id hid
    obtain ⟨move, hmove, rfl⟩ := List.mem_map.mp hid
    exact routineTaken_eq_false.mpr (h.free move (mem_routineMoves.mp hmove))

theorem noRoutineConflict_setFunctions {m : KeyedMap ObjectId FunctionOverlay}
    (hm : Reordered s.functions m) :
    (s.setFunctions m).NoRoutineConflict text rename ↔ s.NoRoutineConflict text rename := by
  have hlookup : ∀ id, (s.setFunctions m).functions.lookup id = s.functions.lookup id :=
    fun id => hm.lookup_eq id
  constructor
  · rintro ⟨hdistinct, hfree⟩
    simp only [moves_setFunctions hm, hlookup] at hdistinct hfree
    exact ⟨hdistinct, hfree⟩
  · rintro ⟨hdistinct, hfree⟩
    refine ⟨?_, ?_⟩
    · simpa only [moves_setFunctions hm] using hdistinct
    · simpa only [moves_setFunctions hm, hlookup] using hfree

end Conflict

/-! The loop over the moves. -/

section Loop

variable {s : AnalysisState} {text : SqlText} {rename : Rename}

theorem moveRoutine_functions (move : RoutineMove) :
    (s.moveRoutine rename move).functions = (move.toMove rename).apply s.functions := by
  cases hlookup : s.functions.lookup move.oldId with
  | none => simp [AnalysisState.moveRoutine, Move.apply, RoutineMove.toMove, hlookup,
      AnalysisState.setFunctions]
  | some overlay =>
    cases overlay with
    | dropped => simp [AnalysisState.moveRoutine, Move.apply, RoutineMove.toMove, hlookup,
        AnalysisState.setFunctions]
    | present f =>
      simp only [AnalysisState.moveRoutine, Move.apply, RoutineMove.toMove, hlookup,
        Option.bind_some]
      split <;> rfl

/-- The loop leaves everything but the routines and the graph alone. -/
theorem moveRoutine_frame (move : RoutineMove) :
    (s.moveRoutine rename move).relations = s.relations ∧
      (s.moveRoutine rename move).types = s.types ∧
        (s.moveRoutine rename move).extensions = s.extensions := by
  unfold AnalysisState.moveRoutine
  split
  · split <;> exact ⟨rfl, rfl, rfl⟩
  · exact ⟨rfl, rfl, rfl⟩

theorem foldl_moveRoutine_functions (moves : List RoutineMove) :
    (moves.foldl (fun s move => s.moveRoutine rename move) s).functions =
      run (moves.map (RoutineMove.toMove rename)) s.functions := by
  induction moves generalizing s with
  | nil => rfl
  | cons move moves ih =>
    rw [List.foldl_cons, ih, moveRoutine_functions]
    rfl

theorem foldl_moveRoutine_frame (moves : List RoutineMove) :
    (moves.foldl (fun s move => s.moveRoutine rename move) s).relations = s.relations ∧
      (moves.foldl (fun s move => s.moveRoutine rename move) s).types = s.types ∧
        (moves.foldl (fun s move => s.moveRoutine rename move) s).extensions = s.extensions := by
  induction moves generalizing s with
  | nil => exact ⟨rfl, rfl, rfl⟩
  | cons move moves ih =>
    obtain ⟨hr, ht, he⟩ := ih (s := s.moveRoutine rename move)
    have hstep : (s.moveRoutine rename move).relations = s.relations ∧
        (s.moveRoutine rename move).types = s.types ∧
          (s.moveRoutine rename move).extensions = s.extensions := moveRoutine_frame move
    exact ⟨hr.trans hstep.1, ht.trans hstep.2.1, he.trans hstep.2.2⟩

theorem mapRoutines_kind {φ : ObjectId → ObjectId} {e : DependencyEdge} :
    (e.mapRoutines φ).kind = .renameTo ↔ e.kind = .renameTo := by
  unfold DependencyEdge.mapRoutines
  split
  · rename_i heq
    simp [heq]
  · exact Iff.rfl
  · exact Iff.rfl

theorem mapRoutines_mapRoutines (φ ψ : ObjectId → ObjectId) (e : DependencyEdge) :
    (e.mapRoutines φ).mapRoutines ψ = e.mapRoutines fun id => ψ (φ id) := by
  obtain ⟨dependent, referenced, kind⟩ := e
  cases kind with
  | viewUsesRoutine name =>
    cases name with
    | none => rfl
    | some name => rfl
  | _ => rfl

theorem mapRoutines_id {φ : ObjectId → ObjectId} (hφ : ∀ id, φ id = id) (e : DependencyEdge) :
    e.mapRoutines φ = e := by
  obtain ⟨dependent, referenced, kind⟩ := e
  cases kind with
  | viewUsesRoutine name =>
    cases name with
    | none => simp only [DependencyEdge.mapRoutines, hφ]
    | some name => rfl
  | triggerOnTable triggerId functionId generation => simp only [DependencyEdge.mapRoutines, hφ]
  | _ => rfl

theorem renameFunction_eq (oldId newId : ObjectId) (e : DependencyEdge) :
    e.renameFunction oldId newId = e.mapRoutines (renameId oldId newId) := by
  obtain ⟨dependent, referenced, kind⟩ := e
  cases kind with
  | viewUsesRoutine name =>
    cases name with
    | none => rfl
    | some name => rfl
  | _ => rfl

theorem moveRoutine_edges {move : RoutineMove} {f : FunctionState}
    (hf : s.functions.lookup move.oldId = some (.present f)) {e : DependencyEdge}
    (hkind : e.kind ≠ .renameTo) : e ∈ (s.moveRoutine rename move).graph.edges ↔
      ∃ x ∈ s.graph.edges, x.mapRoutines (renameId move.oldId move.newId) = e := by
  by_cases hid : move.oldId = move.newId
  · have hself : ∀ id, renameId move.oldId move.newId id = id := by
      intro id
      rw [← hid]
      by_cases h : id = move.oldId
      · rw [renameId, if_pos h, h]
      · rw [renameId, if_neg h]
    have hsame : (s.moveRoutine rename move).graph = s.graph := by
      simp only [AnalysisState.moveRoutine, hf, hid, ne_eq, not_true_eq_false, if_false]
      rfl
    simp only [hsame, mapRoutines_id hself, exists_eq_right]
  · have hgraph : (s.moveRoutine rename move).graph =
        (s.graph.propagateFunctionRename move.oldId move.newId).addEdge
          ⟨move.oldId, move.newId, .renameTo⟩ := by
      simp only [AnalysisState.moveRoutine, hf, ne_eq, hid, not_false_eq_true, if_true]
      rfl
    rw [hgraph, DependencyGraph.mem_addEdge, DependencyGraph.propagateFunctionRename,
      DependencyGraph.mem_mapEdges]
    simp only [renameFunction_eq]
    constructor
    · rintro (h | rfl)
      · exact h
      · exact absurd rfl hkind
    · exact Or.inl

/-- Moves that do not interfere rewrite every edge once. -/
theorem foldl_moveRoutine_edges {moves : List RoutineMove}
    (hind : Independent (moves.map (RoutineMove.toMove rename)))
    (hpresent : ∀ move ∈ moves, ∃ f, s.functions.lookup move.oldId = some (.present f))
    {e : DependencyEdge} (hkind : e.kind ≠ .renameTo) :
    e ∈ (moves.foldl (fun s move => s.moveRoutine rename move) s).graph.edges ↔
      ∃ x ∈ s.graph.edges, x.mapRoutines (follow (moves.map (RoutineMove.toMove rename))) = e := by
  induction moves generalizing s with
  | nil =>
    have hself : ∀ x : DependencyEdge,
        x.mapRoutines (follow (([] : List RoutineMove).map (RoutineMove.toMove rename))) = x :=
      mapRoutines_id fun _ => rfl
    simp only [hself, exists_eq_right]
    exact Iff.rfl
  | cons move moves ih =>
    obtain ⟨f, hf⟩ := hpresent move List.mem_cons_self
    have hrest : ∀ move' ∈ moves,
        ∃ f, (s.moveRoutine rename move).functions.lookup move'.oldId = some (.present f) := by
      intro move' hmove'
      have hmem := List.mem_map_of_mem (f := RoutineMove.toMove rename) hmove'
      rw [moveRoutine_functions]
      have hkeep : ((move.toMove rename).apply s.functions).lookup move'.oldId =
          s.functions.lookup move'.oldId :=
        Move.lookup_apply_ne (hind.head_source hmem) fun he => hind.head_unchained hmem he.symm
      rw [hkeep]
      exact hpresent move' (List.mem_cons_of_mem _ hmove')
    rw [List.foldl_cons, ih hind.tail hrest]
    have hcompose : ∀ x : DependencyEdge,
        (x.mapRoutines (renameId move.oldId move.newId)).mapRoutines
          (follow (moves.map (RoutineMove.toMove rename))) =
        x.mapRoutines (follow ((move :: moves).map (RoutineMove.toMove rename))) :=
      fun x => mapRoutines_mapRoutines _ _ x
    constructor
    · rintro ⟨y, hy, rfl⟩
      have hykind : y.kind ≠ .renameTo := fun h => hkind (mapRoutines_kind.mpr h)
      obtain ⟨x, hx, rfl⟩ := (moveRoutine_edges hf hykind).mp hy
      exact ⟨x, hx, (hcompose x).symm⟩
    · rintro ⟨x, hx, rfl⟩
      have hxkind : x.kind ≠ .renameTo := fun h => hkind (mapRoutines_kind.mpr h)
      refine ⟨_, (moveRoutine_edges hf fun h => hxkind (mapRoutines_kind.mp h)).mpr ⟨x, hx, rfl⟩, ?_⟩
      exact hcompose x

end Loop

end SafeMigrate
