import SafeMigrate.RoutineMoves

/-! `apply_rename_type` beside the substitution of the type: when the result
names the old type nowhere, and when a routine may stop the rename. -/

namespace SafeMigrate

open MapRebuild MapMoves

/-- What `m` holds as present, `m'` holds under new keys and with new values,
and it holds nothing else; no two objects share a new key. -/
structure Carried {κ α : Type} [DecidableEq κ] (key : κ → α → κ) (value : κ → α → α)
    (m m' : KeyedMap κ (Overlay α)) : Prop where
  carried : ∀ k v, m.lookup k = some (.present v) → m'.lookup (key k v) = some (.present (value k v))
  source : ∀ k' v', m'.lookup k' = some (.present v') →
    ∃ k v, m.lookup k = some (.present v) ∧ key k v = k' ∧ value k v = v'
  distinct : ∀ k₁ v₁ k₂ v₂, m.lookup k₁ = some (.present v₁) → m.lookup k₂ = some (.present v₂) →
    key k₁ v₁ = key k₂ v₂ → k₁ = k₂

/-- `t` holds what `s` holds, with the new type for the old one everywhere. -/
structure TypeSubstituted (text : SqlText) (rename : Rename) (s t : AnalysisState) : Prop where
  relations : Carried (fun k _ => k) (fun _ => substRelation text rename) s.relations t.relations
  types : Carried (fun k _ => renameId rename.oldName rename.newName k) (substType s text rename)
    s.types t.types
  routines : Carried (substRoutineKey text rename) (substRoutine s text rename)
    s.functions t.functions
  extensions : Carried (fun k _ => k) (fun _ => substExtension s text rename)
    s.extensions t.extensions
  edges : ∀ e, e.kind ≠ .renameTo →
    (e ∈ t.graph.edges ↔ ∃ x ∈ s.graph.edges, substEdge s text rename x = e)

/-! The identities of types that each record stores. -/

def RelationState.typeIds (relation : RelationState) : List ObjectId :=
  relation.columns.filterMap (·.typeId) ++ relation.ofType.toList

def TypeKind.typeIds : TypeKind → List ObjectId
  | .domain state => state.baseTypeId.toList
  | .composite fields => fields.filterMap (·.dataTypeId)
  | .range state => state.subtypeId.toList ++ state.multirange.toList
  | .multirange rangeId => rangeId.toList
  | .base _ _ => []
  | .enum _ => []

def FunctionState.typeIds (f : FunctionState) : List ObjectId :=
  f.argTypeIds.filterMap (fun typeId => typeId) ++ f.returnTypeId.toList ++
    f.internalTypeOwner.toList

/-- Whatever still reads as the old type or its array is the new one. -/
def Rename.Gone (rename : Rename) (id : ObjectId) : Prop :=
  rename.Names id → id = rename.newName ∨ id = arrayTypeId rename.newName

structure NothingNamed (rename : Rename) (t : AnalysisState) : Prop where
  relations : ∀ k r, t.relations.lookup k = some (.present r) → ∀ id ∈ r.typeIds, rename.Gone id
  types : ∀ k type, t.types.lookup k = some (.present type) →
    (k = rename.oldName → k = rename.newName) ∧ ∀ id ∈ type.kind.typeIds, rename.Gone id
  routines : ∀ k f, t.functions.lookup k = some (.present f) → ∀ id ∈ f.typeIds, rename.Gone id
  members : ∀ k extension, t.extensions.lookup k = some (.present extension) →
    ∀ member ∈ extension.members, member.kind = .type → rename.Gone member.id
  edges : ∀ e ∈ t.graph.edges, e.kind = .viewUsesType → rename.Gone e.referenced

section NothingNamed

variable {s t : AnalysisState} {text : SqlText} {rename : Rename}

theorem gone_substId (id : ObjectId) : rename.Gone (rename.substId id) := Rename.substId_names

theorem gone_of_mem_map {o : Option ObjectId} {id : ObjectId} (h : id ∈ o.map rename.substId) :
    rename.Gone id := by
  obtain ⟨j, -, rfl⟩ := Option.map_eq_some_iff.mp h
  exact gone_substId j

theorem gone_retypeId {o : Option ObjectId} {id : ObjectId} (h : id ∈ rename.retypeId o) :
    rename.Gone id := by
  rw [Rename.retypeId_eq] at h
  exact gone_of_mem_map h

theorem retypeColumn_typeId (column : Column) :
    (rename.retypeColumn text column).typeId = rename.retypeId column.typeId := by
  unfold Rename.retypeColumn Rename.retypeId
  cases column.typeId.bind rename.renamedTypeId with
  | some newId => rfl
  | none => rfl

theorem gone_substRelation (relation : RelationState) :
    ∀ id ∈ (substRelation text rename relation).typeIds, rename.Gone id := by
  intro id hid
  simp only [RelationState.typeIds, substRelation, Rename.retypeRelation, List.mem_append,
    List.mem_filterMap, List.mem_map, Option.mem_toList] at hid
  rcases hid with ⟨_, ⟨column, -, rfl⟩, hid⟩ | hid
  · rw [retypeColumn_typeId] at hid
    exact gone_retypeId hid
  · exact gone_of_mem_map hid

theorem gone_substKind (kind : TypeKind) :
    ∀ id ∈ (substKind s text rename kind).typeIds, rename.Gone id := by
  intro id hid
  cases kind with
  | enum variants => cases hid
  | base shell options => cases hid
  | domain state => exact gone_of_mem_map (Option.mem_toList.mp hid)
  | multirange rangeId => exact gone_of_mem_map (Option.mem_toList.mp hid)
  | composite fields =>
    simp only [substKind, TypeKind.typeIds, List.mem_filterMap, List.mem_map] at hid
    obtain ⟨_, ⟨field, -, rfl⟩, hid⟩ := hid
    exact gone_of_mem_map hid
  | range state =>
    simp only [substKind, TypeKind.typeIds, List.mem_append, Option.mem_toList] at hid
    rcases hid with hid | hid <;> exact gone_of_mem_map hid

theorem gone_substRoutine (k : ObjectId) (f : FunctionState) :
    ∀ id ∈ (substRoutine s text rename k f).typeIds, rename.Gone id := by
  intro id hid
  simp only [FunctionState.typeIds, substRoutine, List.mem_append, List.mem_filterMap,
    List.mem_map, Option.mem_toList] at hid
  rcases hid with (⟨_, ⟨typeId, -, rfl⟩, hid⟩ | hid) | hid <;> exact gone_of_mem_map hid

/-- A substituted state names the old type nowhere. -/
theorem TypeSubstituted.nothingNamed (h : TypeSubstituted text rename s t) :
    NothingNamed rename t where
  relations := by
    intro k r hk
    obtain ⟨_, r₀, -, -, rfl⟩ := h.relations.source k r hk
    exact gone_substRelation r₀
  types := by
    intro k type hk
    obtain ⟨k₀, type₀, -, rfl, rfl⟩ := h.types.source k type hk
    refine ⟨?_, gone_substKind type₀.kind⟩
    intro hold
    by_cases hk₀ : k₀ = rename.oldName
    · rw [renameId, if_pos hk₀]
    · rw [renameId, if_neg hk₀] at hold
      exact absurd hold hk₀
  routines := by
    intro k f hk
    obtain ⟨k₀, f₀, -, -, rfl⟩ := h.routines.source k f hk
    exact gone_substRoutine k₀ f₀
  members := by
    intro k extension hk member hmember hkind
    obtain ⟨_, extension₀, -, -, rfl⟩ := h.extensions.source k extension hk
    obtain ⟨member₀, -, rfl⟩ := Finset.mem_image.mp hmember
    obtain ⟨kind, id⟩ := member₀
    cases kind with
    | type => exact gone_substId id
    | _ => cases hkind
  edges := by
    intro e he hkind
    have hcurrent : e.kind ≠ .renameTo := by
      rw [hkind]
      exact DependencyKind.noConfusion
    obtain ⟨x, -, rfl⟩ := (h.edges e hcurrent).mp he
    obtain ⟨dependent, referenced, kind⟩ := x
    cases kind with
    | viewUsesType => exact gone_substId referenced
    | viewUsesRoutine name =>
      cases name with
      | none => cases hkind
      | some name => cases hkind
    | _ => cases hkind

end NothingNamed

/-! Routines, one by one. -/

section Routines

variable {s : AnalysisState} {text : SqlText} {rename : Rename} {id : ObjectId} {f : FunctionState}

theorem retypeText_of_not_names {typeId : Option ObjectId} (h : ∀ i ∈ typeId, ¬rename.Names i)
    (raw : String) : rename.retypeText text typeId raw = raw := by
  cases typeId with
  | none => rfl
  | some i =>
    rw [Rename.retypeText, Option.bind_some, Rename.renamedTypeId_of_not_names (h i rfl)]

theorem renamedArgTypes_of_not_names (h : ¬rename.ArgumentNames f) :
    rename.renamedArgTypes text f = f.argTypes := by
  have hself : ∀ (index : Nat) (raw : String),
      rename.retypeText text (f.argTypeIds[index]?).join raw = raw := by
    intro index raw
    refine retypeText_of_not_names (fun i hi hnames => h ?_) raw
    have hget : f.argTypeIds[index]? = some (some i) := Option.join_eq_some_iff.mp hi
    exact ⟨some i, List.mem_of_getElem? hget, i, rfl, hnames⟩
  refine List.ext_getElem (by simp [Rename.renamedArgTypes]) ?_
  intro index _ _
  simp [Rename.renamedArgTypes, hself]

theorem map_substId_of_not_argumentNames (h : ¬rename.ArgumentNames f) :
    f.argTypeIds.map (Option.map rename.substId) = f.argTypeIds := by
  have hself : ∀ typeId ∈ f.argTypeIds, Option.map rename.substId typeId = typeId := by
    intro typeId hmem
    refine optionMap_eq_self_iff.mpr fun i hi => ?_
    exact Rename.substId_of_not_names fun hnames => h ⟨typeId, hmem, i, hi, hnames⟩
  rw [List.map_congr_left hself, List.map_id']

theorem RoutineFollows.map_parameters (h : RoutineFollows s text rename id f) :
    f.parameters.map (substParameter s text rename) = f.parameters := by
  have hself : ∀ parameter ∈ f.parameters, substParameter s text rename parameter = parameter := by
    intro parameter hmem
    rw [substParameter, h.parameters parameter hmem]
  rw [List.map_congr_left hself, List.map_id']

theorem RoutineFollows.not_names (h : RoutineFollows s text rename id f)
    (hnone : rename.routineMove text id f = none) : ¬rename.SignatureNames f := by
  intro hnames
  have hsome := h.recognised hnames
  rw [hnone] at hsome
  cases hsome

/-- A routine that stays was not named. -/
theorem RoutineFollows.unmoved (h : RoutineFollows s text rename id f)
    (hnone : rename.routineMove text id f = none) :
    substRoutineKey text rename id f = id ∧
      rename.retypeOwner f = substRoutine s text rename id f := by
  have hnot := h.not_names hnone
  have hargs : ¬rename.ArgumentNames f := fun hn => hnot (Or.inl hn)
  have hreturn : f.returnTypeId.map rename.substId = f.returnTypeId :=
    optionMap_eq_self_iff.mpr fun i hi => Rename.substId_of_not_names fun hn =>
      hnot (Or.inr ⟨i, hi, hn⟩)
  obtain ⟨-, hargTypes, hreturnType⟩ := routineMove_eq_none.mp hnone
  refine ⟨if_neg hargs, ?_⟩
  rw [substRoutine, if_neg hnot, hargTypes, hreturnType, map_substId_of_not_argumentNames hargs,
    hreturn, h.map_parameters, ← Rename.retypeId_eq]
  rfl

theorem newId_eq_of_canonical
    (hcanonical : ¬rename.ArgumentNames f → routineIdentity id f.argTypes = id) :
    routineIdentity id (rename.renamedArgTypes text f) = substRoutineKey text rename id f := by
  by_cases hargs : rename.ArgumentNames f
  · rw [substRoutineKey, if_pos hargs]
  · rw [substRoutineKey, if_neg hargs, renamedArgTypes_of_not_names hargs]
    exact hcanonical hargs

theorem RoutineFollows.newId_eq (h : RoutineFollows s text rename id f) :
    routineIdentity id (rename.renamedArgTypes text f) = substRoutineKey text rename id f :=
  newId_eq_of_canonical h.canonical

/-- A routine that moves was named. -/
theorem RoutineFollows.moved (h : RoutineFollows s text rename id f) {move : RoutineMove}
    (hmove : rename.routineMove text id f = some move) :
    move.newId = substRoutineKey text rename id f ∧
      rename.retypeRoutine move (rename.retypeOwner f) = substRoutine s text rename id f := by
  have hnames : rename.SignatureNames f := by
    by_contra hnot
    have hargs : ¬rename.ArgumentNames f := fun hn => hnot (Or.inl hn)
    have hreturn : rename.renamedReturnType text f = f.returnType :=
      retypeText_of_not_names (fun i hi hn => hnot (Or.inr ⟨i, hi, hn⟩)) _
    have hnone : rename.routineMove text id f = none := routineMove_eq_none.mpr
      ⟨h.newId_eq.trans (if_neg hargs), renamedArgTypes_of_not_names hargs, hreturn⟩
    rw [hnone] at hmove
    cases hmove
  obtain rfl := routineMove_eq_some hmove
  refine ⟨h.newId_eq, ?_⟩
  have hids : f.argTypeIds.map rename.retypeId =
      f.argTypeIds.map (Option.map rename.substId) :=
    List.map_congr_left fun typeId _ => Rename.retypeId_eq typeId
  rw [substRoutine, if_pos hnames, h.map_parameters, ← hids, ← Rename.retypeId_eq,
    ← Rename.retypeId_eq, ← h.newId_eq]
  rfl

end Routines

end SafeMigrate
