import SafeMigrate.TypeRename

/-! The substitution of a renamed type, and of its array type, in everything
that names one of them, beside what the rename does to each record. -/

namespace SafeMigrate

open MapRebuild

namespace Rename

variable (rename : Rename)

/-- The type under its old name, or the array type of that name. -/
def Names (id : ObjectId) : Prop := id = rename.oldName ∨ id = arrayTypeId rename.oldName

instance (id : ObjectId) : Decidable (rename.Names id) :=
  inferInstanceAs (Decidable (id = rename.oldName ∨ id = arrayTypeId rename.oldName))

def substId (id : ObjectId) : ObjectId :=
  if id = rename.oldName then rename.newName
  else if id = arrayTypeId rename.oldName then arrayTypeId rename.newName
  else id

/-- A rename that does not take the type to its own name or array name. -/
structure Plain : Prop where
  renamed : rename.oldName ≠ rename.newName
  notArray : rename.newName ≠ arrayTypeId rename.oldName

variable {rename} {id : ObjectId}

theorem arrayTypeId_injective {a b : ObjectId} (h : arrayTypeId a = arrayTypeId b) : a = b := by
  cases a with
  | mk schema name =>
    cases b with
    | mk schema' name' =>
      simp only [arrayTypeId, ObjectId.mk.injEq] at h
      have hname : name = name' := by
        have htext := congrArg String.toList h.2
        rw [String.toList_append, String.toList_append] at htext
        exact String.ext (List.append_cancel_right htext)
      rw [h.1, hname]

theorem renamedTypeId_of_names (h : rename.Names id) :
    rename.renamedTypeId id = some (rename.substId id) := by
  by_cases hold : id = rename.oldName
  · simp [renamedTypeId, substId, hold]
  · have harray : id = arrayTypeId rename.oldName := h.resolve_left hold
    rw [renamedTypeId, substId, if_neg hold, if_pos harray, if_neg hold, if_pos harray]

theorem renamedTypeId_of_not_names (h : ¬rename.Names id) : rename.renamedTypeId id = none := by
  have hold : id ≠ rename.oldName := fun he => h (Or.inl he)
  have harray : id ≠ arrayTypeId rename.oldName := fun he => h (Or.inr he)
  rw [renamedTypeId, if_neg hold, if_neg harray]

theorem substId_of_not_names (h : ¬rename.Names id) : rename.substId id = id := by
  have hold : id ≠ rename.oldName := fun he => h (Or.inl he)
  have harray : id ≠ arrayTypeId rename.oldName := fun he => h (Or.inr he)
  rw [substId, if_neg hold, if_neg harray]

theorem retypeId_eq (typeId : Option ObjectId) :
    rename.retypeId typeId = typeId.map rename.substId := by
  cases typeId with
  | none => rfl
  | some id =>
    rw [retypeId, Option.bind_some, Option.map_some]
    by_cases h : rename.Names id
    · rw [renamedTypeId_of_names h]
    · rw [renamedTypeId_of_not_names h, substId_of_not_names h]

/-- A substituted identity names the old type only if that is its new name. -/
theorem substId_names (h : rename.Names (rename.substId id)) :
    rename.substId id = rename.newName ∨ rename.substId id = arrayTypeId rename.newName := by
  by_cases hid : rename.Names id
  · rcases hid with rfl | rfl
    · exact Or.inl (if_pos rfl)
    · by_cases hold : arrayTypeId rename.oldName = rename.oldName
      · exact Or.inl (if_pos hold)
      · exact Or.inr ((if_neg hold).trans (if_pos rfl))
  · rw [substId_of_not_names hid] at h
    exact absurd h hid

theorem arrayTypeId_ne (id : ObjectId) : arrayTypeId id ≠ id := by
  intro h
  have hlen := congrArg (fun i : ObjectId => i.name.length) h
  simp [arrayTypeId] at hlen

theorem Plain.substId_ne_of_names (h : rename.Plain) (hid : rename.Names id) :
    rename.substId id ≠ id := by
  rcases hid with rfl | rfl
  · rw [substId, if_pos rfl]
    exact fun he => h.renamed he.symm
  · rw [substId, if_neg (arrayTypeId_ne _), if_pos rfl]
    exact fun he => h.renamed (arrayTypeId_injective he).symm

theorem Plain.substId_ne_array (h : rename.Plain) : rename.substId id ≠ arrayTypeId rename.oldName := by
  by_cases hid : rename.Names id
  · rcases hid with rfl | rfl
    · rw [substId, if_pos rfl]
      exact h.notArray
    · exact h.substId_ne_of_names (Or.inr rfl)
  · rw [substId_of_not_names hid]
    exact fun he => hid (Or.inr he)

theorem retypePartner_eq {partner : Option ObjectId} (h : partner ≠ some (arrayTypeId rename.oldName)) :
    rename.retypePartner partner = partner.map rename.substId := by
  cases partner with
  | none => rfl
  | some id =>
    by_cases hold : id = rename.oldName
    · subst hold
      simp [retypePartner, substId]
    · have hid : ¬rename.Names id := by
        rintro (he | he)
        · exact hold he
        · exact h (he ▸ rfl)
      rw [retypePartner, if_neg fun he => hold (Option.some.inj he), Option.map_some,
        substId_of_not_names hid]

theorem Plain.retypePartner_eq_iff (h : rename.Plain) {partner : Option ObjectId} :
    rename.retypePartner partner = partner.map rename.substId ↔
      partner ≠ some (arrayTypeId rename.oldName) := by
  refine ⟨?_, retypePartner_eq⟩
  rintro heq rfl
  have hkept : rename.retypePartner (some (arrayTypeId rename.oldName)) =
      some (arrayTypeId rename.oldName) := if_neg fun he => arrayTypeId_ne _ (Option.some.inj he)
  rw [hkept, Option.map_some] at heq
  exact h.substId_ne_array (Option.some.inj heq).symm

end Rename

/-! Everything that a rename should rewrite. -/

section Substitution

variable (s : AnalysisState) (text : SqlText) (rename : Rename)

/-- A type text follows the type that it resolves to before the rename. -/
def substTypeText (raw : String) : String :=
  rename.retypeText text (s.resolveTypeReference text raw) raw

def substRelation (relation : RelationState) : RelationState :=
  { rename.retypeRelation text relation with ofType := relation.ofType.map rename.substId }

def Rename.ArgumentNames (f : FunctionState) : Prop :=
  ∃ typeId ∈ f.argTypeIds, ∃ id ∈ typeId, rename.Names id

instance (f : FunctionState) : Decidable (rename.ArgumentNames f) :=
  inferInstanceAs (Decidable (∃ typeId ∈ f.argTypeIds, ∃ id ∈ typeId, rename.Names id))

def Rename.SignatureNames (f : FunctionState) : Prop :=
  rename.ArgumentNames f ∨ ∃ id ∈ f.returnTypeId, rename.Names id

instance (f : FunctionState) : Decidable (rename.SignatureNames f) :=
  inferInstanceAs (Decidable (rename.ArgumentNames f ∨ ∃ id ∈ f.returnTypeId, rename.Names id))

/-- A routine has a new identity if its argument types are renamed. -/
def substRoutineKey (id : ObjectId) (f : FunctionState) : ObjectId :=
  if rename.ArgumentNames f then routineIdentity id (rename.renamedArgTypes text f) else id

def substParameter (parameter : RoutineParameter) : RoutineParameter :=
  { parameter with ty := substTypeText s text rename parameter.ty }

def substRoutine (id : ObjectId) (f : FunctionState) : FunctionState :=
  { f with
    id := if rename.SignatureNames f then substRoutineKey text rename id f else f.id
    argTypes := rename.renamedArgTypes text f
    argTypeIds := f.argTypeIds.map (Option.map rename.substId)
    returnType := rename.renamedReturnType text f
    returnTypeId := f.returnTypeId.map rename.substId
    parameters := f.parameters.map (substParameter s text rename)
    internalTypeOwner := f.internalTypeOwner.map rename.substId }

/-- The identity after the rename of the routine that `id` denotes before it. -/
def substRoutineId (id : ObjectId) : ObjectId :=
  match s.functions.lookup id with
  | some (.present f) => substRoutineKey text rename id f
  | _ => id

def substKind : TypeKind → TypeKind
  | .domain state => .domain { state with
      baseType := rename.retypeText text state.baseTypeId state.baseType
      baseTypeId := state.baseTypeId.map rename.substId }
  | .composite fields => .composite (fields.map fun field => { field with
      dataType := rename.retypeText text field.dataTypeId field.dataType
      dataTypeId := field.dataTypeId.map rename.substId })
  | .range state => .range { state with
      subtype := state.subtype.map (rename.retypeText text state.subtypeId)
      subtypeId := state.subtypeId.map rename.substId
      multirange := state.multirange.map rename.substId
      canonicalId := state.canonicalId.map (substRoutineId s text rename)
      subtypeDiffId := state.subtypeDiffId.map (substRoutineId s text rename) }
  | .multirange rangeId => .multirange (rangeId.map rename.substId)
  | .base shell options => .base shell { options with
      element := options.element.map (substTypeText s text rename) }
  | .enum variants => .enum variants

def substType (id : ObjectId) (type : TypeState) : TypeState :=
  { type with
    id := if id = rename.oldName then rename.newName else type.id
    kind := substKind s text rename type.kind }

def substMember (member : ExtensionMember) : ExtensionMember :=
  match member.kind with
  | .type => { member with id := rename.substId member.id }
  | .routine => { member with id := substRoutineId s text rename member.id }
  | _ => member

def substExtension (extension : ExtensionState) : ExtensionState :=
  { extension with members := extension.members.image (substMember s text rename) }

def substEdge (e : DependencyEdge) : DependencyEdge :=
  match e.kind with
  | .viewUsesType => { e with referenced := rename.substId e.referenced }
  | .triggerOnTable triggerId functionId generation =>
    { e with
      kind := .triggerOnTable triggerId (substRoutineId s text rename functionId) generation }
  | .viewUsesRoutine none => { e with referenced := substRoutineId s text rename e.referenced }
  | _ => e

end Substitution

/-! What the rename leaves out, record by record. -/

section Records

variable {s : AnalysisState} {text : SqlText} {rename : Rename}

/-- The type of a typed table is not rewritten. -/
def RelationFollows (rename : Rename) (relation : RelationState) : Prop :=
  ∀ id ∈ relation.ofType, ¬rename.Names id

/-- Neither the routines of a range nor an array type as its partner are
rewritten, and an element type is recognised by its name alone. -/
def KindFollows (s : AnalysisState) (text : SqlText) (rename : Rename) : TypeKind → Prop
  | .range state =>
    state.multirange ≠ some (arrayTypeId rename.oldName) ∧
      (∀ id ∈ state.canonicalId, substRoutineId s text rename id = id) ∧
      ∀ id ∈ state.subtypeDiffId, substRoutineId s text rename id = id
  | .multirange rangeId => rangeId ≠ some (arrayTypeId rename.oldName)
  | .base _ options => ∀ raw ∈ options.element, substTypeText s text rename raw =
      if raw = rename.oldName.name ∨ raw = rename.oldId.display then rename.newName.name else raw
  | _ => True

/-- A routine is recognised by its texts, and its parameter list stays. -/
structure RoutineFollows (s : AnalysisState) (text : SqlText) (rename : Rename) (id : ObjectId)
    (f : FunctionState) : Prop where
  canonical : ¬rename.ArgumentNames f → routineIdentity id f.argTypes = id
  recognised : rename.SignatureNames f → (rename.routineMove text id f).isSome = true
  parameters : ∀ parameter ∈ f.parameters, substTypeText s text rename parameter.ty = parameter.ty

def MemberFollows (s : AnalysisState) (text : SqlText) (rename : Rename) (member : ExtensionMember) :
    Prop :=
  (member.kind = .type → member.id ≠ arrayTypeId rename.oldName) ∧
    (member.kind = .routine → substRoutineId s text rename member.id = member.id)

def EdgeFollows (rename : Rename) (e : DependencyEdge) : Prop :=
  e.kind = .viewUsesType → e.referenced ≠ arrayTypeId rename.oldName

theorem optionMap_eq_self_iff {α : Type} {f : α → α} {o : Option α} :
    o.map f = o ↔ ∀ a ∈ o, f a = a := by
  cases o with
  | none => simp
  | some a => simp

theorem retypeRelation_eq {relation : RelationState} (h : RelationFollows rename relation) :
    rename.retypeRelation text relation = substRelation text rename relation := by
  have hkept : relation.ofType.map rename.substId = relation.ofType :=
    optionMap_eq_self_iff.mpr fun id hid => Rename.substId_of_not_names (h id hid)
  rw [substRelation, hkept]
  rfl

theorem Rename.Plain.retypeRelation_eq_iff (hplain : rename.Plain) {relation : RelationState} :
    rename.retypeRelation text relation = substRelation text rename relation ↔
      RelationFollows rename relation := by
  refine ⟨?_, retypeRelation_eq⟩
  intro heq id hid hnames
  have hfield : relation.ofType = relation.ofType.map rename.substId :=
    congrArg RelationState.ofType heq
  exact hplain.substId_ne_of_names hnames (optionMap_eq_self_iff.mp hfield.symm id hid)

theorem retypeElement_eq_iff {element : Option String} :
    rename.retypeElement element = element.map (substTypeText s text rename) ↔
      ∀ raw ∈ element, substTypeText s text rename raw =
        if raw = rename.oldName.name ∨ raw = rename.oldId.display then rename.newName.name
        else raw := by
  cases element with
  | none => simp [Rename.retypeElement]
  | some raw =>
    simp only [Option.mem_def, Option.some.injEq, forall_eq', Option.map_some]
    by_cases hraw : raw = rename.oldName.name ∨ raw = rename.oldId.display
    · simp only [Rename.retypeElement, hraw, if_true, Option.some.injEq]
      exact eq_comm
    · simp only [Rename.retypeElement, hraw, if_false, Option.some.injEq]
      exact eq_comm

theorem retypeFields_eq (fields : List CompositeFieldState) :
    fields.map (rename.retypeField text) = fields.map fun field => { field with
      dataType := rename.retypeText text field.dataTypeId field.dataType
      dataTypeId := field.dataTypeId.map rename.substId } := by
  refine List.map_congr_left fun field _ => ?_
  rw [Rename.retypeField, Rename.retypeId_eq]

theorem retypeKind_eq {kind : TypeKind} (h : KindFollows s text rename kind) :
    rename.retypeKind text kind = substKind s text rename kind := by
  cases kind with
  | enum variants => rfl
  | domain state =>
    simp only [Rename.retypeKind, substKind, Rename.retypeId_eq]
  | composite fields =>
    simp only [Rename.retypeKind, substKind, retypeFields_eq]
  | multirange rangeId =>
    simp only [Rename.retypeKind, substKind, Rename.retypePartner_eq h]
  | base shell options =>
    simp only [Rename.retypeKind, substKind, retypeElement_eq_iff.mpr h]
  | range state =>
    obtain ⟨hpartner, hcanonical, hdiff⟩ := h
    simp only [Rename.retypeKind, substKind, Rename.retypeId_eq, Rename.retypePartner_eq hpartner,
      optionMap_eq_self_iff.mpr hcanonical, optionMap_eq_self_iff.mpr hdiff]

theorem Rename.Plain.retypeKind_eq_iff (hplain : rename.Plain) {kind : TypeKind} :
    rename.retypeKind text kind = substKind s text rename kind ↔ KindFollows s text rename kind := by
  refine ⟨?_, retypeKind_eq⟩
  intro heq
  cases kind with
  | enum variants => trivial
  | domain state => trivial
  | composite fields => trivial
  | multirange rangeId =>
    simp only [Rename.retypeKind, substKind, TypeKind.multirange.injEq] at heq
    exact hplain.retypePartner_eq_iff.mp heq
  | base shell options =>
    simp only [Rename.retypeKind, substKind, TypeKind.base.injEq, true_and] at heq
    exact retypeElement_eq_iff.mp (congrArg BaseTypeOptions.element heq)
  | range state =>
    simp only [Rename.retypeKind, substKind, TypeKind.range.injEq] at heq
    have hpartner : rename.retypePartner state.multirange = state.multirange.map rename.substId :=
      congrArg RangeState.multirange heq
    have hcanonical : state.canonicalId = state.canonicalId.map (substRoutineId s text rename) :=
      congrArg RangeState.canonicalId heq
    have hdiff : state.subtypeDiffId = state.subtypeDiffId.map (substRoutineId s text rename) :=
      congrArg RangeState.subtypeDiffId heq
    exact ⟨hplain.retypePartner_eq_iff.mp hpartner, optionMap_eq_self_iff.mp hcanonical.symm,
      optionMap_eq_self_iff.mp hdiff.symm⟩

end Records

end SafeMigrate
