import SafeMigrate.SchemaSubstitution

/-! Two results on `ALTER SCHEMA ... RENAME TO`: when it is a total
substitution, and when it keeps every object in every iteration order. -/

namespace SafeMigrate

open MapRebuild

namespace AnalysisState

/-- The same state with its rebuilt maps in another iteration order. -/
structure InOrder (s s' : AnalysisState) : Prop where
  relations : Reordered s.relations s'.relations
  types : Reordered s.types s'.types
  functions : Reordered s.functions s'.functions
  sequences : Reordered s.sequences s'.sequences
  triggers : Reordered s.triggers s'.triggers
  constraints : Reordered s.constraints s'.constraints
  others : s' = { s with
    relations := s'.relations, types := s'.types, functions := s'.functions,
    sequences := s'.sequences, triggers := s'.triggers, constraints := s'.constraints }

theorem InOrder.refl (s : AnalysisState) : s.InOrder s where
  relations := List.Perm.refl _
  types := List.Perm.refl _
  functions := List.Perm.refl _
  sequences := List.Perm.refl _
  triggers := List.Perm.refl _
  constraints := List.Perm.refl _
  others := rfl

/-- `t` holds what `s` holds, with `b` for `a` in every stored identity. -/
structure Substituted (a b : String) (s t : AnalysisState) : Prop where
  relations : IsImage (remapSchemaId a b) (Overlay.map (RelationState.substSchema a b))
    s.relations t.relations
  types : IsImage (remapSchemaId a b) (Overlay.map (TypeState.substSchema a b)) s.types t.types
  functions : IsImage (remapSchemaId a b) (Overlay.map (FunctionState.remapSchema a b))
    s.functions t.functions
  sequences : IsImage (remapSchemaId a b) (Overlay.map (SequenceState.remapSchema a b))
    s.sequences t.sequences
  triggers : IsImage (remapSchemaId a b) (Overlay.map (TriggerState.substSchema a b))
    s.triggers t.triggers
  constraints : IsImage (remapTableKey a b) (ConstraintState.substSchema a b)
    s.constraints t.constraints
  publications : IsImage id (Overlay.map (PublicationState.remapSchema a b))
    s.publications t.publications
  extensions : IsImage id (Overlay.map (ExtensionState.remapSchema a b)) s.extensions t.extensions
  edges : ∀ e, e.kind ≠ .renameTo →
    (e ∈ t.graph.edges ↔ ∃ x ∈ s.graph.edges, x.substSchema a b = e)

/-- Nothing that is present holds an identity of schema `a`. -/
structure NoneLeft (a : String) (t : AnalysisState) : Prop where
  relations : ∀ k r, t.relations.lookup k = some (.present r) →
    k.schema ≠ a ∧ ∀ i ∈ r.identities, i.schema ≠ a
  types : ∀ k r, t.types.lookup k = some (.present r) →
    k.schema ≠ a ∧ ∀ i ∈ r.identities, i.schema ≠ a
  functions : ∀ k r, t.functions.lookup k = some (.present r) →
    k.schema ≠ a ∧ ∀ i ∈ r.identities, i.schema ≠ a
  sequences : ∀ k r, t.sequences.lookup k = some (.present r) →
    k.schema ≠ a ∧ ∀ i ∈ r.identities, i.schema ≠ a
  triggers : ∀ k r, t.triggers.lookup k = some (.present r) →
    k.schema ≠ a ∧ ∀ i ∈ r.identities, i.schema ≠ a
  constraints : ∀ k c, t.constraints.lookup k = some c →
    k.1.schema ≠ a ∧ ∀ i ∈ c.identities, i.schema ≠ a
  members : ∀ k e, t.extensions.lookup k = some (.present e) →
    ∀ member ∈ e.members, member.schemaName ≠ a
  edges : ∀ e ∈ t.graph.edges, e.kind ≠ .renameTo → ∀ i ∈ e.identities, i.schema ≠ a

section NoneLeft

variable {a b : String} {s t : AnalysisState}

theorem noneLeft_of_image {α : Type} {g : α → α} {identities : α → List ObjectId} (hab : a ≠ b)
    (hg : ∀ state, ∀ i ∈ identities (g state), i.schema ≠ a)
    {m m' : KeyedMap ObjectId (Overlay α)}
    (himage : IsImage (remapSchemaId a b) (Overlay.map g) m m') :
    ∀ k r, m'.lookup k = some (.present r) →
      k.schema ≠ a ∧ ∀ i ∈ identities r, i.schema ≠ a := by
  intro k r hk
  obtain ⟨k₀, v₀, -, rfl, hv⟩ := himage.exists_source k _ hk
  refine ⟨remapSchemaId_schema_ne hab k₀, ?_⟩
  cases v₀ with
  | present state =>
    obtain rfl : g state = r := by simpa [Overlay.map] using hv
    exact hg state
  | dropped => cases hv

/-- A substituted state has nothing left to rewrite. -/
theorem Substituted.noneLeft (hab : a ≠ b) (h : Substituted a b s t) : NoneLeft a t where
  relations := noneLeft_of_image hab (substSchema_identities_relation hab) h.relations
  types := noneLeft_of_image hab (substSchema_identities_type hab) h.types
  functions := noneLeft_of_image hab (remapSchema_identities_function hab) h.functions
  sequences := noneLeft_of_image hab (remapSchema_identities_sequence hab) h.sequences
  triggers := noneLeft_of_image hab (substSchema_identities_trigger hab) h.triggers
  constraints := by
    intro k c hk
    obtain ⟨k₀, c₀, -, rfl, rfl⟩ := h.constraints.exists_source k c hk
    exact ⟨remapSchemaId_schema_ne hab k₀.1, substSchema_identities_constraint hab c₀⟩
  members := by
    intro k e hk member hmember
    obtain ⟨k₀, v₀, -, -, hv⟩ := h.extensions.exists_source k _ hk
    cases v₀ with
    | dropped => cases hv
    | present e₀ =>
      obtain rfl : e₀.remapSchema a b = e := by simpa [Overlay.map] using hv
      obtain ⟨member₀, -, rfl⟩ := Finset.mem_image.mp hmember
      exact remapSchema_schemaName hab member₀
  edges := by
    intro e he hkind
    obtain ⟨x, -, rfl⟩ := (h.edges e hkind).mp he
    exact substSchema_identities_edge hab x

end NoneLeft

/-- A state in which the rename loses nothing of the substitution: no kept
field holds an identity of `a`, and no map holds different objects under
identities that become one. -/
structure RenameTotal (s : AnalysisState) (a b : String) : Prop where
  columns : ∀ k r, s.relations.lookup k = some (.present r) →
    ∀ i ∈ r.keptIdentities, i.schema ≠ a
  triggerLinks : ∀ k t, s.triggers.lookup k = some (.present t) →
    ∀ i ∈ t.keptIdentities, i.schema ≠ a
  backingIndexes : ∀ k c, s.constraints.lookup k = some c → ∀ i ∈ c.backingIndex, i.schema ≠ a
  relations : Consistent (remapSchemaId a b) (Overlay.map (RelationState.substSchema a b))
    s.relations
  types : Consistent (remapSchemaId a b) (Overlay.map (TypeState.substSchema a b)) s.types
  functions : Consistent (remapSchemaId a b) (Overlay.map (FunctionState.remapSchema a b))
    s.functions
  sequences : Consistent (remapSchemaId a b) (Overlay.map (SequenceState.remapSchema a b))
    s.sequences
  triggers : Consistent (remapSchemaId a b) (Overlay.map (TriggerState.substSchema a b)) s.triggers
  constraints : Consistent (remapTableKey a b) (ConstraintState.substSchema a b) s.constraints

section Rename

variable {a b : String} {s : AnalysisState}

theorem mem_foldl_addRename {aliases : List (ObjectId × ObjectId)} {g : DependencyGraph}
    {e : DependencyEdge} (hkind : e.kind ≠ .renameTo) :
    e ∈ (aliases.foldl (fun g ids =>
      g.addEdge { dependent := ids.1, referenced := ids.2, kind := .renameTo }) g).edges ↔
        e ∈ g.edges := by
  induction aliases generalizing g with
  | nil => exact Iff.rfl
  | cons ids aliases ih =>
    rw [List.foldl_cons, ih, DependencyGraph.mem_addEdge]
    constructor
    · rintro (he | rfl)
      · exact he
      · exact absurd rfl hkind
    · exact Or.inl

theorem renameSchemaNamespace_edges (s : AnalysisState) (e : DependencyEdge)
    (hkind : e.kind ≠ .renameTo) :
    e ∈ (s.renameSchemaNamespace a b).graph.edges ↔ ∃ x ∈ s.graph.edges, x.substSchema a b = e := by
  refine (mem_foldl_addRename hkind).trans ?_
  simp only [DependencyGraph.remapIndexCollationSchema, DependencyGraph.remapSchemaNamespace,
    DependencyGraph.mem_mapEdges, exists_exists_and_eq_and]
  rfl

theorem mapValues_rebuild_lookup {α : Type} {f : ObjectId → ObjectId} {g h : α → α}
    (m : KeyedMap ObjectId α) (k : ObjectId) :
    (mapValues h (rebuild f g m)).lookup k = (rebuild f (fun v => h (g v)) m).lookup k := by
  rw [lookup_mapValues, lookup_rebuild, lookup_rebuild, Option.map_map]
  rfl

theorem isImage_congr {α β : Type} [DecidableEq α] {f : α → α} {g : β → β} {m m₁ m₂ : KeyedMap α β}
    (h : ∀ k, m₁.lookup k = m₂.lookup k) : IsImage f g m m₁ ↔ IsImage f g m m₂ := by
  constructor
  · rintro ⟨hl, he⟩
    exact ⟨fun k v hk => h _ ▸ hl k v hk, fun k v hk => he k v (h k ▸ hk)⟩
  · rintro ⟨hl, he⟩
    exact ⟨fun k v hk => h _ ▸ hl k v hk, fun k v hk => he k v (h k ▸ hk)⟩

theorem overlay_remapType (v : TypeOverlay) :
    Overlay.map (TypeState.remapKind a b) (Overlay.map (TypeState.remapId a b) v) =
      Overlay.map (TypeState.substSchema a b) v := by
  cases v <;> rfl

theorem renamed_types_lookup (s : AnalysisState) (k : ObjectId) :
    (s.renameSchemaNamespace a b).types.lookup k =
      (rebuild (remapSchemaId a b) (Overlay.map (TypeState.substSchema a b)) s.types).lookup k := by
  have h := @mapValues_rebuild_lookup _ (remapSchemaId a b) (Overlay.map (TypeState.remapId a b))
    (Overlay.map (TypeState.remapKind a b)) s.types k
  simp only [overlay_remapType] at h
  exact h

/-- A rebuilt overlay map is the image under `h` in every order. -/
theorem rebuild_overlays_isImage_iff {α : Type} {g h : α → α} {m : KeyedMap ObjectId (Overlay α)} :
    (∀ m', Reordered m m' → IsImage (remapSchemaId a b) (Overlay.map h) m
      (rebuild (remapSchemaId a b) (Overlay.map g) m')) ↔
    Consistent (remapSchemaId a b) (Overlay.map h) m ∧
      ∀ k state, m.lookup k = some (.present state) → g state = h state := by
  rw [rebuild_isImage_iff]
  refine and_congr_right fun _ => ⟨?_, ?_⟩
  · intro hvalues k state hk
    exact Overlay.map_eq_map_iff.mp (hvalues k _ hk) state rfl
  · intro hstates k v hk
    refine Overlay.map_eq_map_iff.mpr ?_
    rintro state rfl
    exact hstates k state hk

theorem inOrder_relations {m : KeyedMap ObjectId RelationOverlay} (h : Reordered s.relations m) :
    s.InOrder (s.setRelations m) := { InOrder.refl s with relations := h, others := rfl }

theorem inOrder_types {m : KeyedMap ObjectId TypeOverlay} (h : Reordered s.types m) :
    s.InOrder (s.setTypes m) := { InOrder.refl s with types := h, others := rfl }

theorem inOrder_functions {m : KeyedMap ObjectId FunctionOverlay} (h : Reordered s.functions m) :
    s.InOrder (s.setFunctions m) := { InOrder.refl s with functions := h, others := rfl }

theorem inOrder_sequences {m : KeyedMap ObjectId SequenceOverlay} (h : Reordered s.sequences m) :
    s.InOrder (s.setSequences m) := { InOrder.refl s with sequences := h, others := rfl }

theorem inOrder_triggers {m : KeyedMap ObjectId TriggerOverlay} (h : Reordered s.triggers m) :
    s.InOrder (s.setTriggers m) := { InOrder.refl s with triggers := h, others := rfl }

theorem inOrder_constraints {m : KeyedMap (ObjectId × String) ConstraintState}
    (h : Reordered s.constraints m) : s.InOrder (s.setConstraints m) :=
  { InOrder.refl s with constraints := h, others := rfl }

theorem InOrder.graph {s s' : AnalysisState} (h : s.InOrder s') : s'.graph = s.graph := by
  rw [h.others]

theorem InOrder.publications {s s' : AnalysisState} (h : s.InOrder s') :
    s'.publications = s.publications := by
  rw [h.others]

theorem InOrder.extensions {s s' : AnalysisState} (h : s.InOrder s') :
    s'.extensions = s.extensions := by
  rw [h.others]

end Rename

/-- Schema `a` can be renamed to `b`: it is present and `b` is not. -/
structure RenameTarget (s : AnalysisState) (a b : String) : Prop where
  source : s.schemaIsPresent a = true
  target : s.schemaIsPresent b = false

theorem RenameTarget.ne {s : AnalysisState} {a b : String} (h : s.RenameTarget a b) : a ≠ b := by
  rintro rfl
  exact absurd h.source (by simp [h.target])

/-- In every iteration order a rename yields the substitution, and nothing is
left under the old name, exactly in the states described by `RenameTotal`. -/
theorem renameSchemaNamespace_substitutes_iff {s : AnalysisState} {a b : String}
    (h : s.RenameTarget a b) :
    (∀ s', s.InOrder s' → Substituted a b s (s'.renameSchemaNamespace a b) ∧
      NoneLeft a (s'.renameSchemaNamespace a b)) ↔ s.RenameTotal a b := by
  have hab := h.ne
  constructor
  · intro hall
    obtain ⟨hrelations, hcolumns⟩ := rebuild_overlays_isImage_iff.mp fun m hm =>
      (hall _ (inOrder_relations hm)).1.relations
    obtain ⟨htypes, -⟩ := rebuild_overlays_isImage_iff.mp fun m hm =>
      (isImage_congr (renamed_types_lookup (s.setTypes m))).mp (hall _ (inOrder_types hm)).1.types
    obtain ⟨hfunctions, -⟩ := rebuild_overlays_isImage_iff.mp fun m hm =>
      (hall _ (inOrder_functions hm)).1.functions
    obtain ⟨hsequences, -⟩ := rebuild_overlays_isImage_iff.mp fun m hm =>
      (hall _ (inOrder_sequences hm)).1.sequences
    obtain ⟨htriggers, hlinks⟩ := rebuild_overlays_isImage_iff.mp fun m hm =>
      (hall _ (inOrder_triggers hm)).1.triggers
    obtain ⟨hconstraints, hindexes⟩ := rebuild_isImage_iff.mp fun m hm =>
      (hall _ (inOrder_constraints hm)).1.constraints
    exact {
      columns := fun k r hk => (r.remapSchema_eq_subst_iff hab).mp (hcolumns k r hk)
      triggerLinks := fun k t hk => (t.remapSchema_eq_subst_iff hab).mp (hlinks k t hk)
      backingIndexes := fun k c hk => (c.remapSchema_eq_subst_iff hab).mp (hindexes k c hk)
      relations := hrelations
      types := htypes
      functions := hfunctions
      sequences := hsequences
      triggers := htriggers
      constraints := hconstraints }
  · intro htotal s' horder
    have hsubst : Substituted a b s (s'.renameSchemaNamespace a b) := {
      relations := rebuild_overlays_isImage_iff.mpr ⟨htotal.relations, fun k r hk =>
        (r.remapSchema_eq_subst_iff hab).mpr (htotal.columns k r hk)⟩ _ horder.relations
      types := (isImage_congr s'.renamed_types_lookup).mpr
        (rebuild_overlays_isImage_iff.mpr ⟨htotal.types, fun _ _ _ => rfl⟩ _ horder.types)
      functions := rebuild_overlays_isImage_iff.mpr ⟨htotal.functions, fun _ _ _ => rfl⟩ _
        horder.functions
      sequences := rebuild_overlays_isImage_iff.mpr ⟨htotal.sequences, fun _ _ _ => rfl⟩ _
        horder.sequences
      triggers := rebuild_overlays_isImage_iff.mpr ⟨htotal.triggers, fun k t hk =>
        (t.remapSchema_eq_subst_iff hab).mpr (htotal.triggerLinks k t hk)⟩ _ horder.triggers
      constraints := rebuild_isImage_iff.mpr ⟨htotal.constraints, fun k c hk =>
        (c.remapSchema_eq_subst_iff hab).mpr (htotal.backingIndexes k c hk)⟩ _ horder.constraints
      publications := horder.publications ▸ mapValues_isImage
      extensions := horder.extensions ▸ mapValues_isImage
      edges := fun e hkind => by
        rw [s'.renameSchemaNamespace_edges e hkind, horder.graph] }
    exact ⟨hsubst, hsubst.noneLeft hab⟩

/-! Objects across a rename that `apply_alter_schema` accepts. -/

/-- Every object present under `a` is present under `b` in `m'`, and `m'` does
not differ from the map `m₀` of another iteration order. -/
structure MapKept {α : Type} (a b : String) (m m₀ m' : KeyedMap ObjectId (Overlay α)) : Prop where
  kept : ∀ n state, m.lookup ⟨a, n⟩ = some (.present state) →
    ∃ state', m'.lookup ⟨b, n⟩ = some (.present state')
  order : ∀ k, m'.lookup k = m₀.lookup k

structure ObjectsKept (s t t' : AnalysisState) (a b : String) : Prop where
  relations : MapKept a b s.relations t.relations t'.relations
  types : MapKept a b s.types t.types t'.types
  functions : MapKept a b s.functions t.functions t'.functions
  sequences : MapKept a b s.sequences t.sequences t'.sequences
  triggers : MapKept a b s.triggers t.triggers t'.triggers

/-- Overlays under `a` and `b` with one name become equal by the rename. -/
structure MergesAgree (s : AnalysisState) (a b : String) : Prop where
  relations : Consistent (remapSchemaId a b) (Overlay.map (RelationState.remapSchema a b))
    s.relations
  types : Consistent (remapSchemaId a b) (Overlay.map (TypeState.substSchema a b)) s.types
  functions : Consistent (remapSchemaId a b) (Overlay.map (FunctionState.remapSchema a b))
    s.functions
  sequences : Consistent (remapSchemaId a b) (Overlay.map (SequenceState.remapSchema a b))
    s.sequences
  triggers : Consistent (remapSchemaId a b) (Overlay.map (TriggerState.remapSchema a b)) s.triggers

section Kept

variable {a b : String} {s : AnalysisState}

theorem rebuild_kept_iff {α : Type} {g : α → α} {m : KeyedMap ObjectId (Overlay α)} :
    (∀ m', Reordered m m' → MapKept a b m
      (rebuild (remapSchemaId a b) (Overlay.map g) m)
      (rebuild (remapSchemaId a b) (Overlay.map g) m')) ↔
    Consistent (remapSchemaId a b) (Overlay.map g) m := by
  constructor
  · intro hall
    exact rebuild_order_iff.mp fun m' hm => (hall m' hm).order
  · intro hc m' hm
    refine ⟨fun n state hk => ⟨g state, ?_⟩, rebuild_order_iff.mpr hc m' hm⟩
    rw [← hm.lookup_eq] at hk
    have hmoved : remapSchemaId a b ⟨a, n⟩ = ⟨b, n⟩ := by simp [remapSchemaId]
    rw [← hmoved]
    exact (hc.reordered hm).lookup_rebuild hk

theorem MapKept.congr {α : Type} {m m₀ m₁ m' m'' : KeyedMap ObjectId (Overlay α)}
    (h₀ : ∀ k, m₁.lookup k = m₀.lookup k) (h' : ∀ k, m''.lookup k = m'.lookup k)
    (h : MapKept a b m m₀ m') : MapKept a b m m₁ m'' where
  kept n state hk := h' _ ▸ h.kept n state hk
  order k := (h' k).trans ((h.order k).trans (h₀ k).symm)

/-- The catalog maps are not touched by a push onto the undo log. -/
theorem pushUndo_maps (s : AnalysisState) (change : StateChange) :
    (s.pushUndo change).relations = s.relations ∧ (s.pushUndo change).types = s.types ∧
      (s.pushUndo change).functions = s.functions ∧
      (s.pushUndo change).sequences = s.sequences ∧
      (s.pushUndo change).triggers = s.triggers := by
  unfold pushUndo
  split <;> exact ⟨rfl, rfl, rfl, rfl, rfl⟩

theorem applyAlterSchemaRename_of_applied
    (h : (s.applyAlterSchemaRename a b).1 = .applied) :
    (s.applyAlterSchemaRename a b).2 = s.snapshotSearchPath.renameSchemaNamespace a b := by
  unfold applyAlterSchemaRename at h ⊢
  split at h
  · cases h
  · cases h
  · cases h
  all_goals
    split at h
    · cases h
    · cases h
    · cases h
    · rfl
    · rfl

theorem InOrder.applied {s' : AnalysisState} (horder : s.InOrder s')
    (h : (s.applyAlterSchemaRename a b).1 = .applied) :
    (s'.applyAlterSchemaRename a b).1 = .applied := by
  have hlookup : ∀ name, s'.schemaLookup name = s.schemaLookup name := by
    intro name
    rw [horder.others]
    rfl
  unfold applyAlterSchemaRename at h ⊢
  rw [hlookup, hlookup]
  split at h
  · cases h
  · cases h
  · cases h
  all_goals
    split at h
    · cases h
    · cases h
    · cases h
    · rfl
    · rfl

/-- What the accepted rename does to the five maps, from the state before. -/
theorem objectsKept_of_applied {s' : AnalysisState} (horder : s.InOrder s')
    (h : (s.applyAlterSchemaRename a b).1 = .applied) :
    ObjectsKept s (s.applyAlterSchemaRename a b).2 (s'.applyAlterSchemaRename a b).2 a b ↔
      ObjectsKept s (s.renameSchemaNamespace a b) (s'.renameSchemaNamespace a b) a b := by
  rw [applyAlterSchemaRename_of_applied h, applyAlterSchemaRename_of_applied (horder.applied h)]
  have hsame : ∀ s : AnalysisState,
      (s.snapshotSearchPath.renameSchemaNamespace a b).relations =
          (s.renameSchemaNamespace a b).relations ∧
        (s.snapshotSearchPath.renameSchemaNamespace a b).types =
          (s.renameSchemaNamespace a b).types ∧
        (s.snapshotSearchPath.renameSchemaNamespace a b).functions =
          (s.renameSchemaNamespace a b).functions ∧
        (s.snapshotSearchPath.renameSchemaNamespace a b).sequences =
          (s.renameSchemaNamespace a b).sequences ∧
        (s.snapshotSearchPath.renameSchemaNamespace a b).triggers =
          (s.renameSchemaNamespace a b).triggers := by
    intro s
    obtain ⟨hr, ht, hf, hq, hg⟩ := s.pushUndo_maps
      (.searchPathSnapshot s.searchPath s.searchPathTemplate s.sessionSearchPathTemplate)
    refine ⟨?_, ?_, ?_, ?_, ?_⟩
    · exact congrArg (rebuild (remapSchemaId a b) (Overlay.map (RelationState.remapSchema a b))) hr
    · exact congrArg (fun m => mapValues (Overlay.map (TypeState.remapKind a b))
        (rebuild (remapSchemaId a b) (Overlay.map (TypeState.remapId a b)) m)) ht
    · exact congrArg (rebuild (remapSchemaId a b) (Overlay.map (FunctionState.remapSchema a b))) hf
    · exact congrArg (rebuild (remapSchemaId a b) (Overlay.map (SequenceState.remapSchema a b))) hq
    · exact congrArg (rebuild (remapSchemaId a b) (Overlay.map (TriggerState.remapSchema a b))) hg
  obtain ⟨hr, ht, hf, hq, hg⟩ := hsame s
  obtain ⟨hr', ht', hf', hq', hg'⟩ := hsame s'
  constructor
  · rintro ⟨h₁, h₂, h₃, h₄, h₅⟩
    exact ⟨hr ▸ hr' ▸ h₁, ht ▸ ht' ▸ h₂, hf ▸ hf' ▸ h₃, hq ▸ hq' ▸ h₄, hg ▸ hg' ▸ h₅⟩
  · rintro ⟨h₁, h₂, h₃, h₄, h₅⟩
    exact ⟨hr ▸ hr' ▸ h₁, ht ▸ ht' ▸ h₂, hf ▸ hf' ▸ h₃, hq ▸ hq' ▸ h₄, hg ▸ hg' ▸ h₅⟩

/-- An accepted rename keeps every object in every iteration order exactly
when no tombstone or other object of `b` is merged with an object of `a`. -/
theorem applyAlterSchemaRename_keeps_iff (h : (s.applyAlterSchemaRename a b).1 = .applied) :
    (∀ s', s.InOrder s' →
      ObjectsKept s (s.applyAlterSchemaRename a b).2 (s'.applyAlterSchemaRename a b).2 a b) ↔
    s.MergesAgree a b := by
  constructor
  · intro hall
    have hkept : ∀ s', s.InOrder s' →
        ObjectsKept s (s.renameSchemaNamespace a b) (s'.renameSchemaNamespace a b) a b :=
      fun s' horder => (objectsKept_of_applied horder h).mp (hall s' horder)
    refine ⟨?_, ?_, ?_, ?_, ?_⟩
    · exact rebuild_kept_iff.mp fun m hm => (hkept _ (inOrder_relations hm)).relations
    · exact rebuild_kept_iff.mp fun m hm => (hkept _ (inOrder_types hm)).types.congr
        (fun k => (s.renamed_types_lookup k).symm)
        (fun k => ((s.setTypes m).renamed_types_lookup k).symm)
    · exact rebuild_kept_iff.mp fun m hm => (hkept _ (inOrder_functions hm)).functions
    · exact rebuild_kept_iff.mp fun m hm => (hkept _ (inOrder_sequences hm)).sequences
    · exact rebuild_kept_iff.mp fun m hm => (hkept _ (inOrder_triggers hm)).triggers
  · intro hagree s' horder
    refine (objectsKept_of_applied horder h).mpr ⟨?_, ?_, ?_, ?_, ?_⟩
    · exact rebuild_kept_iff.mpr hagree.relations _ horder.relations
    · exact (rebuild_kept_iff.mpr hagree.types _ horder.types).congr s.renamed_types_lookup
        s'.renamed_types_lookup
    · exact rebuild_kept_iff.mpr hagree.functions _ horder.functions
    · exact rebuild_kept_iff.mpr hagree.sequences _ horder.sequences
    · exact rebuild_kept_iff.mpr hagree.triggers _ horder.triggers

end Kept

section Renames

/-- Schema `app` with these relations, and the tombstone of schema `core`. -/
def appState (relations : KeyedMap ObjectId RelationOverlay) : AnalysisState :=
  { schemas := ((∅ : KeyedMap String SchemaOverlay).insert "core" .dropped).insert "app"
      (.present { name := "app", owner := ⟨"", "postgres"⟩, generation := 0 }),
    relations }

def usersTable (typeId : Option ObjectId) : RelationState :=
  { RelationState.new ⟨"app", "users"⟩ ⟨"", "postgres"⟩ 0 none .table .permanent 0 with
    columns := [{ Column.migrationCreated "mood" (some "mood") true none with typeId }] }

def usersOnly (typeId : Option ObjectId) : KeyedMap ObjectId RelationOverlay :=
  (∅ : KeyedMap ObjectId RelationOverlay).insert ⟨"app", "users"⟩ (.present (usersTable typeId))

/-- The tombstone of `core.users` comes after the live `app.users`. -/
def usersAndTombstone : KeyedMap ObjectId RelationOverlay :=
  ((∅ : KeyedMap ObjectId RelationOverlay).insert ⟨"core", "users"⟩ .dropped).insert
    ⟨"app", "users"⟩ (.present (usersTable none))

theorem appState_renameTarget (relations : KeyedMap ObjectId RelationOverlay) :
    (appState relations).RenameTarget "app" "core" := ⟨rfl, rfl⟩

def usersTrigger : TriggerState :=
  { name := "audit", id := ⟨"app", "users\x00audit"⟩, tableId := ⟨"app", "users"⟩
    functionId := ⟨"public", "log()"⟩, rowLevel := true, parentTriggerId := none
    enabledMode := .origin, generation := 0 }

def totalFunction : FunctionState where
  id := ⟨"app", "total(integer)"⟩
  routineKind := .function
  argTypes := ["integer"]
  argTypeIds := [none]
  returnType := "mood"
  returnsSet := false
  parameters := []
  defaultCount := 0
  returnTypeId := some ⟨"app", "mood"⟩
  volatility := .volatile
  language := "sql"
  security := .invoker
  internalTypeOwner := none
  aggregate := none

/-- Two tables with an index, a foreign key, a check, a sequence and a trigger, an enum
and a function that returns it, beside the tombstone of another table of `core`. -/
def furnishedApp : AnalysisState :=
  let users : ObjectId := ⟨"app", "users"⟩
  let posts : ObjectId := ⟨"app", "posts"⟩
  { appState (((usersOnly none).insert posts
      (.present (.new posts ⟨"", "postgres"⟩ 0 none .table .permanent 0))).insert
        ⟨"core", "archive"⟩ .dropped) with
    types := AList.singleton ⟨"app", "mood"⟩
      (.present ⟨⟨"app", "mood"⟩, 0, ⟨"", "postgres"⟩, .enum ["good", "bad"]⟩)
    functions := AList.singleton totalFunction.id (.present totalFunction)
    sequences := AList.singleton ⟨"app", "users_id_seq"⟩ (.present
      { id := ⟨"app", "users_id_seq"⟩, owner := ⟨"", "postgres"⟩, ownedBy := some (users, "id"),
        kind := .owned, parameters := {}, runtime := .fresh 1, runtimeExact := true,
        generation := 0 })
    triggers := AList.singleton usersTrigger.id (.present usersTrigger)
    constraints := AList.singleton (users, "users_mood_check")
      { tableId := users, name := "users_mood_check", kind := .check, validated := true
        definition := none, backingIndex := none }
    graph := .ofEdges
      [⟨⟨"app", "users_email_idx"⟩, users, .indexOnRelation
          { method := some "btree", keys := [], included := [], expressionKeys := 0,
            unique := false, nullsNotDistinct := some false, predicate := .none,
            unestablished := false, valid := true, ready := true, live := true }
          ["email"] true false true true⟩,
        ⟨posts, users, .foreignKey (some "posts_user_fkey") ["user"] ["id"] none 0⟩,
        ⟨usersTrigger.id, users, .triggerOnTable usersTrigger.id usersTrigger.functionId 0⟩] }

theorem furnishedApp_renameTarget : furnishedApp.RenameTarget "app" "core" := ⟨rfl, rfl⟩

/-- Everything but the tombstone goes by the new schema, and the function and the foreign
key among it. -/
theorem furnishedApp_substituted :
    furnishedApp.RenameTarget "app" "core" ∧
      (∀ s', furnishedApp.InOrder s' →
        Substituted "app" "core" furnishedApp (s'.renameSchemaNamespace "app" "core") ∧
          NoneLeft "app" (s'.renameSchemaNamespace "app" "core")) ∧
      (furnishedApp.renameSchemaNamespace "app" "core").functions.lookup
        ⟨"core", "total(integer)"⟩ = some (.present (totalFunction.remapSchema "app" "core")) ∧
      ⟨⟨"core", "posts"⟩, ⟨"core", "users"⟩,
        .foreignKey (some "posts_user_fkey") ["user"] ["id"] none 0⟩ ∈
          (furnishedApp.renameSchemaNamespace "app" "core").graph.edges := by
  refine ⟨furnishedApp_renameTarget,
    (renameSchemaNamespace_substitutes_iff furnishedApp_renameTarget).mpr ?_,
    by decide +kernel, by decide +kernel⟩
  exact {
    columns := by
      intro k r hk
      have hkept : ∀ entry ∈ furnishedApp.relations.entries, ∀ i ∈
          (match entry.2 with
            | .present r => r.keptIdentities
            | .dropped => []), i.schema ≠ "app" := by decide +kernel
      exact hkept _ (MapRebuild.mem_entries_iff.mpr hk)
    triggerLinks := by
      intro k t hk
      have hkept : ∀ entry ∈ furnishedApp.triggers.entries, ∀ i ∈
          (match entry.2 with
            | .present t => t.keptIdentities
            | .dropped => []), i.schema ≠ "app" := by decide +kernel
      exact hkept _ (MapRebuild.mem_entries_iff.mpr hk)
    backingIndexes := by
      intro k c hk
      have hnone : ∀ entry ∈ furnishedApp.constraints.entries, ∀ i ∈ entry.2.backingIndex,
          i.schema ≠ "app" := by decide +kernel
      exact hnone _ (MapRebuild.mem_entries_iff.mpr hk)
    relations := consistent_of_nodup (by decide +kernel)
    types := consistent_of_nodup (by decide +kernel)
    functions := consistent_of_nodup (by decide +kernel)
    sequences := consistent_of_nodup (by decide +kernel)
    triggers := consistent_of_nodup (by decide +kernel)
    constraints := consistent_of_nodup (by decide +kernel) }

/-- The type of a column keeps the old schema name. -/
theorem columnType_not_substituted :
    (appState (usersOnly (some ⟨"app", "mood"⟩))).RenameTarget "app" "core" ∧
      ¬∀ s', (appState (usersOnly (some ⟨"app", "mood"⟩))).InOrder s' →
        Substituted "app" "core" (appState (usersOnly (some ⟨"app", "mood"⟩)))
          (s'.renameSchemaNamespace "app" "core") ∧
            NoneLeft "app" (s'.renameSchemaNamespace "app" "core") := by
  refine ⟨appState_renameTarget _, fun hall => ?_⟩
  have hnone := (hall _ (InOrder.refl _)).2
  have hrenamed : ((appState (usersOnly (some ⟨"app", "mood"⟩))).renameSchemaNamespace "app"
      "core").relations.lookup ⟨"core", "users"⟩ =
        some (.present ((usersTable (some ⟨"app", "mood"⟩)).remapSchema "app" "core")) := rfl
  have hid : (⟨"app", "mood"⟩ : ObjectId) ∈
      ((usersTable (some ⟨"app", "mood"⟩)).remapSchema "app" "core").identities := by
    decide +kernel
  exact (hnone.relations _ _ hrenamed).2 _ hid rfl

/-- No object of `app` has the name of the tombstone. -/
theorem furnishedApp_kept :
    (furnishedApp.applyAlterSchemaRename "app" "core").1 = .applied ∧
      ∀ s', furnishedApp.InOrder s' →
        ObjectsKept furnishedApp (furnishedApp.applyAlterSchemaRename "app" "core").2
          (s'.applyAlterSchemaRename "app" "core").2 "app" "core" := by
  refine ⟨by decide +kernel, (applyAlterSchemaRename_keeps_iff (by decide +kernel)).mpr ?_⟩
  exact {
    relations := consistent_of_nodup (by decide +kernel)
    types := consistent_of_nodup (by decide +kernel)
    functions := consistent_of_nodup (by decide +kernel)
    sequences := consistent_of_nodup (by decide +kernel)
    triggers := consistent_of_nodup (by decide +kernel) }

/-- A tombstone under the new name replaces the renamed table. -/
theorem tombstone_loses_table :
    ((appState usersAndTombstone).applyAlterSchemaRename "app" "core").1 = .applied ∧
      ¬∀ s', (appState usersAndTombstone).InOrder s' →
        ObjectsKept (appState usersAndTombstone)
          ((appState usersAndTombstone).applyAlterSchemaRename "app" "core").2
          (s'.applyAlterSchemaRename "app" "core").2 "app" "core" := by
  refine ⟨rfl, fun hall => ?_⟩
  have hlive : (appState usersAndTombstone).relations.lookup ⟨"app", "users"⟩ =
      some (.present (usersTable none)) := rfl
  obtain ⟨state, hstate⟩ := (hall _ (InOrder.refl _)).relations.kept _ _ hlive
  have hlost : ((appState usersAndTombstone).applyAlterSchemaRename "app" "core").2.relations.lookup
      ⟨"core", "users"⟩ = some .dropped := rfl
  rw [hlost] at hstate
  cases hstate

end Renames

end AnalysisState

end SafeMigrate
