import SafeMigrate.AlterColumn

/-! The columns that a dependency edge names, on the side of its dependent and on
the side of what it refers to, and their substitution. -/

namespace SafeMigrate

def IndexKey.columnNames (key : IndexKey) : List String :=
  match key.kind with
  | .column name => [name]
  | .expression _ => []

def IndexKey.mapColumn (f : String → String) (key : IndexKey) : IndexKey :=
  match key.kind with
  | .column name => { key with kind := .column (f name) }
  | .expression _ => key

namespace DependencyKind

/-- The columns of its dependent that an edge names. -/
def dependentColumns : DependencyKind → List String
  | foreignKey _ fromColumns .. => fromColumns
  | constraintOnRelation _ columns _ => columns
  | constraintDependency _ columns => columns
  | columnGeneratedFrom column _ => [column]
  | columnDefaultOnSequence column => [column]
  | _ => []

/-- The columns of the referenced relation that an edge names. -/
def referencedColumns : DependencyKind → List String
  | foreignKey _ _ toColumns .. => toColumns
  | viewDependency _ column => column.toList
  | indexOnRelation definition columns .. =>
    definition.keys.flatMap (·.columnNames) ++ definition.included.flatMap (·.columnNames) ++ columns
  | sequenceOwnedBy column => [column]
  | columnGeneratedFrom _ dependsOnColumn => [dependsOnColumn]
  | _ => []

/-- The same dependency under other names of the columns, side by side. -/
def mapColumns (f g : String → String) : DependencyKind → DependencyKind
  | foreignKey name fromColumns toColumns operatorEvidence generation =>
    foreignKey name (fromColumns.map f) (toColumns.map g) operatorEvidence generation
  | viewDependency generation column => viewDependency generation (column.map g)
  | indexOnRelation definition columns known isConcurrent isImmediate eligible =>
    indexOnRelation
      { definition with
        keys := definition.keys.map (·.mapColumn g)
        included := definition.included.map (·.mapColumn g) }
      (columns.map g) known isConcurrent isImmediate eligible
  | constraintOnRelation name columns isPrimary =>
    constraintOnRelation name (columns.map f) isPrimary
  | constraintDependency name columns => constraintDependency name (columns.map f)
  | sequenceOwnedBy column => sequenceOwnedBy (g column)
  | columnGeneratedFrom column dependsOnColumn =>
    columnGeneratedFrom (f column) (g dependsOnColumn)
  | columnDefaultOnSequence column => columnDefaultOnSequence (f column)
  | kind => kind

/-- The kinds whose referenced columns are renamed by the table's own sweep. -/
def isKeyOrGeneration : DependencyKind → Bool
  | foreignKey .. => true
  | columnGeneratedFrom .. => true
  | _ => false

section Substitution

variable {f f' g g' : String → String} {kind : DependencyKind}

theorem columnNames_mapColumn (key : IndexKey) :
    (key.mapColumn g).columnNames = key.columnNames.map g := by
  unfold IndexKey.mapColumn IndexKey.columnNames
  cases hkind : key.kind <;> simp [hkind]

theorem flatMap_columnNames (keys : List IndexKey) :
    (keys.map (·.mapColumn g)).flatMap (·.columnNames) =
      (keys.flatMap (·.columnNames)).map g := by
  induction keys with
  | nil => rfl
  | cons key keys ih =>
    rw [List.map_cons, List.flatMap_cons, List.flatMap_cons, List.map_append, ih,
      columnNames_mapColumn]

@[simp] theorem dependentColumns_mapColumns :
    (kind.mapColumns f g).dependentColumns = kind.dependentColumns.map f := by
  cases kind <;> rfl

@[simp] theorem referencedColumns_mapColumns :
    (kind.mapColumns f g).referencedColumns = kind.referencedColumns.map g := by
  cases kind with
  | indexOnRelation definition columns =>
    simp only [mapColumns, referencedColumns, flatMap_columnNames, List.map_append]
  | viewDependency generation column => cases column <;> rfl
  | _ => rfl

theorem mapColumn_congr {key : IndexKey} (h : ∀ name ∈ key.columnNames, g name = g' name) :
    key.mapColumn g = key.mapColumn g' := by
  unfold IndexKey.mapColumn
  cases hkind : key.kind with
  | column name =>
    have hname : g name = g' name := h name (by simp [IndexKey.columnNames, hkind])
    simp only [hname]
  | expression _ => rfl

theorem map_mapColumn_congr {keys : List IndexKey}
    (h : ∀ name ∈ keys.flatMap (·.columnNames), g name = g' name) :
    keys.map (·.mapColumn g) = keys.map (·.mapColumn g') := by
  refine List.map_congr_left fun key hkey => mapColumn_congr fun name hname => ?_
  exact h name (List.mem_flatMap.mpr ⟨key, hkey, hname⟩)

/-- Only what the names that occur are mapped to counts. -/
theorem mapColumns_congr (hf : ∀ name ∈ kind.dependentColumns, f name = f' name)
    (hg : ∀ name ∈ kind.referencedColumns, g name = g' name) :
    kind.mapColumns f g = kind.mapColumns f' g' := by
  cases kind with
  | foreignKey name fromColumns toColumns operatorEvidence generation =>
    have hfrom : fromColumns.map f = fromColumns.map f' := List.map_congr_left hf
    have hto : toColumns.map g = toColumns.map g' := List.map_congr_left hg
    rw [mapColumns, mapColumns, hfrom, hto]
  | viewDependency generation column =>
    cases column with
    | none => rfl
    | some column => simp only [mapColumns, Option.map_some, hg column List.mem_cons_self]
  | indexOnRelation definition columns =>
    simp only [referencedColumns, List.mem_append] at hg
    simp only [mapColumns, List.map_congr_left fun name hname => hg name (Or.inr hname),
      map_mapColumn_congr fun name hname => hg name (Or.inl (Or.inl hname)),
      map_mapColumn_congr fun name hname => hg name (Or.inl (Or.inr hname))]
  | constraintOnRelation name columns isPrimary =>
    have hcolumns : columns.map f = columns.map f' := List.map_congr_left hf
    rw [mapColumns, mapColumns, hcolumns]
  | constraintDependency name columns =>
    have hcolumns : columns.map f = columns.map f' := List.map_congr_left hf
    rw [mapColumns, mapColumns, hcolumns]
  | sequenceOwnedBy column => simp only [mapColumns, hg column List.mem_cons_self]
  | columnGeneratedFrom column dependsOnColumn =>
    simp only [mapColumns, hf column List.mem_cons_self, hg dependsOnColumn List.mem_cons_self]
  | columnDefaultOnSequence column => simp only [mapColumns, hf column List.mem_cons_self]
  | _ => rfl

theorem mapColumn_id (key : IndexKey) : key.mapColumn id = key := by
  unfold IndexKey.mapColumn
  cases hkind : key.kind with
  | column name => simp only [id, ← hkind]
  | expression _ => rfl

@[simp] theorem mapColumns_id : kind.mapColumns id id = kind := by
  have hkeys (keys : List IndexKey) : keys.map (·.mapColumn id) = keys :=
    List.map_id'' mapColumn_id keys
  cases kind <;> simp [mapColumns, hkeys]

theorem mapColumn_mapColumn (key : IndexKey) :
    (key.mapColumn g).mapColumn g' = key.mapColumn (g' ∘ g) := by
  unfold IndexKey.mapColumn
  cases hkind : key.kind <;> simp [hkind]

theorem mapColumns_mapColumns :
    (kind.mapColumns f g).mapColumns f' g' = kind.mapColumns (f' ∘ f) (g' ∘ g) := by
  cases kind <;> simp [mapColumns, Function.comp_def, mapColumn_mapColumn]

@[simp] theorem isRenameTo_mapColumns : (kind.mapColumns f g).isRenameTo = kind.isRenameTo := by
  cases kind <;> rfl

@[simp] theorem isIndexOnRelation_mapColumns :
    (kind.mapColumns f g).isIndexOnRelation = kind.isIndexOnRelation := by
  cases kind <;> rfl

@[simp] theorem isSequenceOwnedBy_mapColumns :
    (kind.mapColumns f g).isSequenceOwnedBy = kind.isSequenceOwnedBy := by
  cases kind <;> rfl

@[simp] theorem isKeyOrGeneration_mapColumns :
    (kind.mapColumns f g).isKeyOrGeneration = kind.isKeyOrGeneration := by
  cases kind <;> rfl

end Substitution

end DependencyKind

end SafeMigrate
