import SafeMigrate.AlterColumn
import SafeMigrate.MirroredLinks
import SafeMigrate.PartitionWrites

/-! Partitions mirror the columns of their parents: names, and declared types.
What the actions on columns do to such a pair, and what leaves it alone. -/

namespace SafeMigrate

open Command AnalysisState MirroredLinks

def sameDeclaredType (text : PartitionText) (parent child : Column) : Prop :=
  parent.typeModifier = child.typeModifier ∧
    (parent.typeId = child.typeId ∧ parent.dataType = child.dataType ∨
      sameColumnType text parent child = some true)

/-- The same column names, and for each of them the same declared type. -/
structure SameColumns (text : PartitionText) (parent child : List Column) : Prop where
  names : ∀ name, name ∈ parent.map (·.name) ↔ name ∈ child.map (·.name)
  types : ∀ p ∈ parent, ∀ c ∈ child, p.name = c.name → sameDeclaredType text p c

def DistinctNames (columns : List Column) : Prop := (columns.map (·.name)).Nodup

section Lists

variable {text : PartitionText} {parent child columns : List Column}

theorem DistinctNames.eq_of_name (h : DistinctNames columns) {c c' : Column} (hc : c ∈ columns)
    (hc' : c' ∈ columns) (hname : c.name = c'.name) : c = c' :=
  List.inj_on_of_nodup_map h hc hc' hname

/-- What a column declares, beside its defaults and its storage. -/
def Column.declared (c : Column) : String × Option ObjectId × Option String × Option Int :=
  (c.name, c.typeId, c.dataType, c.typeModifier)

theorem map_name_of_declared {left right : List Column}
    (h : left.map Column.declared = right.map Column.declared) :
    left.map (·.name) = right.map (·.name) := by
  have hmap := congrArg (List.map Prod.fst) h
  simpa [List.map_map, Function.comp_def, Column.declared] using hmap

/-- A copy that declares the same columns. -/
theorem SameColumns.of_declared (h : child.map Column.declared = parent.map Column.declared)
    (hparent : DistinctNames parent) : SameColumns text parent child := by
  have hnames := map_name_of_declared h
  refine ⟨fun name => by rw [hnames], fun p hp c hc hname => ?_⟩
  have hmem : c.declared ∈ parent.map Column.declared := by
    rw [← h]
    exact List.mem_map_of_mem hc
  obtain ⟨p', hp', hdeclared⟩ := List.mem_map.mp hmem
  have hname' : p'.name = c.name := congrArg Prod.fst hdeclared
  obtain rfl := hparent.eq_of_name hp hp' (hname.trans hname'.symm)
  simp only [Column.declared, Prod.mk.injEq] at hdeclared
  exact ⟨hdeclared.2.2.2, Or.inl ⟨hdeclared.2.1, hdeclared.2.2.1⟩⟩

section UpdateFirst

/-- The only column of that name is the first. -/
theorem updateFirst_name (h : DistinctNames columns) (name : String) (f : Column → Column) :
    updateFirst (fun c => c.name == name) f columns =
      columns.map fun c => if c.name = name then f c else c := by
  induction columns with
  | nil => rfl
  | cons c cs ih =>
    have hcons : c.name ∉ cs.map (·.name) ∧ DistinctNames cs := List.nodup_cons.mp h
    by_cases hc : c.name = name
    · have hrest : cs.map (fun c => if c.name = name then f c else c) = cs := by
        refine (List.map_congr_left fun c' hc' => if_neg fun heq => ?_).trans (List.map_id cs)
        exact hcons.1 (List.mem_map.mpr ⟨c', hc', heq.trans hc.symm⟩)
      simp [updateFirst, hc, hrest]
    · simp [updateFirst, hc, ih hcons.2]

theorem any_updateFirst {α : Type} {p q : α → Bool} {f : α → α} (hf : ∀ x, q (f x) = true)
    {l : List α} (h : l.any p = true) : (updateFirst p f l).any q = true := by
  induction l with
  | nil => cases h
  | cons x xs ih =>
    by_cases hp : p x = true
    · simp [updateFirst, hp, hf]
    · have hxs : xs.any p = true := by simpa [hp] using h
      simp [updateFirst, hp, ih hxs]

end UpdateFirst

/-- The columns after `RENAME COLUMN`. -/
def renamedColumns (oldName newName : String) (columns : List Column) : List Column :=
  if !(columns.any fun c => c.name == oldName) || columns.any (fun c => c.name == newName) then columns
  else updateFirst (fun c => c.name == oldName) (fun c => { c with name := newName }) columns

theorem any_name {name : String} :
    (columns.any fun c => c.name == name) = true ↔ name ∈ columns.map (·.name) := by
  simp [List.any_eq_true]

theorem renamedColumns_idem (oldName newName : String) (columns : List Column) :
    renamedColumns oldName newName (renamedColumns oldName newName columns) =
      renamedColumns oldName newName columns := by
  by_cases hkept : (!(columns.any fun c => c.name == oldName) ||
      columns.any fun c => c.name == newName) = true
  · have hsame : renamedColumns oldName newName columns = columns := if_pos hkept
    rw [hsame, hsame]
  · -- the new name is there after the first round
    have hfirst : renamedColumns oldName newName columns = updateFirst
        (fun c => c.name == oldName) (fun c => { c with name := newName }) columns := if_neg hkept
    have hold : (columns.any fun c => c.name == oldName) = true := by
      rw [Bool.or_eq_true, not_or, Bool.not_eq_true, Bool.not_eq_false'] at hkept
      exact hkept.1
    refine if_pos ?_
    rw [hfirst, Bool.or_eq_true]
    exact Or.inr (any_updateFirst (fun c => by simp) hold)

/-- How a rename acts on the columns one by one. -/
def renamedOne (oldName newName : String) (c : Column) : Column :=
  if c.name = oldName then { c with name := newName } else c

/-- Under a new name that is free, a rename changes one column of each name. -/
theorem renamedColumns_cases (h : DistinctNames columns) (oldName newName : String) :
    (oldName ∈ columns.map (·.name) ∧ newName ∉ columns.map (·.name) ∧
        renamedColumns oldName newName columns = columns.map (renamedOne oldName newName)) ∨
      ((oldName ∉ columns.map (·.name) ∨ newName ∈ columns.map (·.name)) ∧
        renamedColumns oldName newName columns = columns) := by
  by_cases hold : oldName ∈ columns.map (·.name)
  · by_cases hnew : newName ∈ columns.map (·.name)
    · exact Or.inr ⟨Or.inr hnew, if_pos (by simp [any_name.mpr hnew])⟩
    · have hany : (columns.any fun c => c.name == newName) = false := by
        rw [← Bool.not_eq_true, any_name]
        exact hnew
      refine Or.inl ⟨hold, hnew, ?_⟩
      have hupdated : renamedColumns oldName newName columns =
          updateFirst (fun c => c.name == oldName) (fun c => { c with name := newName }) columns :=
        if_neg (by simp [any_name.mpr hold, hany])
      rw [hupdated, updateFirst_name h]
      rfl
  · have hany : (columns.any fun c => c.name == oldName) = false := by
      rw [← Bool.not_eq_true, any_name]
      exact hold
    exact Or.inr ⟨Or.inl hold, if_pos (by simp [hany])⟩

theorem renamedOne_name (oldName newName : String) (c : Column) :
    (renamedOne oldName newName c).name = renamedColumn oldName newName c.name := by
  unfold renamedOne renamedColumn
  by_cases hc : c.name = oldName
  · rw [if_pos hc, if_pos hc]
  · rw [if_neg hc, if_neg hc]

/-- Names other than the new one stay apart. -/
theorem renamedColumn_inj {oldName newName a b : String} (ha : a ≠ newName) (hb : b ≠ newName)
    (h : renamedColumn oldName newName a = renamedColumn oldName newName b) : a = b := by
  unfold renamedColumn at h
  by_cases hao : a = oldName
  · by_cases hbo : b = oldName
    · rw [hao, hbo]
    · rw [if_pos hao, if_neg hbo] at h
      exact absurd h.symm hb
  · by_cases hbo : b = oldName
    · rw [if_neg hao, if_pos hbo] at h
      exact absurd h ha
    · rwa [if_neg hao, if_neg hbo] at h

theorem sameDeclaredType_renamedOne (oldName newName : String) {p c : Column} :
    sameDeclaredType text (renamedOne oldName newName p) (renamedOne oldName newName c) ↔
      sameDeclaredType text p c := by
  unfold renamedOne
  by_cases hp : p.name = oldName
  · by_cases hc : c.name = oldName
    · rw [if_pos hp, if_pos hc]
      rfl
    · rw [if_pos hp, if_neg hc]
      rfl
  · by_cases hc : c.name = oldName
    · rw [if_neg hp, if_pos hc]
      rfl
    · rw [if_neg hp, if_neg hc]

theorem map_name_renamedOne (oldName newName : String) (columns : List Column) :
    (columns.map (renamedOne oldName newName)).map (·.name) =
      (columns.map (·.name)).map (renamedColumn oldName newName) := by
  simp [List.map_map, Function.comp_def, renamedOne_name]

theorem DistinctNames.rename (h : DistinctNames columns) (oldName newName : String) :
    DistinctNames (renamedColumns oldName newName columns) := by
  rcases renamedColumns_cases h oldName newName with ⟨-, hnew, hmap⟩ | ⟨-, hsame⟩
  · rw [hmap, DistinctNames, map_name_renamedOne]
    refine List.Nodup.map_on (fun a ha b hb heq => renamedColumn_inj ?_ ?_ heq) h
    · rintro rfl
      exact hnew ha
    · rintro rfl
      exact hnew hb
  · rwa [hsame]

/-- Two tables that mirror each other and rename the same column still do. -/
theorem SameColumns.rename (h : SameColumns text parent child) (hparent : DistinctNames parent)
    (hchild : DistinctNames child) (oldName newName : String) :
    SameColumns text (renamedColumns oldName newName parent)
      (renamedColumns oldName newName child) := by
  rcases renamedColumns_cases hparent oldName newName with ⟨hold, hnew, hp⟩ | ⟨hkept, hp⟩
  · rcases renamedColumns_cases hchild oldName newName with ⟨-, hnew', hc⟩ | ⟨hkept, -⟩
    · rw [hp, hc]
      refine ⟨fun name => ?_, fun p hp c hc hname => ?_⟩
      · rw [map_name_renamedOne, map_name_renamedOne]
        constructor
        · intro hmem
          obtain ⟨a, ha, hname⟩ := List.mem_map.mp hmem
          exact List.mem_map.mpr ⟨a, (h.names a).mp ha, hname⟩
        · intro hmem
          obtain ⟨a, ha, hname⟩ := List.mem_map.mp hmem
          exact List.mem_map.mpr ⟨a, (h.names a).mpr ha, hname⟩
      · obtain ⟨a, ha, rfl⟩ := List.mem_map.mp hp
        obtain ⟨b, hb, rfl⟩ := List.mem_map.mp hc
        rw [renamedOne_name, renamedOne_name] at hname
        have han : a.name ≠ newName := fun heq => hnew (heq ▸ List.mem_map_of_mem ha)
        have hbn : b.name ≠ newName := fun heq => hnew' (heq ▸ List.mem_map_of_mem hb)
        exact (sameDeclaredType_renamedOne oldName newName).mpr
          (h.types a ha b hb (renamedColumn_inj han hbn hname))
    · rcases hkept with hold' | hnew'
      · exact absurd ((h.names oldName).mp hold) hold'
      · exact absurd ((h.names newName).mpr hnew') hnew
  · rcases renamedColumns_cases hchild oldName newName with ⟨hold, hnew, -⟩ | ⟨-, hc⟩
    · rcases hkept with hold' | hnew'
      · exact absurd ((h.names oldName).mpr hold) hold'
      · exact absurd ((h.names newName).mp hnew') hnew
    · rwa [hp, hc]

section Attachment

/-- As many distinct names, all of them in a second list, are all its names. -/
theorem mem_of_subset_of_length {names names' : List String} (hnodup : names.Nodup)
    (hsubset : names ⊆ names') (hlength : names.length = names'.length) : names' ⊆ names := by
  have hperm : names.Subperm names' := hnodup.subperm hsubset
  exact (hperm.perm_of_length_le hlength.ge).symm.subset

theorem firstDoubt_ok {verdicts : List (Except String Bool)} (h : firstDoubt verdicts = .ok true) :
    ∀ verdict ∈ verdicts, verdict = .ok true := by
  induction verdicts with
  | nil => simp
  | cons verdict verdicts ih =>
    match verdict, h with
    | .ok true, h =>
      intro v hv
      rcases List.mem_cons.mp hv with rfl | hmem
      · rfl
      · exact ih h v hmem

/-- A child that an attachment accepts has the columns of its parent. -/
theorem sameColumns_of_compatible {s : AnalysisState} {parentId childId : ObjectRef}
    {parent child : RelationState}
    (h : s.partitionAttachmentIsCompatible text parentId childId = .ok true)
    (hparent : s.presentRelation parentId.id = some parent)
    (hchild : s.presentRelation childId.id = some child)
    (hdistinct : DistinctNames parent.columns) (hdistinct' : DistinctNames child.columns) :
    SameColumns text parent.columns child.columns := by
  unfold partitionAttachmentIsCompatible at h
  rw [hparent, hchild] at h
  dsimp only at h
  by_cases hlength : parent.columns.length = child.columns.length
  · rw [if_neg (not_not.mpr hlength)] at h
    have hverdicts (p : Column) (hp : p ∈ parent.columns) :
        partitionColumnVerdict text childId parent child p = .ok true :=
      firstDoubt_ok h _ (by simp [List.mem_map_of_mem hp])
    have hfound (p : Column) (hp : p ∈ parent.columns) : ∃ c ∈ child.columns, c.name = p.name ∧
        sameColumnType text p c = some true ∧ p.typeModifier = c.typeModifier := by
      have hverdict := hverdicts p hp
      unfold partitionColumnVerdict at hverdict
      cases hfind : child.columns.find? (·.name == p.name) with
      | none =>
        rw [hfind] at hverdict
        cases hverdict
      | some c =>
        rw [hfind] at hverdict
        dsimp only at hverdict
        refine ⟨c, List.mem_of_find?_eq_some hfind, by simpa using List.find?_some hfind, ?_⟩
        cases htype : sameColumnType text p c with
        | none =>
          rw [htype] at hverdict
          cases hverdict
        | some same =>
          rw [htype] at hverdict
          dsimp only at hverdict
          by_cases hdiffers : same = false ∨ p.typeModifier ≠ c.typeModifier
          · rw [if_pos hdiffers] at hverdict
            cases hverdict
          · obtain ⟨hsame, hmodifier⟩ := not_or.mp hdiffers
            exact ⟨by simpa using hsame, not_not.mp hmodifier⟩
    have hsubset : parent.columns.map (·.name) ⊆ child.columns.map (·.name) := by
      intro name hname
      obtain ⟨p, hp, rfl⟩ := List.mem_map.mp hname
      obtain ⟨c, hc, heq, -⟩ := hfound p hp
      exact List.mem_map.mpr ⟨c, hc, heq⟩
    refine ⟨fun name => ⟨fun hname => hsubset hname, fun hname => ?_⟩, fun p hp c hc hname => ?_⟩
    · exact mem_of_subset_of_length hdistinct hsubset (by simpa using hlength) hname
    · obtain ⟨c', hc', heq, htype, hmodifier⟩ := hfound p hp
      obtain rfl := hdistinct'.eq_of_name hc hc' (hname.symm.trans heq.symm)
      exact ⟨hmodifier, Or.inr htype⟩
  · rw [if_pos hlength] at h
    cases h

end Attachment

end Lists

/-- The columns of a relation, and whether they are all of them. -/
structure TableColumns where
  columns : List Column
  complete : Bool

def RelationState.tableColumns (relation : RelationState) : TableColumns :=
  ⟨relation.columns, relation.columnsComplete⟩

def TableColumns.Distinct (table : TableColumns) : Prop :=
  table.complete = true → DistinctNames table.columns

/-- Nothing is said of a relation whose columns are not all known. -/
def TableColumns.Mirrors (text : PartitionText) (parent child : TableColumns) : Prop :=
  parent.complete = true → child.complete = true → SameColumns text parent.columns child.columns

def TableColumns.rename (oldName newName : String) (table : TableColumns) : TableColumns :=
  { table with columns := renamedColumns oldName newName table.columns }

theorem TableColumns.rename_idem (oldName newName : String) (table : TableColumns) :
    (table.rename oldName newName).rename oldName newName = table.rename oldName newName :=
  congrArg (TableColumns.mk · table.complete) (renamedColumns_idem oldName newName table.columns)

theorem TableColumns.Mirrors.rename {text : PartitionText} {oldName newName : String}
    {parent child : TableColumns} (hparent : parent.Distinct) (hchild : child.Distinct)
    (h : parent.Mirrors text child) :
    (parent.rename oldName newName).Mirrors text (child.rename oldName newName) :=
  fun hp hc => (h hp hc).rename (hparent hp) (hchild hc) oldName newName

namespace AnalysisState

def columnNet (s : AnalysisState) : Net ObjectId TableColumns where
  objects id := (s.presentRelation id).map RelationState.tableColumns
  links := (s.graph.edgesOf DependencyKind.isPartitionOf).map fun e => (e.dependent, e.referenced)

def NoAliases (s : AnalysisState) : Prop := ∀ e ∈ s.graph.edges, e.kind.isRenameTo = false

variable {s t u : AnalysisState}

theorem mem_columnLinks {link : ObjectId × ObjectId} : link ∈ s.columnNet.links ↔
    ∃ e ∈ s.graph.edges, e.kind.isPartitionOf = true ∧ (e.dependent, e.referenced) = link := by
  simp [columnNet, DependencyGraph.edgesOf, and_assoc]

/-- What was certain stays so, or is tainted. -/
def KeepsCertainty (s t : AnalysisState) : Prop :=
  t.confidence = .tainted ∨ t.evidence = s.evidence ∧ t.confidence = s.confidence

theorem KeepsCertainty.trans (h : KeepsCertainty s t) (h' : KeepsCertainty t u) :
    KeepsCertainty s u := by
  rcases h' with htainted | ⟨hevidence, hconfidence⟩
  · exact Or.inl htainted
  · rcases h with htainted | ⟨hevidence', hconfidence'⟩
    · exact Or.inl (hconfidence.trans htainted)
    · exact Or.inr ⟨hevidence.trans hevidence', hconfidence.trans hconfidence'⟩

theorem keepsCertainty_pushUndo (s : AnalysisState) (change : StateChange) :
    KeepsCertainty s (s.pushUndo change) := by
  refine Or.inr ?_
  unfold pushUndo
  split
  · exact ⟨rfl, rfl⟩
  · exact ⟨rfl, rfl⟩

/-- Evidence either was recorded before, or taints. -/
theorem keepsCertainty_taint (s : AnalysisState) (code : EvidenceCode) (scope : EvidenceScope) :
    KeepsCertainty s (s.taint code scope) := by
  unfold taint recordEvidence markTainted
  dsimp only
  split
  · exact Or.inr ⟨rfl, rfl⟩
  · refine Or.inl ?_
    split
    · assumption
    · rfl

theorem taint_of_no_evidence (h : s.evidence.records = []) (code : EvidenceCode)
    (scope : EvidenceScope) : (s.taint code scope).confidence = .tainted := by
  unfold taint recordEvidence markTainted
  dsimp only
  rw [h, if_neg List.not_mem_nil]
  split
  · assumption
  · rfl

/-- Only partition edges from `id` to its declared parent are new, no alias
is, and every relation keeps its columns. -/
structure Records (id : ObjectId) (declared : Option ObjectId) (s t : AnalysisState) : Prop where
  objects : t.columnNet.objects = s.columnNet.objects
  edges : ∀ e ∈ t.graph.edges, e ∈ s.graph.edges ∨ e.RecordedFor id declared
  certainty : KeepsCertainty s t

variable {id : ObjectId} {declared : Option ObjectId}

theorem objects_congr (h : ∀ k, (t.presentRelation k).map RelationState.tableColumns =
    (s.presentRelation k).map RelationState.tableColumns) :
    t.columnNet.objects = s.columnNet.objects := funext h

theorem Records.of_same (hr : t.relations = s.relations) (hg : t.graph = s.graph)
    (hcertain : KeepsCertainty s t) : Records id declared s t where
  objects := objects_congr fun k => by
    have hk : t.presentRelation k = s.presentRelation k := presentRelation_congr (by rw [hr])
    rw [hk]
  edges e he := Or.inl (hg ▸ he)
  certainty := hcertain

theorem Records.pushUndo (s : AnalysisState) (change : StateChange) :
    Records id declared s (s.pushUndo change) :=
  .of_same (s.pushUndo_relations change) (s.pushUndo_graph change) (keepsCertainty_pushUndo s change)

instance : KeepsEvidence (Records id declared) where
  refl _ := .of_same rfl rfl (Or.inr ⟨rfl, rfl⟩)
  trans _ _ _ h h' := by
    refine ⟨h'.objects.trans h.objects, fun e he => ?_, h.certainty.trans h'.certainty⟩
    rcases h'.edges e he with hold | hnew
    · exact h.edges e hold
    · exact Or.inr hnew
  taint s code scope :=
    .of_same (s.taint_relations code scope) (s.taint_graph code scope)
      (keepsCertainty_taint s code scope)

/-- A change to the graph alone. -/
theorem Records.setGraph (s : AnalysisState) {g : DependencyGraph}
    (h : ∀ e ∈ g.edges, e ∈ s.graph.edges ∨ e.RecordedFor id declared) :
    Records id declared s (s.setGraph g) where
  objects := objects_congr fun _ => rfl
  edges := h
  certainty := Or.inr ⟨rfl, rfl⟩

theorem Records.addEdge (s : AnalysisState) {edge : DependencyEdge}
    (h : edge.RecordedFor id declared) :
    Records id declared s (s.setGraph (s.graph.addEdge edge)) := by
  refine .setGraph s fun e he => ?_
  rcases DependencyGraph.mem_addEdge.mp he with hold | rfl
  · exact Or.inl hold
  · exact Or.inr h

theorem Records.addEdges (s : AnalysisState) {edges : List DependencyEdge}
    (h : ∀ edge ∈ edges, edge.RecordedFor id declared) :
    Records id declared s (s.setGraph (edges.foldl DependencyGraph.addEdge s.graph)) := by
  induction edges generalizing s with
  | nil => exact Std.Refl.refl s
  | cons edge edges ih =>
    exact IsTrans.trans _ _ _ (.addEdge s (h edge List.mem_cons_self))
      (ih (s.setGraph (s.graph.addEdge edge)) fun e he => h e (List.mem_cons_of_mem edge he))

theorem Records.retainEdges (s : AnalysisState) (keep : DependencyEdge → Bool) :
    Records id declared s (s.setGraph (s.graph.retainEdges keep)) :=
  .setGraph s fun _ he => Or.inl (DependencyGraph.mem_retainEdges.mp he).1

/-- A rewrite of edges that leaves aliases and partitions alone. -/
theorem Records.mapEdges (s : AnalysisState) {f : DependencyEdge → DependencyEdge}
    (h : ∀ e, f e = e ∨ (f e).kind.isRenameTo = false ∧ (f e).kind.isPartitionOf = false) :
    Records id declared s (s.setGraph (s.graph.mapEdges f)) := by
  refine .setGraph s fun e he => ?_
  obtain ⟨x, hx, rfl⟩ := DependencyGraph.mem_mapEdges.mp he
  rcases h x with hsame | ⟨halias, hpartition⟩
  · rw [hsame]
    exact Or.inl hx
  · exact Or.inr (.of_kind halias hpartition)

/-- A write to a relation that leaves its columns alone. -/
theorem Records.modifyRelation (s : AnalysisState) (k : ObjectId) {f : RelationState → RelationState}
    (h : ∀ r, (f r).tableColumns = r.tableColumns) :
    Records id declared s (s.modifyRelation k f) where
  objects := objects_congr fun j => by
    rw [presentRelation_modifyRelation]
    by_cases hj : j = k
    · subst hj
      cases s.presentRelation j <;> simp [h]
    · rw [if_neg hj]
  edges _ he := Or.inl (by rwa [modifyRelation_graph] at he)
  certainty := by
    unfold AnalysisState.modifyRelation
    split
    · exact Or.inr ⟨rfl, rfl⟩
    · exact Or.inr ⟨rfl, rfl⟩

theorem Records.updateRelation (s : AnalysisState) (k : ObjectId) {f : RelationState → RelationState}
    (h : ∀ r, (f r).tableColumns = r.tableColumns) :
    Records id declared s (s.updateRelation k f) :=
  IsTrans.trans _ _ _ (.pushUndo s _) (.modifyRelation _ k h)

/-- A change to other fields, behind a snapshot. -/
theorem Records.write (s : AnalysisState) (change : StateChange) (hr : t.relations = s.relations)
    (hg : t.graph = s.graph) (hevidence : t.evidence = (s.pushUndo change).evidence)
    (hconfidence : t.confidence = (s.pushUndo change).confidence) : Records id declared s t := by
  refine .of_same hr hg ((keepsCertainty_pushUndo s change).trans (Or.inr ⟨hevidence, hconfidence⟩))

theorem mem_updateIndexDefinition {g : DependencyGraph} {index : ObjectId}
    {f : IndexDefinition → IndexDefinition} {e : DependencyEdge}
    (he : e ∈ (g.updateIndexDefinition index f).edges) :
    e ∈ g.edges ∨ e.RecordedFor id declared := by
  have hlasting {p : DependencyKind → Bool} (hp : ∀ kind, kind.isIndexOnRelation = true →
      p kind = false) (hkind : p e.kind = true) : e ∈ g.edges := by
    have hmem : e ∈ (g.updateIndexDefinition index f).edgesOf p := List.mem_filter.mpr ⟨he, hkind⟩
    rw [DependencyGraph.edgesOf_updateIndexDefinition hp] at hmem
    exact (List.mem_filter.mp hmem).1
  cases halias : e.kind.isRenameTo with
  | true => exact Or.inl (hlasting (fun _ => DependencyKind.isRenameTo_of_index) halias)
  | false =>
    cases hpartition : e.kind.isPartitionOf with
    | true => exact Or.inl (hlasting (fun _ => DependencyKind.isPartitionOf_of_index) hpartition)
    | false => exact Or.inr (.of_kind halias hpartition)

/-- Building the objects of a table leaves every column alone. -/
theorem keepsObjectWrites_records : KeepsObjectWrites id declared (Records id declared) where
  listTrigger s _ := .updateRelation s id fun _ => rfl
  bumpGeneration s := .write s _ (s.pushUndo_relations _) (s.pushUndo_graph _) rfl rfl
  addGraphEdge s edge h := IsTrans.trans _ _ _ (.pushUndo s _) (.addEdge _ h)
  addGraphEdges s _ h := IsTrans.trans _ _ _ (.pushUndo s _) (.addEdges _ h)
  addGraphEdgeFull s edge h := IsTrans.trans _ _ _ (.pushUndo s _) (.addEdge _ h)
  putConstraint s _ := .write s _ (s.pushUndo_relations _) (s.pushUndo_graph _) rfl rfl
  putConstraintEdges s writes h := by
    refine IsTrans.trans _ _ _ (.pushUndo s _) (keeps_foldl writes (fun write hwrite s => ?_) _)
    have hput : Records id declared s (s.putConstraint write.1) :=
      .write s _ (s.pushUndo_relations _) (s.pushUndo_graph _) rfl rfl
    exact IsTrans.trans _ _ _ hput (.addEdge _ (h write hwrite))
  putSequence s k f := by
    have hsnapshot : Records id declared s (s.snapshotSequence k) := .pushUndo s _
    exact IsTrans.trans _ _ _ hsnapshot
      (.write _ _ (pushUndo_relations _ _) (pushUndo_graph _ _) rfl rfl)
  putTrigger s _ := .write s _ (s.pushUndo_relations _) (s.pushUndo_graph _) rfl rfl
  setIndexDefinition s index f := by
    have hsnapshot : Records id declared s s.snapshotGraphFull := .pushUndo s _
    exact IsTrans.trans _ _ _ hsnapshot (.setGraph _ fun e he => mem_updateIndexDefinition he)

end AnalysisState

end SafeMigrate
