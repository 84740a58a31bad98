import SafeMigrate.PartitionFamilies

/-! Which writes leave the families of partitions as they are, and which only
link the table being built to its parent. -/

namespace SafeMigrate

open Command AnalysisState SiblingCache

variable {id : ObjectId} {declared : Option ObjectId} {s t u : AnalysisState}

theorem presentRelation_congr {k : ObjectId} (h : t.relations.lookup k = s.relations.lookup k) :
    t.presentRelation k = s.presentRelation k := by
  rw [presentRelation, presentRelation, h]

@[simp] theorem presentRelation_pushUndo (s : AnalysisState) (change : StateChange) (k : ObjectId) :
    (s.pushUndo change).presentRelation k = s.presentRelation k :=
  presentRelation_congr (by rw [pushUndo_relations])

theorem presentRelation_insert (s : AnalysisState) (id k : ObjectId) (relation : RelationState) :
    (s.setRelations (s.relations.insert id (.present relation))).presentRelation k =
      if k = id then some relation else s.presentRelation k := by
  by_cases hk : k = id
  · subst hk
    simp [presentRelation, setRelations]
  · rw [if_neg hk]
    exact presentRelation_congr (AList.lookup_insert_ne hk)

theorem presentRelation_modifyRelation (s : AnalysisState) (id k : ObjectId)
    (f : RelationState → RelationState) : (s.modifyRelation id f).presentRelation k =
      if k = id then (s.presentRelation id).map f else s.presentRelation k := by
  unfold modifyRelation
  cases hid : s.presentRelation id with
  | some relation => rw [Option.map_some, presentRelation_insert]
  | none =>
    by_cases hk : k = id
    · simp [hk, hid]
    · simp [hk]

@[simp] theorem modifyRelation_graph (s : AnalysisState) (id : ObjectId)
    (f : RelationState → RelationState) : (s.modifyRelation id f).graph = s.graph := by
  unfold modifyRelation
  split <;> rfl

theorem partitions_shape_congr (h : ∀ k, (t.presentRelation k).map RelationState.partitionShape =
    (s.presentRelation k).map RelationState.partitionShape) :
    t.partitions.shape = s.partitions.shape := funext h

theorem partitions_cache_congr (h : ∀ k, (t.presentRelation k).bind (·.partitionConstraint) =
    (s.presentRelation k).bind (·.partitionConstraint)) :
    t.partitions.cache = s.partitions.cache := funext h

theorem partitions_links_congr (h : t.graph.edgesOf DependencyKind.isPartitionOf =
    s.graph.edgesOf DependencyKind.isPartitionOf) : t.partitions.links = s.partitions.links := by
  rw [partitions, partitions, h]

/-- The families stay, but for new links of `id` to its declared parent. -/
structure LinksGrow (id : ObjectId) (declared : Option ObjectId) (s t : AnalysisState) : Prop where
  shape : t.partitions.shape = s.partitions.shape
  cache : t.partitions.cache = s.partitions.cache
  links : ∃ extra, t.partitions.links = s.partitions.links ++ extra ∧
    ∀ link ∈ extra, link.1 = id ∧ some link.2 = declared

/-- Without a parent to link to, the families are the same. -/
abbrev SamePartitions (s t : AnalysisState) : Prop := t.partitions = s.partitions

theorem LinksGrow.same (h : LinksGrow id none s t) : SamePartitions s t := by
  obtain ⟨extra, hlinks, hextra⟩ := h.links
  have hnil : extra = [] := by
    refine List.eq_nil_iff_forall_not_mem.mpr fun link hlink => ?_
    cases (hextra link hlink).2
  rw [hnil, List.append_nil] at hlinks
  exact Family.ext h.shape h.cache hlinks

theorem LinksGrow.of_same (h : SamePartitions s t) : LinksGrow id declared s t :=
  ⟨by rw [h], by rw [h], [], by simp [h], by simp⟩

theorem samePartitions_of_eq (hr : t.relations = s.relations)
    (hg : t.graph.edgesOf DependencyKind.isPartitionOf =
      s.graph.edgesOf DependencyKind.isPartitionOf) : SamePartitions s t := by
  have hpresent (k : ObjectId) : t.presentRelation k = s.presentRelation k :=
    presentRelation_congr (by rw [hr])
  rw [SamePartitions, partitions, partitions, hg]
  simp only [hpresent]

theorem samePartitions_pushUndo (s : AnalysisState) (change : StateChange) :
    SamePartitions s (s.pushUndo change) :=
  samePartitions_of_eq (s.pushUndo_relations change) (by rw [pushUndo_graph])

instance : KeepsEvidence SamePartitions where
  refl _ := rfl
  trans _ _ _ h h' := Eq.trans h' h
  taint s code scope := samePartitions_of_eq (s.taint_relations code scope)
    (by rw [s.taint_graph code scope])

instance : KeepsEvidence (LinksGrow id declared) where
  refl _ := .of_same rfl
  trans _ _ _ h h' := by
    obtain ⟨extra, hlinks, hextra⟩ := h.links
    obtain ⟨extra', hlinks', hextra'⟩ := h'.links
    refine ⟨h'.shape.trans h.shape, h'.cache.trans h.cache, extra ++ extra', ?_, ?_⟩
    · rw [hlinks', hlinks, List.append_assoc]
    · intro link hlink
      rcases List.mem_append.mp hlink with hmem | hmem
      · exact hextra link hmem
      · exact hextra' link hmem
  taint s code scope := .of_same (KeepsEvidence.taint s code scope)

/-- A write to a relation that no predicate reads. -/
theorem samePartitions_modifyRelation (s : AnalysisState) (id : ObjectId)
    {f : RelationState → RelationState} (hshape : ∀ r, (f r).partitionShape = r.partitionShape)
    (hcache : ∀ r, (f r).partitionConstraint = r.partitionConstraint) :
    SamePartitions s (s.modifyRelation id f) := by
  have hs : (s.modifyRelation id f).partitions.shape = s.partitions.shape := by
    refine partitions_shape_congr fun k => ?_
    rw [presentRelation_modifyRelation]
    by_cases hk : k = id
    · subst hk
      cases s.presentRelation k <;> simp [hshape]
    · rw [if_neg hk]
  have hc : (s.modifyRelation id f).partitions.cache = s.partitions.cache := by
    refine partitions_cache_congr fun k => ?_
    rw [presentRelation_modifyRelation]
    by_cases hk : k = id
    · subst hk
      cases s.presentRelation k <;> simp [hcache]
    · rw [if_neg hk]
  have hl : (s.modifyRelation id f).partitions.links = s.partitions.links :=
    partitions_links_congr (by rw [modifyRelation_graph])
  exact Family.ext hs hc hl

theorem linksGrow_addEdge (s : AnalysisState) {edge : DependencyEdge}
    (h : edge.RecordedFor id declared) : LinksGrow id declared s (s.setGraph (s.graph.addEdge edge)) := by
  cases hkind : edge.kind.isPartitionOf with
  | false =>
    exact .of_same (samePartitions_of_eq rfl (DependencyGraph.edgesOf_addEdge hkind))
  | true =>
    refine ⟨rfl, rfl, ?_⟩
    by_cases hmem : edge ∈ s.graph.edges
    · refine ⟨[], ?_, by simp⟩
      have hsame : s.graph.addEdge edge = s.graph := by simp [DependencyGraph.addEdge, hmem]
      rw [hsame, List.append_nil]
      rfl
    · refine ⟨[(edge.dependent, edge.referenced)], ?_, ?_⟩
      · simp [partitions, setGraph, DependencyGraph.edgesOf, DependencyGraph.addEdge, hmem, hkind]
      · intro link hlink
        obtain rfl := List.mem_singleton.mp hlink
        exact h.2 hkind

theorem linksGrow_addEdges (s : AnalysisState) {edges : List DependencyEdge}
    (h : ∀ edge ∈ edges, edge.RecordedFor id declared) :
    LinksGrow id declared s (s.setGraph (edges.foldl DependencyGraph.addEdge s.graph)) := by
  induction edges generalizing s with
  | nil => exact Std.Refl.refl s
  | cons edge edges ih =>
    exact IsTrans.trans _ _ _ (linksGrow_addEdge s (h edge List.mem_cons_self))
      (ih (s.setGraph (s.graph.addEdge edge)) fun e he => h e (List.mem_cons_of_mem edge he))

theorem samePartitions_putConstraint (s : AnalysisState) (constraint : ConstraintState) :
    SamePartitions s (s.putConstraint constraint) :=
  samePartitions_of_eq (s.pushUndo_relations _) (by rw [← pushUndo_graph s]; rfl)

theorem samePartitions_bumpGeneration (s : AnalysisState) : SamePartitions s s.bumpGeneration :=
  samePartitions_of_eq (s.pushUndo_relations _) (by rw [← pushUndo_graph s]; rfl)

/-- Building the objects of a table links it to its declared parent at most. -/
theorem keepsObjectWrites_linksGrow : KeepsObjectWrites id declared (LinksGrow id declared) where
  listTrigger s name := by
    have hsnapshot : SamePartitions s (s.snapshotRelation id) := samePartitions_pushUndo s _
    refine .of_same (Eq.trans ?_ hsnapshot)
    exact samePartitions_modifyRelation _ id (fun _ => rfl) fun _ => rfl
  bumpGeneration s := .of_same (samePartitions_bumpGeneration s)
  addGraphEdge s _ h := IsTrans.trans _ _ _ (.of_same (samePartitions_pushUndo s _))
    (linksGrow_addEdge _ h)
  addGraphEdges s _ h := IsTrans.trans _ _ _ (.of_same (samePartitions_pushUndo s _))
    (linksGrow_addEdges _ h)
  addGraphEdgeFull s _ h := IsTrans.trans _ _ _ (.of_same (samePartitions_pushUndo s _))
    (linksGrow_addEdge _ h)
  putConstraint s constraint := .of_same (samePartitions_putConstraint s constraint)
  putConstraintEdges s writes h := by
    refine IsTrans.trans _ _ _ (.of_same (samePartitions_pushUndo s _))
      (keeps_foldl writes (fun write hwrite s => ?_) _)
    exact IsTrans.trans _ _ _ (.of_same (samePartitions_putConstraint s write.1))
      (linksGrow_addEdge _ (h write hwrite))
  putSequence s _ _ := .of_same ((samePartitions_of_eq rfl rfl).trans
    ((samePartitions_bumpGeneration _).trans (samePartitions_pushUndo s _)))
  putTrigger s _ := .of_same (samePartitions_of_eq (s.pushUndo_relations _)
    (by rw [← pushUndo_graph s]; rfl))
  setIndexDefinition s index f := by
    have hsnapshot : SamePartitions s s.snapshotGraphFull := samePartitions_pushUndo s _
    refine .of_same (Eq.trans ?_ hsnapshot)
    exact samePartitions_of_eq rfl (DependencyGraph.edgesOf_updateIndexDefinition
      (fun _ => DependencyKind.isPartitionOf_of_index) index f)

end SafeMigrate
