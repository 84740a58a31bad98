import SafeMigrate.PartitionWrites

/-! What attaching and detaching a partition make of the families: links come
and go, predicates are forgotten, and an attachment refreshes the defaults. -/

namespace SafeMigrate

open Command AnalysisState SiblingCache

variable {text : PartitionText} {clauses : CheckClauses} {s t u : AnalysisState}
  {parent child : ObjectId}

/-- Predicates may be forgotten, and nothing else about the families changes. -/
structure ForgetsPredicates (s t : AnalysisState) : Prop where
  shape : t.partitions.shape = s.partitions.shape
  links : t.partitions.links = s.partitions.links
  cache : ∀ k value, t.partitions.cache k = some value → s.partitions.cache k = some value

theorem ForgetsPredicates.of_same (h : SamePartitions s t) : ForgetsPredicates s t :=
  ⟨by rw [h], by rw [h], fun k value hvalue => by rwa [h] at hvalue⟩

theorem ForgetsPredicates.trans (h : ForgetsPredicates s t) (h' : ForgetsPredicates t u) :
    ForgetsPredicates s u :=
  ⟨h'.shape.trans h.shape, h'.links.trans h.links, fun k value hvalue =>
    h.cache k value (h'.cache k value hvalue)⟩

instance : Std.Refl ForgetsPredicates := ⟨fun _ => .of_same rfl⟩

instance : IsTrans AnalysisState ForgetsPredicates := ⟨fun _ _ _ => .trans⟩

theorem forgetsPredicates_forget (s : AnalysisState) (id : ObjectId) :
    ForgetsPredicates s (s.forgetPartitionPredicate id) := by
  have hpresent (k : ObjectId) : (s.forgetPartitionPredicate id).presentRelation k =
      if k = id then (s.presentRelation id).map fun relation =>
        { relation with partitionConstraint := none } else s.presentRelation k := by
    rw [forgetPartitionPredicate, updateRelation, presentRelation_modifyRelation, snapshotRelation,
      presentRelation_pushUndo, presentRelation_pushUndo]
  refine ⟨partitions_shape_congr fun k => ?_, partitions_links_congr ?_, fun k value hvalue => ?_⟩
  · rw [hpresent]
    by_cases hk : k = id
    · subst hk
      cases s.presentRelation k <;> simp [RelationState.partitionShape]
    · rw [if_neg hk]
  · rw [forgetPartitionPredicate, updateRelation, modifyRelation_graph, snapshotRelation,
      pushUndo_graph]
  · by_cases hk : k = id
    · subst hk
      cases hrelation : s.presentRelation k <;> simp [partitions, hpresent, hrelation] at hvalue
    · simpa [partitions, hpresent, hk] using hvalue

theorem forgetsPredicates_invalidate (s : AnalysisState) (root : ObjectId) :
    ForgetsPredicates s (s.invalidateDescendantPartitionPredicates root) :=
  keeps_foldl _ (fun id _ s => forgetsPredicates_forget s id) s

/-- A relation under a new bound and predicate. -/
theorem setPartitionBound_partitions (s : AnalysisState) (id : ObjectId)
    (bound constraint : Option String) (inheritance : ColumnInheritance) :
    let t := s.updateRelation id (setPartitionBound bound constraint inheritance)
    t.partitions.links = s.partitions.links ∧
      t.partitions.shape = Function.update s.partitions.shape id
        ((s.partitions.shape id).map fun shape => { shape with partitionBound := bound }) ∧
      ∀ k, k ≠ id → t.partitions.cache k = s.partitions.cache k := by
  intro t
  have hpresent (k : ObjectId) : t.presentRelation k = if k = id then
      (s.presentRelation id).map (setPartitionBound bound constraint inheritance)
        else s.presentRelation k := by
    rw [show t = s.updateRelation id (setPartitionBound bound constraint inheritance) from rfl,
      updateRelation, presentRelation_modifyRelation, snapshotRelation, presentRelation_pushUndo,
      presentRelation_pushUndo]
  refine ⟨partitions_links_congr ?_, funext fun k => ?_, fun k hk => ?_⟩
  · rw [show t = s.updateRelation id (setPartitionBound bound constraint inheritance) from rfl,
      updateRelation, modifyRelation_graph, snapshotRelation, pushUndo_graph]
  · by_cases hk : k = id
    · subst hk
      rw [Function.update_self]
      cases hrelation : s.presentRelation k <;>
        simp [partitions, hpresent, hrelation, setPartitionBound, RelationState.partitionShape]
    · rw [Function.update_of_ne hk]
      simp [partitions, hpresent, hk]
  · simp [partitions, hpresent, hk]

section Refresh

/-- Refreshed members cache the aggregate, and the others what they did. -/
structure Refreshed (text : SqlText) (clauses : CheckClauses) (parent : ObjectId)
    (members : List ObjectId) (s t : AnalysisState) : Prop where
  shape : t.partitions.shape = s.partitions.shape
  links : t.partitions.links = s.partitions.links
  cache : ∀ k value, t.partitions.cache k = some value →
    k ∈ members ∧ (partitionScheme text clauses).aggregate s.partitions parent = some value ∨
      k ∉ members ∧ s.partitions.cache k = some value

theorem refreshed_member (htext : text.ReadsColumns clauses) (s : AnalysisState)
    (parent member : ObjectId) : Refreshed text.toSqlText clauses parent [member] s
      (s.modifyRelation member fun relation => { relation with
        partitionConstraint := s.synthesizeDefaultPartitionConstraint text.toSqlText parent }) := by
  refine ⟨partitions_shape_congr fun k => ?_, partitions_links_congr ?_, fun k value hvalue => ?_⟩
  · rw [presentRelation_modifyRelation]
    by_cases hk : k = member
    · subst hk
      cases s.presentRelation k <;> simp [RelationState.partitionShape]
    · rw [if_neg hk]
  · rw [modifyRelation_graph]
  · by_cases hk : k = member
    · subst hk
      refine Or.inl ⟨List.mem_singleton_self k, ?_⟩
      rw [← synthesizeDefaultPartitionConstraint_eq htext]
      cases hrelation : s.presentRelation k <;>
        simp [partitions, presentRelation_modifyRelation, hrelation] at hvalue
      exact hvalue
    · refine Or.inr ⟨by simpa using hk, ?_⟩
      simpa [partitions, presentRelation_modifyRelation, hk] using hvalue

theorem refreshed_members (htext : text.ReadsColumns clauses) (parent : ObjectId)
    (members : List ObjectId) (s : AnalysisState) :
    Refreshed text.toSqlText clauses parent members s (members.foldl (fun s child =>
      s.modifyRelation child fun relation => { relation with
        partitionConstraint := s.synthesizeDefaultPartitionConstraint text.toSqlText parent }) s) := by
  induction members generalizing s with
  | nil => exact ⟨rfl, rfl, fun k value hvalue => Or.inr ⟨List.not_mem_nil, hvalue⟩⟩
  | cons member members ih =>
    have hfirst := refreshed_member htext s parent member
    have hrest := ih (s.modifyRelation member fun relation => { relation with
      partitionConstraint := s.synthesizeDefaultPartitionConstraint text.toSqlText parent })
    refine ⟨hrest.shape.trans hfirst.shape, hrest.links.trans hfirst.links,
      fun k value hvalue => ?_⟩
    rcases hrest.cache k value hvalue with ⟨hmem, haggregate⟩ | ⟨hmem, hcached⟩
    · refine Or.inl ⟨List.mem_cons_of_mem _ hmem, ?_⟩
      rwa [Scheme.aggregate_congr hfirst.shape hfirst.links] at haggregate
    · rcases hfirst.cache k value hcached with ⟨hk, haggregate⟩ | ⟨hk, hold⟩
      · exact Or.inl ⟨by simp [List.mem_singleton.mp hk], haggregate⟩
      · refine Or.inr ⟨fun h => ?_, hold⟩
        rcases List.mem_cons.mp h with heq | htail
        · exact hk (List.mem_singleton.mpr heq)
        · exact hmem htail

theorem mem_defaultPartitions {member : ObjectId} : member ∈ s.defaultPartitions parent ↔
    (member, parent) ∈ s.partitions.links ∧
      (s.partitions.shape member).any PartitionShape.isDefault = true := by
  have hdefault (id : ObjectId) : ((s.presentRelation id).any fun relation =>
      relation.partitionBound.any isDefaultBound) =
        (s.partitions.shape id).any PartitionShape.isDefault := by
    cases hrelation : s.presentRelation id <;>
      simp [partitions, hrelation, PartitionShape.isDefault, RelationState.partitionShape]
  simp only [defaultPartitions, List.mem_filterMap, mem_links, Prod.mk.injEq, hdefault]
  constructor
  · rintro ⟨e, he, hmem⟩
    split at hmem
    · rename_i hcond
      obtain ⟨hends, hisDefault⟩ := hcond
      obtain ⟨hreferenced, hkind⟩ := Bool.and_eq_true_iff.mp hends
      obtain rfl := Option.some.inj hmem
      exact ⟨⟨e, he, hkind, rfl, by simpa using hreferenced⟩, hisDefault⟩
    · cases hmem
  · rintro ⟨⟨e, he, hkind, rfl, rfl⟩, hisDefault⟩
    exact ⟨e, he, by simp [hkind, hisDefault]⟩

end Refresh

/-- The families after a relation became a partition of `parent`. -/
structure Attaches (text : SqlText) (clauses : CheckClauses) (parent child : ObjectId)
    (F G : Family ObjectId PartitionShape String) : Prop where
  links : ∃ extra, G.links = F.links ++ extra ∧ ∀ link ∈ extra, link = (child, parent)
  shape : ∃ bound, G.shape = Function.update F.shape child
    ((F.shape child).map fun shape => { shape with partitionBound := bound })
  cache : ∀ k value, G.cache k = some value → (G.shape k).any PartitionShape.isDefault = true →
    (k, parent) ∈ G.links ∧ (partitionScheme text clauses).aggregate G parent = some value ∨
      (k, parent) ∉ G.links ∧ F.cache k = some value

theorem attachPartition_partitions (htext : text.ReadsColumns clauses) (s : AnalysisState)
    (parent child : ObjectId) (bound : Option String) :
    Attaches text.toSqlText clauses parent child s.partitions
      (s.attachPartition text parent child bound).partitions := by
  have hwrites : KeepsObjectWrites child (some parent) (LinksGrow child (some parent)) :=
    keepsObjectWrites_linksGrow
  let linked := s.addGraphEdge ⟨child, parent, .partitionOf⟩
  let forgotten := linked.invalidateDescendantPartitionPredicates child
  let canonical := bound.map text.canonicalPartitionBound
  let constraint := forgotten.attachedPartitionConstraint text parent child canonical
  let bounded := forgotten.updateRelation child (setPartitionBound canonical constraint ⟨1, false⟩)
  let refreshed := bounded.refreshDefaultPartitionConstraints text parent
  have hlinked : LinksGrow child (some parent) s linked :=
    hwrites.addGraphEdge s ⟨rfl, fun _ => ⟨rfl, rfl⟩⟩
  have hforgotten : ForgetsPredicates linked forgotten := forgetsPredicates_invalidate linked child
  obtain ⟨hboundedLinks, hboundedShape, hboundedCache⟩ :=
    setPartitionBound_partitions forgotten child canonical constraint ⟨1, false⟩
  have hrefreshed : Refreshed text.toSqlText clauses parent (bounded.defaultPartitions parent) bounded
      refreshed := refreshed_members htext parent _ bounded
  have hindexes : SamePartitions refreshed (refreshed.ensurePartitionIndexesAndConstraints parent
      child) := by
    have hnone : KeepsObjectWrites child none (LinksGrow child none) := keepsObjectWrites_linksGrow
    exact (hnone.ensurePartitionIndexesAndConstraints refreshed parent child).same
  have hresult : (s.attachPartition text parent child bound).partitions = refreshed.partitions :=
    hindexes
  have hmem : (child, parent) ∈ bounded.partitions.links := by
    rw [show bounded.partitions.links = linked.partitions.links from
      hboundedLinks.trans hforgotten.links]
    refine mem_links.mpr ⟨⟨child, parent, .partitionOf⟩, ?_, rfl, rfl⟩
    simp [linked, addGraphEdge, setGraph]
  obtain ⟨extra, hextraLinks, hextra⟩ := hlinked.links
  rw [hresult]
  refine ⟨⟨extra, ?_, fun link hlink => ?_⟩, ⟨canonical, ?_⟩, fun k value hvalue hdefault => ?_⟩
  · exact hrefreshed.links.trans (hboundedLinks.trans (hforgotten.links.trans hextraLinks))
  · obtain ⟨hmember, howner⟩ := hextra link hlink
    exact Prod.ext hmember (Option.some.inj howner)
  · rw [hrefreshed.shape, hboundedShape, hforgotten.shape, hlinked.shape]
  · rw [hrefreshed.shape] at hdefault
    rcases hrefreshed.cache k value hvalue with ⟨hmember, haggregate⟩ | ⟨hmember, hcached⟩
    · refine Or.inl ⟨?_, ?_⟩
      · rw [hrefreshed.links]
        exact (mem_defaultPartitions.mp hmember).1
      · rwa [Scheme.aggregate_congr hrefreshed.shape hrefreshed.links]
    · have hother : (k, parent) ∉ bounded.partitions.links := fun hlink =>
        hmember (mem_defaultPartitions.mpr ⟨hlink, hdefault⟩)
      have hk : k ≠ child := by
        rintro rfl
        exact hother hmem
      refine Or.inr ⟨by rwa [hrefreshed.links], ?_⟩
      rw [hboundedCache k hk] at hcached
      rw [← hlinked.cache]
      exact hforgotten.cache k value hcached

section Detach

/-- The families after a partition was detached from its parent. -/
structure Detaches (child : ObjectId) (clones : List ObjectId)
    (F G : Family ObjectId PartitionShape String) : Prop where
  links : ∃ keep, G.links = F.links.filter keep ∧
    ∀ link, keep link = false → link.1 = child ∨ link.1 ∈ clones
  shape : G.shape = Function.update F.shape child
    ((F.shape child).map fun shape => { shape with partitionBound := none })
  cache : ∀ k value, k ≠ child → G.cache k = some value → F.cache k = some value

theorem links_retainEdges (s : AnalysisState) (keep : DependencyEdge → Bool) :
    (s.setGraph (s.graph.retainEdges keep)).partitions.links =
      s.partitions.links.filter fun link => keep ⟨link.1, link.2, .partitionOf⟩ := by
  have hedges : (s.setGraph (s.graph.retainEdges keep)).graph.edgesOf DependencyKind.isPartitionOf =
      (s.graph.edgesOf DependencyKind.isPartitionOf).filter keep :=
    DependencyGraph.edgesOf_retainEdges keep
  unfold partitions
  rw [hedges, List.filter_map]
  refine congrArg (List.map _) (List.filter_congr fun e he => ?_)
  have hkind : e.kind = .partitionOf := isPartitionOf_iff.mp (List.mem_filter.mp he).2
  rw [Function.comp_apply, ← hkind]

/-- A sweep over edges leaves the relations, and filters the links. -/
theorem retainGraphEdges_partitions (s : AnalysisState) (keep : DependencyEdge → Bool) :
    (s.retainGraphEdges keep).partitions.shape = s.partitions.shape ∧
      (s.retainGraphEdges keep).partitions.cache = s.partitions.cache ∧
        (s.retainGraphEdges keep).partitions.links =
          s.partitions.links.filter fun link => keep ⟨link.1, link.2, .partitionOf⟩ := by
  have hsnapshot : SamePartitions s s.snapshotGraphFull := samePartitions_pushUndo s _
  have hshape : s.snapshotGraphFull.partitions.shape = s.partitions.shape := by rw [hsnapshot]
  have hcache : s.snapshotGraphFull.partitions.cache = s.partitions.cache := by rw [hsnapshot]
  refine ⟨hshape, hcache, ?_⟩
  rw [← hsnapshot]
  exact links_retainEdges s.snapshotGraphFull keep

theorem samePartitions_retainGraphEdges (s : AnalysisState) {keep : DependencyEdge → Bool}
    (h : ∀ e, e.kind.isPartitionOf = true → keep e = true) :
    SamePartitions s (s.retainGraphEdges keep) := by
  obtain ⟨hshape, hcache, hlinks⟩ := retainGraphEdges_partitions s keep
  refine Family.ext hshape hcache ?_
  rw [hlinks]
  exact List.filter_eq_self.mpr fun link _ => h _ rfl

theorem samePartitions_detachIndexes (s : AnalysisState) (table : ObjectId) :
    SamePartitions s (s.detachIndexPartitionsOfTable table) := by
  unfold detachIndexPartitionsOfTable
  dsimp only
  split
  · rfl
  · refine samePartitions_retainGraphEdges s fun e he => ?_
    simp [isPartitionOf_iff.mp he, DependencyKind.isIndexPartitionOf]

theorem samePartitions_retainCheck (s : AnalysisState) (parent child : ObjectId) :
    SamePartitions s (s.retainCheck text parent child) := by
  unfold retainCheck
  split
  · rfl
  · exact KeepsEvidence.taint s _ _
  · unfold registerRetainedPartitionCheck
    split
    · exact KeepsEvidence.taint s _ _
    · have hwrites : KeepsObjectWrites child none (LinksGrow child none) := keepsObjectWrites_linksGrow
      refine LinksGrow.same (?_ : LinksGrow child none s _)
      exact IsTrans.trans _ _ _ (hwrites.putConstraint s _)
        (hwrites.addGraphEdge _ (.of_kind rfl rfl))

/-- Removing clones of triggers cuts the edges that leave them. -/
structure CutsClones (clones : List ObjectId) (s t : AnalysisState) : Prop where
  shape : t.partitions.shape = s.partitions.shape
  cache : t.partitions.cache = s.partitions.cache
  links : ∃ keep, t.partitions.links = s.partitions.links.filter keep ∧
    ∀ link, keep link = false → link.1 ∈ clones

theorem CutsClones.of_same (clones : List ObjectId) (h : SamePartitions s t) :
    CutsClones clones s t :=
  ⟨by rw [h], by rw [h], fun _ => true, by simp [h], by simp⟩

theorem CutsClones.trans {clones : List ObjectId} (h : CutsClones clones s t)
    (h' : CutsClones clones t u) : CutsClones clones s u := by
  obtain ⟨keep, hlinks, hkeep⟩ := h.links
  obtain ⟨keep', hlinks', hkeep'⟩ := h'.links
  refine ⟨h'.shape.trans h.shape, h'.cache.trans h.cache, fun link => keep' link && keep link, ?_, ?_⟩
  · rw [hlinks', hlinks, List.filter_filter]
  · intro link hlink
    rcases Bool.and_eq_false_iff.mp hlink with hcut | hcut
    · exact hkeep' link hcut
    · exact hkeep link hcut

theorem cutsClones_removeTriggerClone (child : ObjectId) (s : AnalysisState)
    (clone : ObjectId × String) : CutsClones [clone.1] s (removeTriggerClone child s clone) := by
  have htrigger : SamePartitions s (s.tombstoneTrigger clone.1) :=
    samePartitions_of_eq (s.pushUndo_relations _) (by rw [← pushUndo_graph s]; rfl)
  have hlisted := samePartitions_modifyRelation (s.tombstoneTrigger clone.1) child
    (f := fun relation => { relation with triggers := relation.triggers.erase clone.2 })
    (fun _ => rfl) fun _ => rfl
  refine CutsClones.trans (.of_same _ (hlisted.trans htrigger)) ⟨rfl, rfl, _,
    links_retainEdges _ _, fun link hlink => ?_⟩
  simpa using hlink

theorem cutsClones_remove (s : AnalysisState) (parent child : ObjectId) :
    CutsClones ((s.partitionTriggerClones parent child).map (·.1)) s
      (s.removePartitionTriggerClones parent child) := by
  unfold removePartitionTriggerClones
  dsimp only
  split
  · exact .of_same _ rfl
  · have hsnapshot : SamePartitions s (s.snapshotRelation child).snapshotGraphFull :=
      (samePartitions_pushUndo _ _).trans (samePartitions_pushUndo s _)
    refine CutsClones.trans (.of_same _ hsnapshot) ?_
    generalize (s.snapshotRelation child).snapshotGraphFull = start
    generalize s.partitionTriggerClones parent child = clones
    induction clones generalizing start with
    | nil => exact .of_same _ rfl
    | cons clone clones ih =>
      have hfirst := cutsClones_removeTriggerClone child start clone
      have hrest := ih (removeTriggerClone child start clone)
      have hwiden {l : List ObjectId} {t u : AnalysisState} (h : CutsClones l t u)
          (hl : l ⊆ (clone :: clones).map (·.1)) : CutsClones ((clone :: clones).map (·.1)) t u := by
        obtain ⟨keep, hlinks, hkeep⟩ := h.links
        exact ⟨h.shape, h.cache, keep, hlinks, fun link hlink => hl (hkeep link hlink)⟩
      exact (hwiden hfirst (by simp)).trans (hwiden hrest (by simp))

theorem sameTriggers_updateRelation (s : AnalysisState) (id : ObjectId)
    (f : RelationState → RelationState) : SameTriggers s (s.updateRelation id f) := by
  unfold updateRelation modifyRelation
  split
  · exact s.pushUndo_triggers _
  · exact s.pushUndo_triggers _

theorem sameTriggers_retainCheck (s : AnalysisState) (parent child : ObjectId) :
    SameTriggers s (s.retainCheck text parent child) := by
  unfold retainCheck
  split
  · rfl
  · exact s.taint_triggers _ _
  · unfold registerRetainedPartitionCheck
    split
    · exact s.taint_triggers _ _
    · have hconstraint (constraint : ConstraintState) : SameTriggers s (s.putConstraint constraint) :=
        s.pushUndo_triggers _
      exact IsTrans.trans _ _ _ (hconstraint _) (pushUndo_triggers _ _)

/-- Detaching a partition cuts its link, and those of its trigger clones. -/
theorem detachPartition_partitions (s : AnalysisState) (parent child : ObjectId)
    (mode : DetachPartitionMode) : ∃ v : AnalysisState, SameTriggers s v ∧
      Detaches child ((v.partitionTriggerClones parent child).map (·.1)) s.partitions
        (s.detachPartition text parent child mode).partitions := by
  let attached (e : DependencyEdge) : Bool :=
    decide (e.kind = detachedKind mode) && e.dependent == child && e.referenced == parent
  let cut := s.retainGraphEdges fun e => !attached e
  let checked := if mode = .concurrently then cut.retainCheck text parent child else cut
  let forgotten := checked.invalidateDescendantPartitionPredicates child
  let reset := forgotten.updateRelation child (setPartitionBound none none ⟨0, true⟩)
  obtain ⟨hcutShape, hcutCache, hcutLinks⟩ := retainGraphEdges_partitions s fun e => !attached e
  have hchecked : SamePartitions cut checked :=
    keeps_ite (fun _ => samePartitions_retainCheck cut parent child) fun _ => rfl
  have hforgotten : ForgetsPredicates checked forgotten := forgetsPredicates_invalidate checked child
  obtain ⟨hresetLinks, hresetShape, hresetCache⟩ :=
    setPartitionBound_partitions forgotten child none none ⟨0, true⟩
  have hclones := cutsClones_remove reset parent child
  have htriggers : SameTriggers s reset := by
    have hcut : SameTriggers s cut := s.pushUndo_triggers _
    have hcheck : SameTriggers cut checked :=
      keeps_ite (fun _ => sameTriggers_retainCheck cut parent child) fun _ => rfl
    have hforget : SameTriggers checked forgotten :=
      keeps_foldl _ (fun _ _ s => sameTriggers_updateRelation s _ _) checked
    exact (sameTriggers_updateRelation forgotten child _).trans (hforget.trans (hcheck.trans hcut))
  obtain ⟨keep, hkeepLinks, hkeep⟩ := hclones.links
  refine ⟨reset, htriggers, ⟨fun link => keep link && !attached ⟨link.1, link.2, .partitionOf⟩,
    hkeepLinks.trans ?_, fun link hlink => ?_⟩, ?_, fun k value hk hvalue => ?_⟩
  · rw [hresetLinks, hforgotten.links, hchecked, hcutLinks, List.filter_filter]
  · rcases Bool.and_eq_false_iff.mp hlink with hcut | hcut
    · exact Or.inr (hkeep link hcut)
    · refine Or.inl ?_
      simp only [attached, Bool.not_eq_false', Bool.and_eq_true, beq_iff_eq] at hcut
      exact hcut.1.2
  · have hshape : (reset.removePartitionTriggerClones parent child).partitions.shape = _ :=
      hclones.shape.trans hresetShape
    rw [hforgotten.shape, hchecked, hcutShape] at hshape
    exact hshape
  · have hcached : (reset.removePartitionTriggerClones parent child).partitions.cache k = some value :=
      hvalue
    rw [hclones.cache, hresetCache k hk] at hcached
    have hold := hforgotten.cache k value hcached
    rwa [hchecked, hcutCache] at hold

end Detach

end SafeMigrate
