import SafeMigrate.AlterColumn
import SafeMigrate.InsertionOrder
import SafeMigrate.Publication
import SafeMigrate.SchemaRename
import SafeMigrate.TypeRename

/-! The dependency graph as it is stored: the edge list, the set of its edges,
and lookup indexes that are built when a lookup first asks for them. -/

namespace SafeMigrate

open InsertionOrder

/-- Places of edges in the edge list. -/
structure GraphIndexes where
  renameBySource : KeyedMap ObjectId Nat
  byResolvedReferenced : KeyedMap ObjectId (List Nat)

structure GraphStore where
  edges : List DependencyEdge
  edgeSet : Finset DependencyEdge
  indexes : Option GraphIndexes

namespace GraphIndexes

/-- The loop of `resolve_rename_with`, over the places of rename edges. -/
def followRenames (edges : List DependencyEdge) (renames : KeyedMap ObjectId Nat) (id : ObjectId) :
    Nat → List ObjectId → ObjectId → ObjectId
  | 0, _, _ => id
  | fuel + 1, visited, current =>
    if current ∈ visited then id
    else match (renames.lookup current).bind fun index => edges[index]? with
      | some edge => followRenames edges renames id fuel (current :: visited) edge.referenced
      | none => current

def resolveRenameWith (edges : List DependencyEdge) (renames : KeyedMap ObjectId Nat)
    (id : ObjectId) : ObjectId :=
  followRenames edges renames id (edges.length + 2) [] id

/-- The first rename edge that leaves an identity is the one to follow. -/
def recordRename (renames : KeyedMap ObjectId Nat) (entry : DependencyEdge × Nat) :
    KeyedMap ObjectId Nat :=
  if entry.1.kind.isRenameTo = true ∧ renames.lookup entry.1.dependent = none then
    renames.insert entry.1.dependent entry.2
  else renames

def recordReferenced (resolve : ObjectId → ObjectId) (places : KeyedMap ObjectId (List Nat))
    (entry : DependencyEdge × Nat) : KeyedMap ObjectId (List Nat) :=
  let referenced := resolve entry.1.referenced
  places.insert referenced ((places.lookup referenced).getD [] ++ [entry.2])

def build (edges : List DependencyEdge) : GraphIndexes :=
  let renames := edges.zipIdx.foldl recordRename ∅
  { renameBySource := renames
    byResolvedReferenced :=
      edges.zipIdx.foldl (recordReferenced (resolveRenameWith edges renames)) ∅ }

end GraphIndexes

namespace GraphStore

def new : GraphStore := ⟨[], ∅, none⟩

def invalidateIndexes (g : GraphStore) : GraphStore := { g with indexes := none }

def rebuildEdgeSet (g : GraphStore) : GraphStore := { g with edgeSet := g.edges.toFinset }

def deduplicateEdges (g : GraphStore) : GraphStore :=
  { g with edges := retainUnseen [] g.edges, edgeSet := g.edges.toFinset }

def addEdge (g : GraphStore) (edge : DependencyEdge) : GraphStore :=
  if edge ∈ g.edgeSet then g
  else invalidateIndexes { g with edges := g.edges ++ [edge], edgeSet := insert edge g.edgeSet }

def retainEdges (g : GraphStore) (keep : DependencyEdge → Bool) : GraphStore :=
  let kept := { g with edges := g.edges.filter keep }
  if kept.edges.length ≠ g.edges.length then kept.rebuildEdgeSet.invalidateIndexes else kept

def edgeCount (g : GraphStore) : Nat := g.edges.length

def truncate (g : GraphStore) (len : Nat) : GraphStore :=
  if g.edges.length ≤ len then g
  else (rebuildEdgeSet { g with edges := g.edges.take len }).invalidateIndexes

def replaceEdges (g : GraphStore) (edges : List DependencyEdge) : GraphStore :=
  (deduplicateEdges { g with edges }).invalidateIndexes

def mutateEdges (g : GraphStore) (mutate : List DependencyEdge → List DependencyEdge) :
    GraphStore :=
  (deduplicateEdges { g with edges := mutate g.edges }).invalidateIndexes

/-- A clone builds its own indexes. -/
def clone (g : GraphStore) : GraphStore := ⟨g.edges, g.edges.toFinset, none⟩

/-- The indexes, and the graph once it has them. -/
def readIndexes (g : GraphStore) : GraphIndexes × GraphStore :=
  match g.indexes with
  | some indexes => (indexes, g)
  | none =>
    let indexes := GraphIndexes.build g.edges
    (indexes, { g with indexes := some indexes })

def resolveRename (g : GraphStore) (id : ObjectId) : ObjectId :=
  GraphIndexes.resolveRenameWith g.edges g.readIndexes.1.renameBySource id

def resolvedReferencedEdges (g : GraphStore) (id : ObjectId) : List DependencyEdge :=
  ((g.readIndexes.1.byResolvedReferenced.lookup (g.resolveRename id)).getD []).filterMap
    fun index => g.edges[index]?

end GraphStore

/-- The operations that rewrite every edge in place. -/
inductive EdgeRewrite
  | remapIndexCollation (oldName newName : ResolvedName)
  | remapIndexCollationSchema (oldSchema newSchema : String)
  | remapSchemaNamespace (oldSchema newSchema : String)
  | propagateRelationRename (oldId newId : ObjectId)
  | propagateIndexRename (oldId newId : ObjectId)
  | propagateSequenceRename (oldId newId : ObjectId)
  | propagateTriggerRename (oldId newId : ObjectId)
  | propagateFunctionRename (oldId newId : ObjectId)
  | propagateTypeRename (oldId newId : ObjectId)
  | propagateViewReferenceRename (oldName newName : ObjectId)
  | renameConstraint (table : ObjectId) (oldName newName : String)
  | renameColumnDependencies (table : ObjectId) (oldName newName : String)
  | renameIndexColumn (table : ObjectId) (oldName newName : String)
  | renameOwnedSequenceColumn (sequence : ObjectId) (oldName newName : String)
  | renamePublication (oldName newName : String)

def IndexKey.moveCollation (oldName newName : ResolvedName) (key : IndexKey) : IndexKey :=
  match key.collation with
  | .resolved name => if name = oldName then { key with collation := .resolved newName } else key
  | _ => key

namespace DependencyEdge

def moveIndexCollation (oldName newName : ResolvedName) (e : DependencyEdge) : DependencyEdge :=
  match e.kind with
  | .indexOnRelation definition columns known isConcurrent isImmediate eligible =>
    let definition := { definition with
      keys := definition.keys.map (IndexKey.moveCollation oldName newName)
      included := definition.included.map (IndexKey.moveCollation oldName newName) }
    { e with
      kind := .indexOnRelation definition columns known isConcurrent isImmediate eligible }
  | _ => e

def renameViewReference (oldName newName : ObjectId) (e : DependencyEdge) : DependencyEdge :=
  match e.kind with
  | .viewUsesRoutine (some reference) =>
    if reference = oldName then
      { e with referenced := newName, kind := .viewUsesRoutine (some newName) }
    else e
  | _ => e

def renameIndexColumn (table : ObjectId) (oldName newName : String) (e : DependencyEdge) :
    DependencyEdge :=
  if e.referenced = table then
    { e with kind := DependencyGraph.renamedIndex oldName newName e.kind }
  else e

def renameOwnedSequenceColumn (sequence : ObjectId) (oldName newName : String)
    (e : DependencyEdge) : DependencyEdge :=
  match e.kind with
  | .sequenceOwnedBy column =>
    if e.dependent = sequence then
      { e with kind := .sequenceOwnedBy (renamedColumn oldName newName column) }
    else e
  | _ => e

end DependencyEdge

/-- What an operation makes of one edge. -/
def EdgeRewrite.edge : EdgeRewrite → DependencyEdge → DependencyEdge
  | remapIndexCollation oldName newName => DependencyEdge.moveIndexCollation oldName newName
  | remapIndexCollationSchema oldSchema newSchema =>
    DependencyEdge.remapIndexCollation oldSchema newSchema
  | remapSchemaNamespace oldSchema newSchema => DependencyEdge.remapSchema oldSchema newSchema
  | propagateRelationRename oldId newId => DependencyEdge.renameRelation oldId newId
  | propagateIndexRename oldId newId => DependencyEdge.renameIndex oldId newId
  | propagateSequenceRename oldId newId => DependencyEdge.renameSequence oldId newId
  | propagateTriggerRename oldId newId => DependencyEdge.renameTrigger oldId newId
  | propagateFunctionRename oldId newId => DependencyEdge.renameFunction oldId newId
  | propagateTypeRename oldId newId => DependencyEdge.renameType oldId newId
  | propagateViewReferenceRename oldName newName =>
    DependencyEdge.renameViewReference oldName newName
  | renameConstraint table oldName newName => fun e => e.renameConstraint table oldName newName
  | renameColumnDependencies table oldName newName => fun e =>
    { e with kind := DependencyGraph.renamedDependency table oldName newName e }
  | renameIndexColumn table oldName newName =>
    DependencyEdge.renameIndexColumn table oldName newName
  | renameOwnedSequenceColumn sequence oldName newName =>
    DependencyEdge.renameOwnedSequenceColumn sequence oldName newName
  | renamePublication oldName newName => DependencyEdge.renamePublication oldName newName

inductive GraphOp
  | addEdge (edge : DependencyEdge)
  | retainEdges (keep : DependencyEdge → Bool)
  | truncate (len : Nat)
  | replaceEdges (edges : List DependencyEdge)
  | rewrite (change : EdgeRewrite)
  | updateIndexDefinition (index : ObjectId) (f : IndexDefinition → IndexDefinition)
  | clone
  | readIndexes

def GraphOp.apply (g : GraphStore) : GraphOp → GraphStore
  | addEdge edge => g.addEdge edge
  | retainEdges keep => g.retainEdges keep
  | truncate len => g.truncate len
  | replaceEdges edges => g.replaceEdges edges
  | rewrite change => g.mutateEdges (List.map change.edge)
  | updateIndexDefinition index f =>
    g.mutateEdges (DependencyGraph.updateIndexDefinition.go index f)
  | clone => g.clone
  | readIndexes => g.readIndexes.2

def GraphStore.run (ops : List GraphOp) : GraphStore := ops.foldl GraphOp.apply .new

theorem retainUnseen_eq_eraseDups {α : Type} [DecidableEq α] (seen l : List α) :
    retainUnseen seen l = (l.filter fun a => decide (a ∉ seen)).eraseDups := by
  induction l generalizing seen with
  | nil => rfl
  | cons a l ih =>
    by_cases ha : a ∈ seen
    · simp [retainUnseen, ha, ih]
    · rw [retainUnseen, if_neg ha, ih, List.filter_cons_of_pos (by simpa using ha),
        List.eraseDups_cons, List.filter_filter]
      congr 2
      refine List.filter_congr fun b _ => ?_
      rw [Bool.eq_iff_iff]
      simp [List.mem_cons, not_or]

namespace GraphStore

/-- The list is a set, and what is stored beside it is derived from it. -/
structure Sound (g : GraphStore) : Prop where
  nodup : g.edges.Nodup
  edgeSet_eq : g.edgeSet = g.edges.toFinset
  indexes_eq : ∀ indexes, g.indexes = some indexes → indexes = GraphIndexes.build g.edges

theorem sound_new : new.Sound where
  nodup := List.nodup_nil
  edgeSet_eq := rfl
  indexes_eq := by
    intro indexes h
    cases h

/-- Without indexes there is nothing that could be out of date. -/
theorem sound_of_invalidated {edges : List DependencyEdge} (h : edges.Nodup) :
    Sound ⟨edges, edges.toFinset, none⟩ where
  nodup := h
  edgeSet_eq := rfl
  indexes_eq := by
    intro indexes hindexes
    cases hindexes

theorem mutateEdges_eq (g : GraphStore) (mutate : List DependencyEdge → List DependencyEdge) :
    g.mutateEdges mutate = ⟨(mutate g.edges).eraseDups, (mutate g.edges).eraseDups.toFinset, none⟩ := by
  have hedges : retainUnseen [] (mutate g.edges) = (mutate g.edges).eraseDups := by
    rw [retainUnseen_eq_eraseDups]
    simp
  have hset : (mutate g.edges).toFinset = (mutate g.edges).eraseDups.toFinset := by
    ext e
    simp
  show GraphStore.mk (retainUnseen [] (mutate g.edges)) (mutate g.edges).toFinset none = _
  rw [hedges, hset]

theorem replaceEdges_eq (g : GraphStore) (edges : List DependencyEdge) :
    g.replaceEdges edges = g.mutateEdges fun _ => edges := rfl

theorem sound_mutateEdges (g : GraphStore) (mutate : List DependencyEdge → List DependencyEdge) :
    (g.mutateEdges mutate).Sound := by
  rw [mutateEdges_eq]
  refine sound_of_invalidated ?_
  have hnodup := nodup_retainUnseen [] (mutate g.edges)
  rw [retainUnseen_eq_eraseDups] at hnodup
  simpa using hnodup

variable {g : GraphStore} (hg : g.Sound)

include hg

theorem Sound.mem_edgeSet {e : DependencyEdge} : e ∈ g.edgeSet ↔ e ∈ g.edges := by
  rw [hg.edgeSet_eq, List.mem_toFinset]

/-- An edge that is there already is not added. -/
theorem Sound.addEdge_present {e : DependencyEdge} (he : e ∈ g.edges) : g.addEdge e = g := by
  rw [addEdge, if_pos (hg.mem_edgeSet.mpr he)]

theorem Sound.addEdge_new {e : DependencyEdge} (he : e ∉ g.edges) :
    g.addEdge e = ⟨g.edges ++ [e], (g.edges ++ [e]).toFinset, none⟩ := by
  have hset : insert e g.edgeSet = (g.edges ++ [e]).toFinset := by
    rw [hg.edgeSet_eq]
    ext x
    simp
  rw [addEdge, if_neg fun hmem => he (hg.mem_edgeSet.mp hmem), hset]
  rfl

theorem Sound.addEdge (e : DependencyEdge) : (g.addEdge e).Sound := by
  by_cases he : e ∈ g.edges
  · rwa [hg.addEdge_present he]
  · rw [hg.addEdge_new he]
    refine sound_of_invalidated (List.nodup_append'.mpr ⟨hg.nodup, List.nodup_singleton e, ?_⟩)
    simpa using he

theorem Sound.edges_addEdge (e : DependencyEdge) :
    (g.addEdge e).edges = if e ∈ g.edges then g.edges else g.edges ++ [e] := by
  by_cases he : e ∈ g.edges
  · rw [hg.addEdge_present he, if_pos he]
  · rw [hg.addEdge_new he, if_neg he]

omit hg in
theorem edges_retainEdges (keep : DependencyEdge → Bool) :
    (g.retainEdges keep).edges = g.edges.filter keep := by
  unfold retainEdges
  dsimp only
  split
  · rfl
  · rfl

/-- Nothing is rebuilt if nothing goes. -/
theorem Sound.retainEdges (keep : DependencyEdge → Bool) : (g.retainEdges keep).Sound := by
  unfold GraphStore.retainEdges
  dsimp only
  split
  · exact sound_of_invalidated (hg.nodup.filter keep)
  · rename_i hlength
    have hsame : g.edges.filter keep = g.edges :=
      List.filter_sublist.eq_of_length (not_not.mp hlength)
    rw [hsame]
    exact hg

omit hg in
theorem edges_truncate (len : Nat) : (g.truncate len).edges = g.edges.take len := by
  unfold truncate
  split
  · rename_i hle
    rw [List.take_of_length_le hle]
  · rfl

theorem Sound.truncate (len : Nat) : (g.truncate len).Sound := by
  unfold GraphStore.truncate
  split
  · exact hg
  · exact sound_of_invalidated (hg.nodup.sublist (List.take_sublist len g.edges))

theorem Sound.clone : g.clone.Sound := sound_of_invalidated hg.nodup

/-- The indexes are those of the edges, whether or not they were there. -/
theorem Sound.readIndexes : g.readIndexes.1 = GraphIndexes.build g.edges ∧ g.readIndexes.2.Sound ∧
    g.readIndexes.2.edges = g.edges := by
  unfold GraphStore.readIndexes
  cases hindexes : g.indexes with
  | some indexes => exact ⟨hg.indexes_eq indexes hindexes, hg, rfl⟩
  | none =>
    refine ⟨rfl, ⟨hg.nodup, hg.edgeSet_eq, ?_⟩, rfl⟩
    intro indexes h
    cases h
    rfl

theorem Sound.apply (op : GraphOp) : (op.apply g).Sound := by
  cases op with
  | addEdge edge => exact hg.addEdge edge
  | retainEdges keep => exact hg.retainEdges keep
  | truncate len => exact hg.truncate len
  | replaceEdges edges => exact sound_mutateEdges g fun _ => edges
  | rewrite change => exact sound_mutateEdges g _
  | updateIndexDefinition index f => exact sound_mutateEdges g _
  | clone => exact hg.clone
  | readIndexes => exact hg.readIndexes.2.1

/-- Edges that are only appended stand behind those that were there. -/
theorem Sound.addEdges (edges : List DependencyEdge) :
    (edges.foldl GraphStore.addEdge g).Sound ∧ g.edges <+: (edges.foldl GraphStore.addEdge g).edges := by
  induction edges generalizing g with
  | nil => exact ⟨hg, List.prefix_refl _⟩
  | cons e edges ih =>
    obtain ⟨hsound, hprefix⟩ := ih (hg.addEdge e)
    refine ⟨hsound, List.IsPrefix.trans ?_ hprefix⟩
    rw [hg.edges_addEdge]
    split
    · exact List.prefix_refl _
    · exact List.prefix_append _ _

theorem Sound.truncate_addEdges (edges : List DependencyEdge) {n : Nat} (hn : n ≤ g.edges.length) :
    ((edges.foldl GraphStore.addEdge g).truncate n).edges = g.edges.take n := by
  obtain ⟨added, hadded⟩ := (hg.addEdges edges).2
  rw [edges_truncate, ← hadded, List.take_append_of_le_length hn]

end GraphStore

/-- The edges by the time of their first insertion. -/
structure GraphHistory where
  entries : History DependencyEdge
  now : Nat

/-- The index edge whose definition is rewritten: the first there is. -/
def isUpdated (h : History DependencyEdge) (index : ObjectId) (entry : Nat × DependencyEdge) : Prop :=
  (entry.2.dependent = index ∧ entry.2.kind.isIndexOnRelation = true) ∧
    ∀ other ∈ h, other.2.dependent = index ∧ other.2.kind.isIndexOnRelation = true →
      entry.1 ≤ other.1

instance (h : History DependencyEdge) (index : ObjectId) (entry : Nat × DependencyEdge) :
    Decidable (isUpdated h index entry) :=
  inferInstanceAs (Decidable (_ ∧ ∀ other ∈ h,
    other.2.dependent = index ∧ other.2.kind.isIndexOnRelation = true → entry.1 ≤ other.1))

def updatedEdge (h : History DependencyEdge) (index : ObjectId)
    (f : IndexDefinition → IndexDefinition) (entry : Nat × DependencyEdge) : DependencyEdge :=
  if isUpdated h index entry then
    { entry.2 with kind := entry.2.kind.mapIndexDefinition f }
  else entry.2

/-- What an operation does to the times of insertion. -/
def GraphOp.record (h : GraphHistory) : GraphOp → GraphHistory
  | addEdge edge => ⟨h.entries.record h.now edge, h.now + 1⟩
  | retainEdges keep => ⟨h.entries.retain keep, h.now⟩
  | truncate len => ⟨h.entries.keepFirst len, h.now⟩
  | replaceEdges edges => ⟨History.inserted h.now edges, h.now + edges.length⟩
  | rewrite change => ⟨h.entries.rewrite fun entry => change.edge entry.2, h.now⟩
  | updateIndexDefinition index f => ⟨h.entries.rewrite (updatedEdge h.entries index f), h.now⟩
  | clone => h
  | readIndexes => h

def GraphHistory.run (ops : List GraphOp) : GraphHistory := ops.foldl GraphOp.record ⟨∅, 0⟩

theorem go_eq_map (index : ObjectId) (f : IndexDefinition → IndexDefinition)
    {entries : List (Nat × DependencyEdge)} (h : entries.Pairwise fun a b => a.1 < b.1) :
    DependencyGraph.updateIndexDefinition.go index f (entries.map Prod.snd) =
      entries.map (updatedEdge entries.toFinset index f) := by
  induction entries with
  | nil => rfl
  | cons first entries ih =>
    obtain ⟨hfirst, hsorted⟩ := List.pairwise_cons.mp h
    rw [List.map_cons, List.map_cons, DependencyGraph.updateIndexDefinition.go]
    by_cases hindex : first.2.dependent = index ∧ first.2.kind.isIndexOnRelation = true
    · have hupdated : isUpdated (first :: entries).toFinset index first := by
        refine ⟨hindex, fun other hother _ => ?_⟩
        rcases List.mem_cons.mp (List.mem_toFinset.mp hother) with rfl | hother
        · exact le_refl _
        · exact (hfirst other hother).le
      have hrest : entries.map (updatedEdge (first :: entries).toFinset index f) =
          entries.map Prod.snd := by
        refine List.map_congr_left fun entry hentry => if_neg fun hlater => ?_
        have hle := hlater.2 first (by simp) hindex
        have hlt := hfirst entry hentry
        omega
      rw [if_pos hindex, hrest, updatedEdge, if_pos hupdated]
    · have hrest : entries.map (updatedEdge (first :: entries).toFinset index f) =
          entries.map (updatedEdge entries.toFinset index f) := by
        refine List.map_congr_left fun entry _ => ?_
        have hiff : isUpdated (first :: entries).toFinset index entry ↔
            isUpdated entries.toFinset index entry := by
          refine and_congr_right fun _ => ⟨fun hall other hother hmatch => ?_,
            fun hall other hother hmatch => ?_⟩
          · rw [List.mem_toFinset] at hother
            exact hall other (List.mem_toFinset.mpr (List.mem_cons_of_mem first hother)) hmatch
          · rcases List.mem_cons.mp (List.mem_toFinset.mp hother) with rfl | hother
            · exact absurd hmatch hindex
            · exact hall other (List.mem_toFinset.mpr hother) hmatch
        unfold updatedEdge
        simp only [hiff]
      have hkept : updatedEdge (first :: entries).toFinset index f first = first.2 :=
        if_neg fun hupdated => hindex hupdated.1
      rw [if_neg hindex, ih hsorted, hrest, hkept]

namespace GraphStore

/-- The edges stand in the order of their first insertion. -/
theorem Sound.record {g : GraphStore} (hg : g.Sound) {h : GraphHistory}
    (hl : Lists h.entries h.now g.edges) (op : GraphOp) :
    Lists (op.record h).entries (op.record h).now (op.apply g).edges := by
  cases op with
  | addEdge edge =>
    show Lists _ _ (g.addEdge edge).edges
    rw [hg.edges_addEdge]
    split
    · rename_i hmem
      exact hl.record_present hmem
    · rename_i hmem
      exact hl.record_new hmem
  | retainEdges keep =>
    show Lists _ _ (g.retainEdges keep).edges
    rw [edges_retainEdges]
    exact hl.retain keep
  | truncate len =>
    show Lists _ _ (g.truncate len).edges
    rw [edges_truncate]
    exact hl.keepFirst len
  | replaceEdges edges =>
    show Lists _ _ (g.replaceEdges edges).edges
    rw [replaceEdges_eq, mutateEdges_eq]
    exact lists_inserted h.now edges
  | rewrite change =>
    show Lists _ _ (g.mutateEdges (List.map change.edge)).edges
    rw [mutateEdges_eq]
    refine hl.rewrite fun entries _ _ => ?_
    rw [List.map_map]
    rfl
  | updateIndexDefinition index f =>
    show Lists _ _ (g.mutateEdges (DependencyGraph.updateIndexDefinition.go index f)).edges
    rw [mutateEdges_eq]
    refine hl.rewrite fun entries hentries hsorted => ?_
    rw [go_eq_map index f hsorted, hentries]
  | clone => exact hl
  | readIndexes =>
    show Lists _ _ g.readIndexes.2.edges
    rw [hg.readIndexes.2.2]
    exact hl

theorem run_sound_and_listed (ops : List GraphOp) : (run ops).Sound ∧
    Lists (GraphHistory.run ops).entries (GraphHistory.run ops).now (run ops).edges := by
  induction ops using List.reverseRecOn with
  | nil => exact ⟨sound_new, lists_empty⟩
  | append_singleton ops op ih =>
    obtain ⟨hsound, hlists⟩ := ih
    rw [run, GraphHistory.run, List.foldl_append, List.foldl_append]
    exact ⟨hsound.apply op, hsound.record hlists op⟩

/-- After any run the list is a set in the order of insertion, its derived data
are current, adding what is there changes nothing, and truncation takes back
what was appended. -/
theorem run_sound (ops : List GraphOp) : (run ops).Sound ∧
    Lists (GraphHistory.run ops).entries (GraphHistory.run ops).now (run ops).edges ∧
    (run ops).readIndexes.1 = GraphIndexes.build (run ops).edges ∧
    (∀ e ∈ (run ops).edges, (run ops).addEdge e = run ops) ∧
    ∀ (added : List DependencyEdge) (n : Nat), n ≤ (run ops).edges.length →
      ((added.foldl GraphStore.addEdge (run ops)).truncate n).edges = (run ops).edges.take n := by
  obtain ⟨hsound, hlists⟩ := run_sound_and_listed ops
  refine ⟨hsound, hlists, hsound.readIndexes.1, fun e he => hsound.addEdge_present he, ?_⟩
  intro added n hn
  exact hsound.truncate_addEdges added hn

end GraphStore

end SafeMigrate
