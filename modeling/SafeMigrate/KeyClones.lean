import SafeMigrate.IndexGrowth
import SafeMigrate.Partition

/-! What one index of the parent brings to a partition: an index attached to it,
and a key constraint of its own, which it has already or gets by a clone. -/

namespace SafeMigrate

open AnalysisState

namespace AnalysisState

/-- The key constraint that an index backs. -/
def keyBackedBy (constraints : List ConstraintState) (index : ObjectId) : Option ConstraintState :=
  constraints.find? fun c => c.backingIndex == some index && isKeyConstraint c.kind

/-- Whether the child has an index that can be attached to this one. -/
def hasReusableIndex (s : AnalysisState) (child : ObjectId) (parentIndex : DependencyEdge) : Bool :=
  parentIndex.kind.indexDefinition.any fun definition =>
    (s.graph.edges.find? (s.isReusableIndex (s.graph.resolveRename child) definition
      (s.constraintBacking parentIndex.dependent) .tableAttach)).isSome

/-- The name of the clone that an index of the parent leads to, if any. -/
def cloneName (s : AnalysisState) (parent child : ObjectId) (constraints : List ConstraintState)
    (parentIndex : DependencyEdge) : Option String :=
  if s.hasReusableIndex child parentIndex = true then none
  else (keyBackedBy constraints parentIndex.dependent).map fun c =>
    clonedConstraintName child c (s.constraintKeyColumns parent c.name)

/-- Constraints are filed under their own names, an index backs one of them at
most, and those behind an index of the child are the child's. -/
structure KeysInOrder (child : ObjectId) (s : AnalysisState) : Prop where
  keyed : ∀ key c, s.constraints.lookup key = some c → key = (c.tableId, c.name)
  indexed : ∀ key c index, s.constraints.lookup key = some c → c.backingIndex = some index →
    s.indexTableOf index ≠ none
  oneKey : ∀ key key' c c' index, s.constraints.lookup key = some c →
    s.constraints.lookup key' = some c' → isIndexBacked c.kind = true →
      isIndexBacked c'.kind = true → c.backingIndex = some index →
        c'.backingIndex = some index → key = key'
  onChild : ∀ key c index owner, s.constraints.lookup key = some c → isIndexBacked c.kind = true →
    c.backingIndex = some index → s.indexTableOf index = some owner →
      s.graph.resolveRename owner = s.graph.resolveRename child → c.tableId = child
  attached : ∀ index parent, s.indexParentOf index = some parent → s.indexTableOf index ≠ none

/-- The child gains the index for one of its parent's. -/
structure GainsIndex (parentIndex child index : ObjectId) (s t : AnalysisState) : Prop where
  aliases : ∀ id, t.graph.resolveRename id = s.graph.resolveRename id
  tables : ∀ id owner, s.indexTableOf id = some owner → t.indexTableOf id = some owner
  kept : ∀ id above, s.indexParentOf id = some above → t.indexParentOf id = some above
  free : s.indexParentOf index = none
  gained : t.indexParentOf index = some parentIndex
  others : ∀ id above, t.indexParentOf id = some above → s.indexParentOf id = some above ∨
    id = index ∧ above = parentIndex ∨ s.indexTableOf above = none
  present : ∀ id above, t.indexParentOf id = some above → s.indexParentOf id = some above ∨
    t.indexTableOf id ≠ none

end AnalysisState

section Backing

variable {s : AnalysisState} {child : ObjectId}

theorem isIndexBacked_of_key {kind : ConstraintKind} (h : isKeyConstraint kind = true) :
    isIndexBacked kind = true := by
  cases kind <;> simp_all [isKeyConstraint, isIndexBacked]

theorem exists_of_constraintBacking {index : ObjectId} {kind : ConstraintKind}
    (h : s.constraintBacking index = some kind) : ∃ key c, s.constraints.lookup key = some c ∧
      c.backingIndex = some index ∧ isIndexBacked c.kind = true ∧ c.kind = kind := by
  obtain ⟨entry, hentry, rfl⟩ := Option.map_eq_some_iff.mp h
  have hfound := List.find?_some hentry
  simp only [Bool.and_eq_true, beq_iff_eq] at hfound
  exact ⟨entry.1, entry.2, AList.mem_lookup_iff.mpr (List.mem_of_find?_eq_some hentry), hfound.1,
    hfound.2, rfl⟩

theorem AnalysisState.KeysInOrder.constraintBacking_eq (h : s.KeysInOrder child)
    {key : ObjectId × String} {c : ConstraintState} {index : ObjectId}
    (hkey : s.constraints.lookup key = some c) (hkind : isIndexBacked c.kind = true)
    (hindex : c.backingIndex = some index) : s.constraintBacking index = some c.kind := by
  have hmem := AList.mem_lookup_iff.mp hkey
  cases hbacking : s.constraintBacking index with
  | none =>
    have hnone := List.find?_eq_none.mp (Option.map_eq_none_iff.mp hbacking) _ hmem
    simp [hkind, hindex] at hnone
  | some kind =>
    obtain ⟨key', c', hkey', hindex', hkind', rfl⟩ := exists_of_constraintBacking hbacking
    obtain rfl := h.oneKey key key' c c' index hkey hkey' hkind hkind' hindex hindex'
    rw [hkey] at hkey'
    cases hkey'
    rfl

end Backing

section Step

variable {u : AnalysisState} {parent child : ObjectId} {constraints : List ConstraintState}
  {parentIndex : DependencyEdge}

theorem gainsIndex_record {index above : ObjectId} (habove : u.indexParentOf index = none)
    (hindex : u.indexTableOf index ≠ none) :
    GainsIndex above child index u (u.recordIndexPartition above index) := by
  have hgrows : GrowsIndexes (fun id => id = above) u (u.recordIndexPartition above index) :=
    .record u rfl hindex
  refine ⟨hgrows.same.resolveRename, hgrows.tables, hgrows.kept, habove, ?_, fun id q h => ?_,
    fun id q h => (hgrows.attached id q h).imp_right And.right⟩
  · rw [indexParentOf_record, habove, if_pos rfl]
    rfl
  · rw [indexParentOf_record] at h
    cases hold : u.indexParentOf id with
    | some old =>
      rw [hold] at h
      exact Or.inl h
    | none =>
      rw [hold] at h
      by_cases hid : index = id
      · rw [if_pos hid] at h
        exact Or.inr (Or.inl ⟨hid.symm, (Option.some.inj h).symm⟩)
      · rw [if_neg hid] at h
        cases h

theorem AnalysisState.GainsIndex.grows {above index : ObjectId} {t v : AnalysisState}
    (h : GainsIndex above child index u t)
    (hgrows : GrowsIndexes (fun id => u.indexTableOf id = none) t v) :
    GainsIndex above child index u v := by
  refine ⟨fun id => (hgrows.same.resolveRename id).trans (h.aliases id),
    fun id owner hu => hgrows.tables _ _ (h.tables id owner hu),
    fun id q hu => hgrows.kept _ _ (h.kept id q hu), h.free, hgrows.kept _ _ h.gained,
    fun id q hv => ?_, fun id q hv => ?_⟩
  · rcases hgrows.attached id q hv with ht | ⟨hfresh, -⟩
    · exact h.others id q ht
    · exact Or.inr (Or.inr hfresh)
  · rcases hgrows.attached id q hv with ht | ⟨-, hpresent⟩
    · exact (h.present id q ht).imp_right fun hid => hgrows.present hid
    · exact Or.inr hpresent

theorem AnalysisState.GainsIndex.of_added {above index : ObjectId} {v t : AnalysisState}
    (hadded : GrowsIndexes (fun _ => False) u v) (h : GainsIndex above child index v t)
    (hfree : u.indexParentOf index = none) : GainsIndex above child index u t := by
  have hback (id q : ObjectId) (hv : v.indexParentOf id = some q) : u.indexParentOf id = some q :=
    (hadded.attached id q hv).resolve_right And.left
  refine ⟨fun id => (h.aliases id).trans (hadded.same.resolveRename id),
    fun id owner hu => h.tables _ _ (hadded.tables id owner hu),
    fun id q hu => h.kept _ _ (hadded.kept id q hu), hfree, h.gained, fun id q ht => ?_,
    fun id q ht => (h.present id q ht).imp_left (hback id q)⟩
  rcases h.others id q ht with hv | hnew | hnone
  · exact Or.inl (hback id q hv)
  · exact Or.inr (Or.inl hnew)
  · refine Or.inr (Or.inr ?_)
    by_contra hne
    exact hadded.present hne hnone

/-- The index that the child ends up with: one of its own that matches, or a new one. -/
theorem gainsIndex_ensureChild {definition : IndexDefinition}
    (hdefinition : parentIndex.kind.indexDefinition = some definition)
    (hu : u.KeysInOrder child) (fuel : Nat) :
    let built := ensurePartitionIndexChild parentIndex.kind definition .tableAttach (fuel + 1) u
      parentIndex.dependent child
    GainsIndex parentIndex.dependent child built.1.1 u built.2 ∧ SameConstraints u built.2 ∧
      if u.hasReusableIndex child parentIndex = true then
        (∃ owner, u.indexTableOf built.1.1 = some owner ∧
          u.graph.resolveRename owner = u.graph.resolveRename child) ∧
        ∀ kind, u.constraintBacking parentIndex.dependent = some kind →
          u.constraintBacking built.1.1 = some kind
      else u.indexTableOf built.1.1 = none := by
  intro built
  have hreusable : u.hasReusableIndex child parentIndex = (u.graph.edges.find?
      (u.isReusableIndex (u.graph.resolveRename child) definition
        (u.constraintBacking parentIndex.dependent) .tableAttach)).isSome := by
    rw [hasReusableIndex, hdefinition]
    rfl
  rcases GrowsIndexes.ensureChild_cases hdefinition definition .tableAttach
      (fun v above table =>
        GrowsIndexes.ensureChild hdefinition definition .tableAttach fuel v above table) u parentIndex.dependent child (fun _ h => h) with
    ⟨e, hfound, hindex, hbuilt⟩ | ⟨hfound, hfree, kind, hkind, hgrown⟩
  · have hmatch := List.find?_some hfound
    simp only [isReusableIndex, Bool.and_eq_true, Option.isNone_iff_eq_none] at hmatch
    obtain ⟨⟨⟨⟨-, hunattached⟩, howner⟩, -⟩, hbacking⟩ := hmatch
    obtain ⟨owner, howner, hresolve⟩ : ∃ owner, u.indexTableOf e.dependent = some owner ∧
        u.graph.resolveRename owner = u.graph.resolveRename child := by
      cases htable : u.indexTableOf e.dependent with
      | none =>
        rw [htable] at howner
        cases howner
      | some owner =>
        rw [htable] at howner
        exact ⟨owner, rfl, by simpa using howner⟩
    have hpresent : u.indexTableOf e.dependent ≠ none := by
      rw [howner]
      exact Option.some_ne_none owner
    have hsame : SameConstraints u built.2 := by
      rw [show built.2 = _ from hbuilt]
      exact SameConstraints.addGraphEdge u rfl
    rw [hreusable, hfound, Option.isSome_some, if_pos rfl,
      show built.1.1 = e.dependent from hindex]
    refine ⟨?_, hsame, ⟨owner, howner, hresolve⟩, fun kind hkind => ?_⟩
    · rw [show built.2 = _ from hbuilt]
      exact gainsIndex_record hunattached hpresent
    · rw [hkind] at hbacking
      cases hchild : u.constraintBacking e.dependent with
      | none =>
        rw [hchild] at hbacking
        cases hbacking
      | some childKind =>
        rw [hchild] at hbacking
        have heq : kind = childKind := by simpa using hbacking
        rw [heq]
  · rw [hreusable, hfound, Option.isSome_none, if_neg Bool.false_ne_true]
    generalize built.1.1 = index at hfree hgrown
    have hadded : GrowsIndexes (fun _ => False) u (u.addGraphEdge ⟨index, child, kind⟩) :=
      .addIndex u index child hkind
    have htable : (u.addGraphEdge ⟨index, child, kind⟩).indexTableOf index = some child := by
      rw [AnalysisState.indexTableOf, addGraphEdge_graph]
      exact DependencyGraph.indexTableOf_addIndex hkind hfree
    have hunattached : u.indexParentOf index = none := by
      cases habove : u.indexParentOf index with
      | none => rfl
      | some above => exact absurd hfree (hu.attached index above habove)
    have hstill : (u.addGraphEdge ⟨index, child, kind⟩).indexParentOf index = none := by
      cases habove : (u.addGraphEdge ⟨index, child, kind⟩).indexParentOf index with
      | none => rfl
      | some above =>
        have hold := (hadded.attached index above habove).resolve_right And.left
        rw [hunattached] at hold
        cases hold
    have hrecorded : GainsIndex parentIndex.dependent child index
        (u.addGraphEdge ⟨index, child, kind⟩) _ := gainsIndex_record hstill
      (by rw [htable]; exact Option.some_ne_none child)
    exact ⟨(hrecorded.of_added hadded hunattached).grows hgrown, IsTrans.trans _ _ _ hadded.same
      (IsTrans.trans _ _ _ (SameConstraints.addGraphEdge _ rfl) hgrown.same), hfree⟩

/-- The clone that belongs to an index of the child. -/
def keyClone (child : ObjectId) (name : String) (kind : ConstraintKind) (index : ObjectId) :
    ConstraintState :=
  { tableId := child, name, kind, validated := true, definition := none,
    backingIndex := some index }

theorem constraintKeyColumns_congr {t : AnalysisState} (h : SameConstraints u t) (table : ObjectId)
    (name : String) : t.constraintKeyColumns table name = u.constraintKeyColumns table name := by
  unfold constraintKeyColumns
  rw [DependencyGraph.findSome?_edges, DependencyGraph.findSome?_edges, h.edges]
  all_goals
    intro e he
    cases hkind : e.kind <;> simp_all [DependencyKind.concernsConstraint]

theorem cloneKeyConstraint_graph (t : AnalysisState) (c : ConstraintState) (index : ObjectId) :
    (t.cloneKeyConstraint parent child c index).graph = t.graph ∨
      ∃ name columns isPrimary, (t.cloneKeyConstraint parent child c index).graph =
        t.graph.addEdge ⟨child, child, .constraintOnRelation name columns isPrimary⟩ := by
  have hput (c : ConstraintState) : (t.putConstraint c).graph = t.graph := by
    rw [← pushUndo_graph t]
    rfl
  unfold AnalysisState.cloneKeyConstraint
  dsimp only
  split
  · exact Or.inr ⟨_, _, _, by rw [addGraphEdge_graph, hput]⟩
  · exact Or.inl (by rw [taint_graph, hput])

/-- The edge of a clone changes nothing about indexes. -/
theorem AnalysisState.GainsIndex.cloneKeyConstraint {above index : ObjectId} {t : AnalysisState}
    (h : GainsIndex above child index u t) (c : ConstraintState) (childIndex : ObjectId) :
    GainsIndex above child index u (t.cloneKeyConstraint parent child c childIndex) := by
  have hgraph := @cloneKeyConstraint_graph parent child t c childIndex
  generalize t.cloneKeyConstraint parent child c childIndex = v at hgraph
  have haliases (id : ObjectId) : v.graph.resolveRename id = t.graph.resolveRename id := by
    rcases hgraph with hsame | ⟨name, columns, isPrimary, hadded⟩
    · rw [hsame]
    · rw [hadded]
      exact DependencyGraph.resolveRename_congr (DependencyGraph.aliases_addEdge rfl) id
  have htables (id : ObjectId) : v.indexTableOf id = t.indexTableOf id := by
    rcases hgraph with hsame | ⟨name, columns, isPrimary, hadded⟩
    · rw [AnalysisState.indexTableOf, hsame]
      rfl
    · rw [AnalysisState.indexTableOf, hadded]
      exact DependencyGraph.indexTableOf_addEdge_of_other rfl id
  have hparents (id : ObjectId) : v.indexParentOf id = t.indexParentOf id := by
    refine indexParentOf_congr ?_ id
    rcases hgraph with hsame | ⟨name, columns, isPrimary, hadded⟩
    · rw [hsame]
    · rw [hadded]
      exact DependencyGraph.edgesOf_addEdge rfl
  exact ⟨fun id => (haliases id).trans (h.aliases id),
    fun id owner hu => by rw [htables]; exact h.tables id owner hu,
    fun id q hu => by rw [hparents]; exact h.kept id q hu, h.free, by rw [hparents]; exact h.gained,
    fun id q hv => h.others id q (by rwa [hparents] at hv),
    fun id q hv => by rw [htables]; exact h.present id q (by rwa [hparents] at hv)⟩

theorem cloneKeyConstraint_constraints (t : AnalysisState) (c : ConstraintState)
    (index : ObjectId) : (t.cloneKeyConstraint parent child c index).constraints =
      t.constraints.insert
        (child, clonedConstraintName child c (t.constraintKeyColumns parent c.name))
        (keyClone child (clonedConstraintName child c (t.constraintKeyColumns parent c.name)) c.kind
          index) := by
  unfold AnalysisState.cloneKeyConstraint
  dsimp only
  split
  · rw [addGraphEdge_constraints, putConstraint_constraints]
    rfl
  · rw [taint_constraints, putConstraint_constraints]
    rfl

/-- What one index of the parent leads to: the child adopts a key constraint of
its own, or gets a clone, or the index backs no key. -/
theorem ensurePartitionIndex_cases (hu : u.KeysInOrder child)
    (hindex : parentIndex.kind.isIndexOnRelation = true)
    (hkeys : ∀ c, keyBackedBy constraints parentIndex.dependent = some c →
      ∃ key, u.constraints.lookup key = some c) :
    let t := ensurePartitionIndex parent child constraints u parentIndex
    ∃ index, GainsIndex parentIndex.dependent child index u t ∧
      ((u.cloneName parent child constraints parentIndex = none ∧ t.constraints = u.constraints ∧
        ∀ c, keyBackedBy constraints parentIndex.dependent = some c → ∃ name q,
          u.constraints.lookup (child, name) = some q ∧ q.kind = c.kind ∧
            q.backingIndex = some index) ∨
      ∃ c name, keyBackedBy constraints parentIndex.dependent = some c ∧
        u.cloneName parent child constraints parentIndex = some name ∧
          u.indexTableOf index = none ∧ t.constraints =
            u.constraints.insert (child, name) (keyClone child name c.kind index)) := by
  intro t
  obtain ⟨definition, hdefinition⟩ : ∃ definition,
      parentIndex.kind.indexDefinition = some definition := by
    cases hkind : parentIndex.kind <;> simp_all [DependencyKind.isIndexOnRelation,
      DependencyKind.indexDefinition]
  have hgains := gainsIndex_ensureChild hdefinition hu u.graph.edges.length
  have ht : t = ensurePartitionIndex parent child constraints u parentIndex := rfl
  clear_value t
  unfold ensurePartitionIndex at ht
  rw [hdefinition] at ht
  dsimp only at ht hgains
  rw [DependencyGraph.partitionFuel] at ht
  generalize ensurePartitionIndexChild parentIndex.kind definition .tableAttach
    (u.graph.edges.length + 1) u parentIndex.dependent child = built at ht hgains
  obtain ⟨hgains, hsame, hfate⟩ := hgains
  have hbackingOf : built.2.constraintBacking built.1.1 = u.constraintBacking built.1.1 := by
    rw [constraintBacking, hsame.constraints]
    rfl
  refine ⟨built.1.1, ?_⟩
  cases hbacked : keyBackedBy constraints parentIndex.dependent with
  | none =>
    rw [show constraints.find? _ = none from hbacked] at ht
    subst ht
    refine ⟨hgains, Or.inl ⟨?_, hsame.constraints, fun c hc => by cases hc⟩⟩
    rw [cloneName, hbacked]
    split <;> rfl
  | some c =>
    rw [show constraints.find? _ = some c from hbacked] at ht
    dsimp only at ht
    rw [hbackingOf] at ht
    obtain ⟨key, hkey⟩ := hkeys c hbacked
    have hfound := List.find?_some hbacked
    simp only [Bool.and_eq_true, beq_iff_eq] at hfound
    by_cases hreusable : u.hasReusableIndex child parentIndex = true
    · rw [if_pos hreusable] at hfate
      obtain ⟨⟨owner, howner, hresolve⟩, hkinds⟩ := hfate
      have hadopted := hkinds c.kind
        (hu.constraintBacking_eq hkey (isIndexBacked_of_key hfound.2) hfound.1)
      rw [hadopted, Option.isSome_some, if_pos rfl] at ht
      subst ht
      refine ⟨hgains, Or.inl ⟨by rw [cloneName, if_pos hreusable], hsame.constraints, ?_⟩⟩
      rintro c' ⟨⟩
      obtain ⟨key', q, hq, hindexOf, hbackedKind, hkind⟩ := exists_of_constraintBacking hadopted
      have hchild := hu.onChild key' q built.1.1 owner hq hbackedKind hindexOf howner hresolve
      refine ⟨q.name, q, ?_, hkind, hindexOf⟩
      rw [← hchild, ← hu.keyed key' q hq]
      exact hq
    · rw [if_neg hreusable] at hfate
      have hunbacked : u.constraintBacking built.1.1 = none := by
        cases hbacking : u.constraintBacking built.1.1 with
        | none => rfl
        | some kind =>
          obtain ⟨key', q, hq, hindexOf, -, -⟩ := exists_of_constraintBacking hbacking
          exact absurd hfate (hu.indexed key' q _ hq hindexOf)
      rw [hunbacked, Option.isSome_none, if_neg Bool.false_ne_true] at ht
      have hcloned : GainsIndex parentIndex.dependent child built.1.1 u
          (built.2.cloneKeyConstraint parent child c built.1.1) :=
        hgains.cloneKeyConstraint c built.1.1
      rw [← ht] at hcloned
      refine ⟨hcloned, Or.inr ⟨c,
        clonedConstraintName child c (u.constraintKeyColumns parent c.name), rfl, ?_, hfate, ?_⟩⟩
      · rw [cloneName, if_neg hreusable, hbacked]
        rfl
      · rw [ht, cloneKeyConstraint_constraints, hsame.constraints, constraintKeyColumns_congr hsame]

/-- The constraints after one index of the parent: the clone, if there is one,
is behind an index that was not there. -/
theorem AnalysisState.KeysInOrder.next {t : AnalysisState} {above index : ObjectId}
    (hu : u.KeysInOrder child) (hgains : GainsIndex above child index u t)
    (hwrites : t.constraints = u.constraints ∨ ∃ name kind, u.indexTableOf index = none ∧
      t.constraints = u.constraints.insert (child, name) (keyClone child name kind index)) :
    t.KeysInOrder child := by
  have hpresent (id : ObjectId) (hid : u.indexTableOf id ≠ none) : t.indexTableOf id ≠ none := by
    obtain ⟨owner, howner⟩ := Option.ne_none_iff_exists'.mp hid
    rw [hgains.tables id owner howner]
    exact Option.some_ne_none owner
  have hgained : t.indexTableOf index ≠ none := by
    rcases hgains.present index above hgains.gained with hold | hnew
    · rw [hgains.free] at hold
      cases hold
    · exact hnew
  have hcases (key : ObjectId × String) (c : ConstraintState)
      (h : t.constraints.lookup key = some c) : u.constraints.lookup key = some c ∨
        u.indexTableOf index = none ∧ (∀ key' c', t.constraints.lookup key' = some c' →
          c'.backingIndex = some index → key' = key) ∧ key = (child, c.name) ∧
            c.tableId = child ∧ c.backingIndex = some index := by
    rcases hwrites with hsame | ⟨name, kind, hfree, hinsert⟩
    · exact Or.inl (by rwa [hsame] at h)
    · by_cases hkey : key = (child, name)
      · subst hkey
        rw [hinsert, AList.lookup_insert] at h
        cases h
        refine Or.inr ⟨hfree, fun key' c' hkey' hindex => ?_, rfl, rfl, rfl⟩
        by_contra hne
        rw [hinsert, AList.lookup_insert_ne hne] at hkey'
        exact hu.indexed key' c' index hkey' hindex hfree
      · exact Or.inl (by rwa [hinsert, AList.lookup_insert_ne hkey] at h)
  refine ⟨fun key c h => ?_, fun key c id h hid => ?_,
    fun key key' c c' id h h' hc hc' hid hid' => ?_, fun key c id owner h hc hid howner hresolve => ?_, fun id q h => ?_⟩
  · rcases hcases key c h with hold | ⟨-, -, hkey, htable, -⟩
    · exact hu.keyed key c hold
    · rw [hkey, htable]
  · rcases hcases key c h with hold | ⟨-, -, -, -, hindex⟩
    · exact hpresent id (hu.indexed key c id hold hid)
    · rw [hindex] at hid
      cases hid
      exact hgained
  · rcases hcases key c h with hold | ⟨-, hsole, -, -, hindex⟩
    · rcases hcases key' c' h' with hold' | ⟨-, hsole', -, -, hindex'⟩
      · exact hu.oneKey key key' c c' id hold hold' hc hc' hid hid'
      · rw [hindex'] at hid'
        cases hid'
        exact hsole' key c h hid
    · rw [hindex] at hid
      cases hid
      exact (hsole key' c' h' hid').symm
  · rcases hcases key c h with hold | ⟨-, -, -, htable, -⟩
    · obtain ⟨before, hbefore⟩ := Option.ne_none_iff_exists'.mp (hu.indexed key c id hold hid)
      have heq := hgains.tables id before hbefore
      rw [howner] at heq
      cases heq
      rw [hgains.aliases, hgains.aliases] at hresolve
      exact hu.onChild key c id owner hold hc hid hbefore hresolve
    · exact htable
  · rcases hgains.present id q h with hold | hnew
    · exact hpresent id (hu.attached id q hold)
    · exact hnew

end Step

end SafeMigrate
