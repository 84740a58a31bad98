import SafeMigrate.KeyClones

/-! Attaching a partition: it gets the key constraints of its parent under names
that are not checked, and loses none of its own while these names are free. -/

namespace SafeMigrate

open AnalysisState

namespace AnalysisState

/-- A primary key or unique constraint of `table`. -/
def IsKeyOf (s : AnalysisState) (table : ObjectId) (c : ConstraintState) : Prop :=
  ∃ key, s.constraints.lookup key = some c ∧ c.tableId = table ∧ isKeyConstraint c.kind = true

/-- Attaching `child` leaves it every constraint it has, and gives each key
constraint of `parent` one of its own, whose index is attached to the other's. -/
def AttachKeepsConstraints (s : AnalysisState) (parent child : ObjectId) : Prop :=
  let t := s.ensurePartitionIndexesAndConstraints parent child
  (∀ name c, s.constraints.lookup (child, name) = some c →
    t.constraints.lookup (child, name) = some c) ∧
  ∃ cloneOf : ConstraintState → String,
    (∀ p, s.IsKeyOf parent p → ∃ q index, t.constraints.lookup (child, cloneOf p) = some q ∧
      q.kind = p.kind ∧ q.backingIndex = some index ∧ t.indexParentOf index = p.backingIndex) ∧
    ∀ p p', s.IsKeyOf parent p → s.IsKeyOf parent p' → cloneOf p = cloneOf p' → p = p'

/-- No clone takes a name that the child uses when its turn comes. -/
def ClonesFree (parent child : ObjectId) (constraints : List ConstraintState) :
    List DependencyEdge → AnalysisState → Prop
  | [], _ => True
  | parentIndex :: parentIndexes, s =>
    (∀ name, s.cloneName parent child constraints parentIndex = some name →
      s.constraints.lookup (child, name) = none) ∧
    ClonesFree parent child constraints parentIndexes
      (ensurePartitionIndex parent child constraints s parentIndex)

def indexesOfTable (s : AnalysisState) (table : ObjectId) : List DependencyEdge :=
  s.graph.edges.filter fun e => e.referenced == table && e.kind.isIndexOnRelation

def constraintsOfTable (s : AnalysisState) (table : ObjectId) : List ConstraintState :=
  (s.constraints.entries.map (·.2)).filter (·.tableId == table)

/-- What the catalog has of a table and of one that becomes its partition. -/
structure AttachReady (s : AnalysisState) (parent child : ObjectId) : Prop extends
    KeysInOrder child s where
  distinct : parent ≠ child
  parentKeys : ∀ p, s.IsKeyOf parent p → ∃ e ∈ s.indexesOfTable parent,
    p.backingIndex = some e.dependent
  oneEdge : ∀ e ∈ s.graph.edges, ∀ e' ∈ s.graph.edges, e.kind.isIndexOnRelation = true →
    e'.kind.isIndexOnRelation = true → e.dependent = e'.dependent → e = e'
  apart : ∀ name c index above, s.constraints.lookup (child, name) = some c →
    isIndexBacked c.kind = true → c.backingIndex = some index →
      s.indexParentOf index = some above → s.indexTableOf above ≠ some parent

end AnalysisState

section Runs

variable {s t u : AnalysisState} {parent child : ObjectId} {constraints : List ConstraintState}

/-- No constraint of the child is behind an index attached to this one. -/
def AnalysisState.Unrepresented (u : AnalysisState) (child index : ObjectId) : Prop :=
  ∀ name q below, u.constraints.lookup (child, name) = some q → isIndexBacked q.kind = true →
    q.backingIndex = some below → u.indexParentOf below ≠ some index

/-- The constraints of the parent, and its indexes that are still to come. -/
structure Pending (parent child : ObjectId) (constraints : List ConstraintState)
    (parentIndexes : List DependencyEdge) (u : AnalysisState) : Prop where
  inOrder : u.KeysInOrder child
  distinct : parent ≠ child
  keys : ∀ c ∈ constraints, u.constraints.lookup (parent, c.name) = some c
  indexes : ∀ e ∈ parentIndexes, e.kind.isIndexOnRelation = true ∧ u.indexTableOf e.dependent ≠ none
  nodup : (parentIndexes.map (·.dependent)).Nodup

/-- What one index of the parent leads to, and what is still to come then. -/
theorem Pending.step {e : DependencyEdge} {es : List DependencyEdge}
    (h : Pending parent child constraints (e :: es) u) :
    let t := ensurePartitionIndex parent child constraints u e
    Pending parent child constraints es t ∧ ∃ index, GainsIndex e.dependent child index u t ∧
      ((u.cloneName parent child constraints e = none ∧ t.constraints = u.constraints ∧
        ∀ c, keyBackedBy constraints e.dependent = some c → ∃ name q,
          u.constraints.lookup (child, name) = some q ∧ q.kind = c.kind ∧
            q.backingIndex = some index) ∨
      ∃ c name, keyBackedBy constraints e.dependent = some c ∧
        u.cloneName parent child constraints e = some name ∧ u.indexTableOf index = none ∧
          t.constraints =
            u.constraints.insert (child, name) (keyClone child name c.kind index)) := by
  intro t
  obtain ⟨hindex, -⟩ := h.indexes e List.mem_cons_self
  obtain ⟨index, hgains, hfate⟩ := @ensurePartitionIndex_cases _ parent _ _ _ h.inOrder hindex
    fun c hc => ⟨_, h.keys c (List.mem_of_find?_eq_some hc)⟩
  refine ⟨⟨h.inOrder.next hgains ?_, h.distinct, fun c hc => ?_, fun e' he' => ?_, ?_⟩, index,
    hgains, hfate⟩
  · rcases hfate with ⟨-, hsame, -⟩ | ⟨c, name, -, -, hfree, hinsert⟩
    · exact Or.inl hsame
    · exact Or.inr ⟨name, c.kind, hfree, hinsert⟩
  · rcases hfate with ⟨-, hsame, -⟩ | ⟨_, name, -, -, -, hinsert⟩
    · rw [hsame]
      exact h.keys c hc
    · rw [hinsert, AList.lookup_insert_ne fun heq => h.distinct (Prod.mk.inj heq).1]
      exact h.keys c hc
  · obtain ⟨hkind, hpresent⟩ := h.indexes e' (List.mem_cons_of_mem e he')
    obtain ⟨owner, howner⟩ := Option.ne_none_iff_exists'.mp hpresent
    refine ⟨hkind, ?_⟩
    rw [hgains.tables _ owner howner]
    exact Option.some_ne_none owner
  · exact (List.nodup_cons.mp h.nodup).2

/-- While no clone takes a name in use, every constraint stays, and every key
constraint of the parent finds its own. -/
theorem Pending.run {es : List DependencyEdge} (h : Pending parent child constraints es u)
    (hfree : ClonesFree parent child constraints es u) :
    let t := es.foldl (ensurePartitionIndex parent child constraints) u
    (∀ key c, u.constraints.lookup key = some c → t.constraints.lookup key = some c) ∧
    (∀ index above, u.indexParentOf index = some above → t.indexParentOf index = some above) ∧
    ∀ e ∈ es, ∀ c, keyBackedBy constraints e.dependent = some c → ∃ name q index,
      t.constraints.lookup (child, name) = some q ∧ q.kind = c.kind ∧
        q.backingIndex = some index ∧ t.indexParentOf index = some e.dependent := by
  induction es generalizing u with
  | nil => exact ⟨fun _ _ h => h, fun _ _ h => h, fun e he => absurd he List.not_mem_nil⟩
  | cons e es ih =>
    obtain ⟨hname, hrest⟩ := hfree
    obtain ⟨hnext, index, hgains, hfate⟩ := h.step
    obtain ⟨hkept, hattached, hfound⟩ := ih hnext hrest
    intro t
    have hstep (key : ObjectId × String) (c : ConstraintState)
        (hkey : u.constraints.lookup key = some c) :
        (ensurePartitionIndex parent child constraints u e).constraints.lookup key = some c := by
      rcases hfate with ⟨-, hsame, -⟩ | ⟨_, name, -, hclone, -, hinsert⟩
      · rwa [hsame]
      · rw [hinsert, AList.lookup_insert_ne]
        · exact hkey
        · rintro rfl
          rw [hname name hclone] at hkey
          cases hkey
    refine ⟨fun key c hkey => hkept key c (hstep key c hkey),
      fun id above habove => hattached id above (hgains.kept id above habove),
      fun e' he' c hc => ?_⟩
    rcases List.mem_cons.mp he' with rfl | he'
    · rcases hfate with ⟨-, hsame, hadopted⟩ | ⟨c', name, hc', -, -, hinsert⟩
      · obtain ⟨name, q, hq, hkind, hindex⟩ := hadopted c hc
        exact ⟨name, q, index, hkept _ q (hstep _ q hq), hkind, hindex,
          hattached index _ hgains.gained⟩
      · rw [hc] at hc'
        cases hc'
        refine ⟨name, keyClone child name c.kind index, index, hkept _ _ ?_, rfl, rfl,
          hattached index _ hgains.gained⟩
        rw [hinsert, AList.lookup_insert]
    · exact hfound e' he' c hc

/-- A later index of the parent represents no key of an earlier one. -/
theorem Pending.unrepresented_step {e : DependencyEdge} {es : List DependencyEdge}
    (h : Pending parent child constraints (e :: es) u) {index : ObjectId}
    (hne : index ≠ e.dependent) (hpresent : u.indexTableOf index ≠ none)
    (hlost : u.Unrepresented child index) :
    (ensurePartitionIndex parent child constraints u e).Unrepresented child index := by
  obtain ⟨-, gained, hgains, hfate⟩ := h.step
  have hold (below : ObjectId)
      (hbelow : (ensurePartitionIndex parent child constraints u e).indexParentOf below =
        some index) : u.indexParentOf below = some index := by
    rcases hgains.others below index hbelow with hold | ⟨-, heq⟩ | hnone
    · exact hold
    · exact absurd heq hne
    · exact absurd hnone hpresent
  intro name q below hq hkind hbacking hbelow
  rcases hfate with ⟨-, hsame, -⟩ | ⟨c, cloned, -, -, hfree, hinsert⟩
  · rw [hsame] at hq
    exact hlost name q below hq hkind hbacking (hold below hbelow)
  · by_cases hname : name = cloned
    · rw [hname, hinsert, AList.lookup_insert] at hq
      cases hq
      cases hbacking
      rw [hgains.gained] at hbelow
      exact hne (Option.some.inj hbelow).symm
    · rw [hinsert, AList.lookup_insert_ne fun heq => hname (Prod.mk.inj heq).2] at hq
      exact hlost name q below hq hkind hbacking (hold below hbelow)

theorem Pending.unrepresented_run {es : List DependencyEdge}
    (h : Pending parent child constraints es u) {index : ObjectId}
    (hne : ∀ e ∈ es, index ≠ e.dependent) (hpresent : u.indexTableOf index ≠ none)
    (hlost : u.Unrepresented child index) :
    (es.foldl (ensurePartitionIndex parent child constraints) u).Unrepresented child index := by
  induction es generalizing u with
  | nil => exact hlost
  | cons e es ih =>
    obtain ⟨hnext, gained, hgains, -⟩ := h.step
    obtain ⟨owner, howner⟩ := Option.ne_none_iff_exists'.mp hpresent
    refine ih hnext (fun e' he' => hne e' (List.mem_cons_of_mem e he')) ?_
      (h.unrepresented_step (hne e List.mem_cons_self) hpresent hlost)
    rw [hgains.tables index owner howner]
    exact Option.some_ne_none owner

/-- A constraint that is overwritten gives way to one behind a new index. -/
theorem Pending.lookup_run {es : List DependencyEdge} (h : Pending parent child constraints es u)
    {key : ObjectId × String} {c : ConstraintState} (hkey : u.constraints.lookup key = some c) :
    let t := es.foldl (ensurePartitionIndex parent child constraints) u
    t.constraints.lookup key = some c ∨ ∃ q index, t.constraints.lookup key = some q ∧
      q.backingIndex = some index ∧ u.indexTableOf index = none := by
  induction es generalizing u c with
  | nil => exact Or.inl hkey
  | cons e es ih =>
    obtain ⟨hnext, gained, hgains, hfate⟩ := h.step
    intro t
    have hbefore {index : ObjectId} (hnone : (ensurePartitionIndex parent child constraints u
        e).indexTableOf index = none) : u.indexTableOf index = none := by
      cases howner : u.indexTableOf index with
      | none => rfl
      | some owner =>
        rw [hgains.tables index owner howner] at hnone
        cases hnone
    have hlater {c' : ConstraintState} (hc' : (ensurePartitionIndex parent child constraints u
        e).constraints.lookup key = some c') : t.constraints.lookup key = some c' ∨
          ∃ q index, t.constraints.lookup key = some q ∧ q.backingIndex = some index ∧
            u.indexTableOf index = none := by
      rcases ih hnext hc' with hkept | ⟨q, index, hq, hindex, hnone⟩
      · exact Or.inl hkept
      · exact Or.inr ⟨q, index, hq, hindex, hbefore hnone⟩
    rcases hfate with ⟨-, hsame, -⟩ | ⟨cloned, name, -, -, hfree, hinsert⟩
    · exact hlater (by rw [hsame]; exact hkey)
    · by_cases heq : key = (child, name)
      · subst heq
        have hclone : (ensurePartitionIndex parent child constraints u e).constraints.lookup
            (child, name) = some (keyClone child name cloned.kind gained) := by
          rw [hinsert, AList.lookup_insert]
        rcases hlater hclone with hkept | hnew
        · exact Or.inr ⟨_, gained, hkept, rfl, hfree⟩
        · exact Or.inr hnew
      · exact hlater (by rw [hinsert, AList.lookup_insert_ne heq]; exact hkey)

/-- Only the constraint `name` of the child can be behind an index attached to
this one. -/
def AnalysisState.RepresentedBy (u : AnalysisState) (child index : ObjectId) (name : String) :
    Prop :=
  ∀ name' q below, u.constraints.lookup (child, name') = some q → isIndexBacked q.kind = true →
    q.backingIndex = some below → u.indexParentOf below = some index → name' = name

/-- A constraint of the child is there from the start, or it is the one that
represents an index of the parent, which needs it in the end. -/
def HasOrigin (s t : AnalysisState) (child : ObjectId) (es : List DependencyEdge)
    (u : AnalysisState) (name : String) (c : ConstraintState) : Prop :=
  s.constraints.lookup (child, name) = some c ∨ ∃ index, ¬t.Unrepresented child index ∧
    (∀ e ∈ es, index ≠ e.dependent) ∧ u.indexTableOf index ≠ none ∧
      u.RepresentedBy child index name

/-- A clone that takes a used name overwrites a constraint of the child, or the
only one that represents an earlier index of the parent. -/
theorem Pending.clonesFree {es : List DependencyEdge} (h : Pending parent child constraints es u)
    (ht : t = es.foldl (ensurePartitionIndex parent child constraints) u)
    (hkept : ∀ name c, s.constraints.lookup (child, name) = some c →
      t.constraints.lookup (child, name) = some c)
    (hrepresented : ∀ index c, keyBackedBy constraints index = some c →
      ¬t.Unrepresented child index)
    (horigin : ∀ name c, u.constraints.lookup (child, name) = some c →
      HasOrigin s t child es u name c)
    (hlost : ∀ e ∈ es, u.Unrepresented child e.dependent) :
    ClonesFree parent child constraints es u := by
  induction es generalizing u with
  | nil => trivial
  | cons e es ih =>
    obtain ⟨hnext, gained, hgains, hfate⟩ := h.step
    have hnodup := List.nodup_cons.mp h.nodup
    have hpresent {index : ObjectId} (hindex : u.indexTableOf index ≠ none) :
        (ensurePartitionIndex parent child constraints u e).indexTableOf index ≠ none := by
      obtain ⟨owner, howner⟩ := Option.ne_none_iff_exists'.mp hindex
      rw [hgains.tables index owner howner]
      exact Option.some_ne_none owner
    have hlater (e' : DependencyEdge) (he' : e' ∈ es) : e'.dependent ≠ e.dependent :=
      fun heq => hnodup.1 (List.mem_map.mpr ⟨e', he', heq⟩)
    -- an index that was attached before is attached to the same one after
    have hback {below index : ObjectId} (hne : index ≠ e.dependent)
        (hindex : u.indexTableOf index ≠ none)
        (hbelow : (ensurePartitionIndex parent child constraints u e).indexParentOf below =
          some index) : u.indexParentOf below = some index := by
      rcases hgains.others below index hbelow with hold | ⟨-, heq⟩ | hnone
      · exact hold
      · exact absurd heq hne
      · exact absurd hnone hindex
    have hfree (name : String) (hname : u.cloneName parent child constraints e = some name) :
        u.constraints.lookup (child, name) = none := by
      cases hused : u.constraints.lookup (child, name) with
      | none => rfl
      | some r =>
        rcases hfate with ⟨hnone, -⟩ | ⟨c, name', hc, hname', hnew, hinsert⟩
        · rw [hname] at hnone
          cases hnone
        rw [hname] at hname'
        cases hname'
        have hclone : (ensurePartitionIndex parent child constraints u e).constraints.lookup
            (child, name) = some (keyClone child name c.kind gained) := by
          rw [hinsert, AList.lookup_insert]
        rcases horigin name r hused with hstart | ⟨index, hneeded, hapart, hindex, hsole⟩
        · -- the constraint was there from the start, and is behind no new index
          have hend : t.constraints.lookup (child, name) = some r := hkept name r hstart
          have hbehind (below : ObjectId) (hbelow : r.backingIndex = some below) :
              u.indexTableOf below ≠ none := h.inOrder.indexed _ r below hused hbelow
          rw [ht, List.foldl_cons] at hend
          rcases hnext.lookup_run hclone with hsame | ⟨q, below, hq, hbelow, hnone⟩
          · rw [hend] at hsame
            cases hsame
            exact absurd hnew (hbehind gained rfl)
          · rw [hend] at hq
            cases hq
            exact absurd hnone (hpresent (hbehind below hbelow))
        · -- the index it represents is left without
          refine absurd ?_ hneeded
          rw [ht, List.foldl_cons]
          refine hnext.unrepresented_run
            (fun e' he' => hapart e' (List.mem_cons_of_mem e he')) (hpresent hindex) ?_
          intro name' q below hq hkind hbacking hbelow
          by_cases hsame : name' = name
          · rw [hsame, hclone] at hq
            cases hq
            cases hbacking
            rw [hgains.gained] at hbelow
            exact hapart e List.mem_cons_self (Option.some.inj hbelow).symm
          · rw [hinsert, AList.lookup_insert_ne fun heq => hsame (Prod.mk.inj heq).2] at hq
            exact hsame (hsole name' q below hq hkind hbacking
              (hback (hapart e List.mem_cons_self) hindex hbelow))
    refine ⟨hfree, ih hnext ht ?_ ?_⟩
    · intro name c hlookup
      -- what was represented by one constraint still is
      have hstill (hold : u.constraints.lookup (child, name) = some c) :
          HasOrigin s t child es (ensurePartitionIndex parent child constraints u e) name c := by
        rcases horigin name c hold with hstart | ⟨index, hneeded, hapart, hindex, hsole⟩
        · exact Or.inl hstart
        · refine Or.inr ⟨index, hneeded, fun e' he' => hapart e' (List.mem_cons_of_mem e he'),
            hpresent hindex, fun name' q below hq hkind hbacking hbelow => ?_⟩
          rcases hfate with ⟨-, hsame, -⟩ | ⟨_, cloned, -, -, -, hinsert⟩
          · rw [hsame] at hq
            exact hsole name' q below hq hkind hbacking
              (hback (hapart e List.mem_cons_self) hindex hbelow)
          · by_cases hcloned : name' = cloned
            · rw [hcloned, hinsert, AList.lookup_insert] at hq
              cases hq
              cases hbacking
              rw [hgains.gained] at hbelow
              exact absurd (Option.some.inj hbelow).symm (hapart e List.mem_cons_self)
            · rw [hinsert, AList.lookup_insert_ne fun heq => hcloned (Prod.mk.inj heq).2] at hq
              exact hsole name' q below hq hkind hbacking
                (hback (hapart e List.mem_cons_self) hindex hbelow)
      rcases hfate with ⟨-, hsame, -⟩ | ⟨clonedKey, cloned, hc, hname, hnew, hinsert⟩
      · exact hstill (by rwa [hsame] at hlookup)
      · by_cases hcloned : name = cloned
        · -- the clone represents the index of the parent that it was made for
          refine Or.inr ⟨e.dependent, hrepresented _ _ hc, fun e' he' => (hlater e' he').symm,
            hpresent (h.indexes e List.mem_cons_self).2,
            fun name' q below hq hkind hbacking hbelow => ?_⟩
          by_contra hne
          rw [hcloned] at hne
          rw [hinsert, AList.lookup_insert_ne fun heq => hne (Prod.mk.inj heq).2] at hq
          rcases hgains.others below _ hbelow with hold | ⟨hgained, -⟩ | hnone
          · exact hlost e List.mem_cons_self name' q below hq hkind hbacking hold
          · rw [hgained] at hbacking
            exact h.inOrder.indexed _ q gained hq hbacking hnew
          · exact (h.indexes e List.mem_cons_self).2 hnone
        · rw [hinsert, AList.lookup_insert_ne fun heq => hcloned (Prod.mk.inj heq).2] at hlookup
          exact hstill hlookup
    · intro e' he'
      obtain ⟨-, hindex⟩ := h.indexes e' (List.mem_cons_of_mem e he')
      exact h.unrepresented_step (hlater e' he') hindex (hlost e' (List.mem_cons_of_mem e he'))

end Runs

section Attach

variable {s : AnalysisState} {parent child : ObjectId}

theorem mem_constraintsOfTable {c : ConstraintState} : c ∈ s.constraintsOfTable parent ↔
    ∃ key, s.constraints.lookup key = some c ∧ c.tableId = parent := by
  simp only [constraintsOfTable, List.mem_filter, List.mem_map, beq_iff_eq]
  constructor
  · rintro ⟨⟨entry, hentry, rfl⟩, htable⟩
    exact ⟨entry.1, AList.mem_lookup_iff.mpr hentry, htable⟩
  · rintro ⟨key, hkey, htable⟩
    exact ⟨⟨⟨key, c⟩, AList.mem_lookup_iff.mp hkey, rfl⟩, htable⟩

theorem mem_indexesOfTable {e : DependencyEdge} : e ∈ s.indexesOfTable parent ↔
    e ∈ s.graph.edges ∧ e.referenced = parent ∧ e.kind.isIndexOnRelation = true := by
  simp [indexesOfTable]

variable (h : s.AttachReady parent child)
include h

theorem AnalysisState.AttachReady.indexTableOf_eq {e : DependencyEdge}
    (he : e ∈ s.indexesOfTable parent) : s.indexTableOf e.dependent = some parent := by
  obtain ⟨hmem, hreferenced, hkind⟩ := mem_indexesOfTable.mp he
  unfold AnalysisState.indexTableOf DependencyGraph.indexTableOf
  cases hfound : s.graph.edges.find? fun e' =>
      e'.dependent == e.dependent && e'.kind.isIndexOnRelation with
  | none =>
    have hnot := List.find?_eq_none.mp hfound e hmem
    simp [hkind] at hnot
  | some e' =>
    have hmatch := List.find?_some hfound
    simp only [Bool.and_eq_true, beq_iff_eq] at hmatch
    rw [h.oneEdge e' (List.mem_of_find?_eq_some hfound) e hmem hmatch.2 hkind hmatch.1,
      Option.map_some, hreferenced]

theorem AnalysisState.AttachReady.pending :
    Pending parent child (s.constraintsOfTable parent) (s.indexesOfTable parent) s := by
  refine ⟨h.toKeysInOrder, h.distinct, fun c hc => ?_, fun e he => ?_, ?_⟩
  · obtain ⟨key, hkey, htable⟩ := mem_constraintsOfTable.mp hc
    rw [← htable, ← h.keyed key c hkey]
    exact hkey
  · rw [h.indexTableOf_eq he]
    exact ⟨(mem_indexesOfTable.mp he).2.2, Option.some_ne_none parent⟩
  · refine List.Nodup.map_on (fun e he e' he' heq => ?_) (s.graph.nodup.filter _)
    obtain ⟨hmem, -, hkind⟩ := mem_indexesOfTable.mp he
    obtain ⟨hmem', -, hkind'⟩ := mem_indexesOfTable.mp he'
    exact h.oneEdge e hmem e' hmem' hkind hkind' heq

theorem AnalysisState.AttachReady.eq_of_backing {p p' : ConstraintState} {index : ObjectId}
    (hp : s.IsKeyOf parent p) (hp' : s.IsKeyOf parent p') (hindex : p.backingIndex = some index)
    (hindex' : p'.backingIndex = some index) : p = p' := by
  obtain ⟨key, hkey, -, hkind⟩ := hp
  obtain ⟨key', hkey', -, hkind'⟩ := hp'
  obtain rfl := h.oneKey key key' p p' index hkey hkey' (isIndexBacked_of_key hkind)
    (isIndexBacked_of_key hkind') hindex hindex'
  rw [hkey] at hkey'
  exact Option.some.inj hkey'

/-- Attaching a partition loses no constraint exactly if no clone of a key
takes a name that the partition uses. -/
theorem attachKeepsConstraints_iff : s.AttachKeepsConstraints parent child ↔
    ClonesFree parent child (s.constraintsOfTable parent) (s.indexesOfTable parent) s := by
  have hisKey {index : ObjectId} {c : ConstraintState}
      (hc : keyBackedBy (s.constraintsOfTable parent) index = some c) :
      s.IsKeyOf parent c ∧ c.backingIndex = some index := by
    have hmatch := List.find?_some hc
    simp only [Bool.and_eq_true, beq_iff_eq] at hmatch
    obtain ⟨key, hkey, htable⟩ := mem_constraintsOfTable.mp (List.mem_of_find?_eq_some hc)
    exact ⟨⟨key, hkey, htable, hmatch.2⟩, hmatch.1⟩
  constructor
  · rintro ⟨hkept, cloneOf, hclones, -⟩
    refine h.pending.clonesFree rfl hkept (fun index c hc hlost => ?_)
      (fun name c hname => Or.inl hname) fun e he name q below hq hkind hbacking habove => ?_
    · obtain ⟨hkey, hindex⟩ := hisKey hc
      obtain ⟨q, below, hq, hkind, hbacking, habove⟩ := hclones c hkey
      obtain ⟨-, -, -, hkeyKind⟩ := hkey
      refine hlost (cloneOf c) q below hq ?_ hbacking (habove.trans hindex)
      rw [hkind]
      exact isIndexBacked_of_key hkeyKind
    · exact h.apart name q below e.dependent hq hkind hbacking habove (h.indexTableOf_eq he)
  · intro hfree
    obtain ⟨hkept, -, hfound⟩ := h.pending.run hfree
    refine ⟨fun name c hname => hkept _ c hname, ?_⟩
    have hclone (p : ConstraintState) : ∃ name, s.IsKeyOf parent p → ∃ q index,
        (s.ensurePartitionIndexesAndConstraints parent child).constraints.lookup (child, name) =
          some q ∧ q.kind = p.kind ∧ q.backingIndex = some index ∧
            (s.ensurePartitionIndexesAndConstraints parent child).indexParentOf index =
              p.backingIndex := by
      by_cases hp : s.IsKeyOf parent p
      · obtain ⟨e, he, hindex⟩ := h.parentKeys p hp
        obtain ⟨key, hkey, htable, hkind⟩ := id hp
        cases hc : keyBackedBy (s.constraintsOfTable parent) e.dependent with
        | none =>
          have hnot := List.find?_eq_none.mp hc p (mem_constraintsOfTable.mpr ⟨key, hkey, htable⟩)
          simp [hindex, hkind] at hnot
        | some c =>
          obtain rfl := h.eq_of_backing hp (hisKey hc).1 hindex (hisKey hc).2
          obtain ⟨name, q, index, hq, hsame, hbacking, habove⟩ := hfound e he p hc
          exact ⟨name, fun _ => ⟨q, index, hq, hsame, hbacking, habove.trans hindex.symm⟩⟩
      · exact ⟨"", fun hnot => absurd hnot hp⟩
    choose cloneOf hcloneOf using hclone
    refine ⟨cloneOf, hcloneOf, fun p p' hp hp' heq => ?_⟩
    obtain ⟨q, index, hq, -, hbacking, habove⟩ := hcloneOf p hp
    obtain ⟨q', index', hq', -, hbacking', habove'⟩ := hcloneOf p' hp'
    rw [heq, hq'] at hq
    cases hq
    rw [hbacking] at hbacking'
    cases hbacking'
    obtain ⟨e, -, hindex⟩ := h.parentKeys p hp
    exact h.eq_of_backing hp hp' hindex (habove'.symm.trans (habove.trans hindex))

end Attach

section Collision

def ledger : ObjectId := ⟨"public", "ledger"⟩

def ledgerPart : ObjectId := ⟨"public", "part"⟩

def ledgerKey : ConstraintState :=
  { tableId := ledger, name := "ledger_a_key", kind := .unique, validated := true,
    definition := none, backingIndex := some ⟨"public", "ledger_a_key"⟩ }

/-- A table with a unique column, next to one with these constraints. -/
def withLedger (constraints : KeyedMap (ObjectId × String) ConstraintState) : AnalysisState :=
  { constraints := constraints.insert (ledger, "ledger_a_key") ledgerKey
    graph := (DependencyGraph.empty.addEdge
      ⟨⟨"public", "ledger_a_key"⟩, ledger, constraintIndexDependency ["a"] true⟩).addEdge
        ⟨ledger, ledger, .constraintOnRelation "ledger_a_key" ["a"] false⟩ }

/-- A check that has the name that the clone of the key gets. -/
def partCheck : ConstraintState :=
  { tableId := ledgerPart, name := "part_a_key", kind := .check, validated := true,
    definition := some "CHECK ((a > 0))", backingIndex := none }

def partChecked : AnalysisState :=
  withLedger ((∅ : KeyedMap (ObjectId × String) ConstraintState).insert
    (ledgerPart, "part_a_key") partCheck)

theorem attachReady_withLedger {constraints : KeyedMap (ObjectId × String) ConstraintState}
    (hchecks : ∀ key c, constraints.lookup key = some c →
      key = (c.tableId, c.name) ∧ c.kind = .check ∧ c.backingIndex = none) :
    (withLedger constraints).AttachReady ledger ledgerPart := by
  have hcases (key : ObjectId × String) (c : ConstraintState)
      (h : (withLedger constraints).constraints.lookup key = some c) :
      key = (ledger, "ledger_a_key") ∧ c = ledgerKey ∨
        key = (c.tableId, c.name) ∧ c.kind = .check ∧ c.backingIndex = none := by
    by_cases hkey : key = (ledger, "ledger_a_key")
    · rw [hkey, withLedger, AList.lookup_insert] at h
      exact Or.inl ⟨hkey, (Option.some.inj h).symm⟩
    · rw [withLedger, AList.lookup_insert_ne hkey] at h
      exact Or.inr (hchecks key c h)
  have hedges (e : DependencyEdge) (he : e ∈ (withLedger constraints).graph.edges) :
      e = ⟨⟨"public", "ledger_a_key"⟩, ledger, constraintIndexDependency ["a"] true⟩ ∨
        e.kind = .constraintOnRelation "ledger_a_key" ["a"] false := by
    simp only [withLedger, DependencyGraph.mem_addEdge] at he
    rcases he with (he | he) | rfl
    · cases he
    · exact Or.inl he
    · exact Or.inr rfl
  have htable : (withLedger constraints).indexTableOf ⟨"public", "ledger_a_key"⟩ = some ledger := by
    show DependencyGraph.indexTableOf (withLedger ∅).graph _ = _
    decide +kernel
  have hunattached (index above : ObjectId) :
      (withLedger constraints).indexParentOf index ≠ some above := by
    intro habove
    obtain ⟨e, he, -⟩ := Option.map_eq_some_iff.mp habove
    have hkind := List.find?_some he
    rcases hedges e (List.mem_of_find?_eq_some he) with rfl | hother
    · simp [constraintIndexDependency, DependencyKind.isIndexPartitionOf] at hkind
    · simp [hother, DependencyKind.isIndexPartitionOf] at hkind
  refine {
    keyed := fun key c h => ?_
    indexed := fun key c index h hindex => ?_
    oneKey := fun key key' c c' index h h' hc hc' hindex hindex' => ?_
    onChild := fun key c index owner h hc hindex howner hresolve => ?_
    attached := fun index above h => absurd h (hunattached index above)
    distinct := by decide
    parentKeys := fun c hc => ?_
    oneEdge := fun e he e' he' hkind hkind' _ => ?_
    apart := fun name c index above _ _ _ h => absurd h (hunattached index above) }
  · rcases hcases key c h with ⟨rfl, rfl⟩ | ⟨hkey, -⟩
    · rfl
    · exact hkey
  · rcases hcases key c h with ⟨rfl, rfl⟩ | ⟨-, -, hnone⟩
    · cases hindex
      rw [htable]
      exact Option.some_ne_none ledger
    · rw [hnone] at hindex
      cases hindex
  · rcases hcases key c h with ⟨rfl, rfl⟩ | ⟨-, -, hnone⟩
    · rcases hcases key' c' h' with ⟨rfl, rfl⟩ | ⟨-, -, hnone⟩
      · rfl
      · rw [hnone] at hindex'
        cases hindex'
    · rw [hnone] at hindex
      cases hindex
  · rcases hcases key c h with ⟨rfl, rfl⟩ | ⟨-, -, hnone⟩
    · cases hindex
      rw [htable] at howner
      cases howner
      have hapart : (withLedger ∅).graph.resolveRename ledger ≠
          (withLedger ∅).graph.resolveRename ledgerPart := by decide +kernel
      exact absurd hresolve hapart
    · rw [hnone] at hindex
      cases hindex
  · obtain ⟨key, hkey, htableOf, hkind⟩ := hc
    rcases hcases key c hkey with ⟨rfl, rfl⟩ | ⟨-, hcheck, -⟩
    · exact ⟨⟨⟨"public", "ledger_a_key"⟩, ledger, constraintIndexDependency ["a"] true⟩,
        mem_indexesOfTable.mpr ⟨by simp [withLedger], rfl, rfl⟩, rfl⟩
    · rw [hcheck] at hkind
      cases hkind
  · rcases hedges e he with rfl | hother
    · rcases hedges e' he' with rfl | hother
      · rfl
      · simp [hother, DependencyKind.isIndexOnRelation] at hkind'
    · simp [hother, DependencyKind.isIndexOnRelation] at hkind

/-- Without the check, the clone of the key finds its name free. -/
theorem ledger_keeps : (withLedger ∅).AttachKeepsConstraints ledger ledgerPart := by
  refine (attachKeepsConstraints_iff (attachReady_withLedger fun key c h => by cases h)).mpr ?_
  have hindexes : (withLedger ∅).indexesOfTable ledger =
      [⟨⟨"public", "ledger_a_key"⟩, ledger, constraintIndexDependency ["a"] true⟩] := by
    decide +kernel
  rw [hindexes]
  refine ⟨fun name _ => ?_, trivial⟩
  rw [withLedger, AList.lookup_insert_ne (by simp [ledger, ledgerPart])]
  rfl

/-- The clone of the key takes the place of a check of the partition. -/
theorem partChecked_loses : partChecked.AttachReady ledger ledgerPart ∧
    ¬partChecked.AttachKeepsConstraints ledger ledgerPart := by
  refine ⟨attachReady_withLedger fun key c h => ?_, fun hkeeps => ?_⟩
  · by_cases hkey : key = (ledgerPart, "part_a_key")
    · rw [hkey, AList.lookup_insert] at h
      cases h
      exact ⟨hkey, rfl, rfl⟩
    · rw [AList.lookup_insert_ne hkey] at h
      cases h
  · have hkept := hkeeps.1 "part_a_key" partCheck (by decide +kernel)
    have hlost : (partChecked.ensurePartitionIndexesAndConstraints ledger
      ledgerPart).constraints.lookup (ledgerPart, "part_a_key") ≠ some partCheck := by
        decide +kernel
    exact hlost hkept

end Collision

end SafeMigrate
