import SafeMigrate.Aliases
import SafeMigrate.ColumnPayloads

/-! The sweeps of `RENAME COLUMN` over the edges: each one substitutes the column in
some payloads, and together they are one substitution. -/

namespace SafeMigrate

section RetainUnseen

variable {α β : Type} [DecidableEq α] [DecidableEq β]

theorem retainUnseen_map_retainUnseen (f : α → β) (l : List α) {seen : List α} {seen' : List β}
    (hseen : ∀ x ∈ seen, f x ∈ seen') :
    retainUnseen seen' ((retainUnseen seen l).map f) = retainUnseen seen' (l.map f) := by
  induction l generalizing seen seen' with
  | nil => rfl
  | cons x l ih =>
    by_cases hx : x ∈ seen
    · have hfx : f x ∈ seen' := hseen x hx
      rw [retainUnseen, if_pos hx, List.map_cons, retainUnseen, if_pos hfx]
      exact ih hseen
    · rw [retainUnseen, if_neg hx, List.map_cons, List.map_cons, retainUnseen, retainUnseen]
      by_cases hfx : f x ∈ seen'
      · rw [if_pos hfx, if_pos hfx]
        apply ih
        intro y hy
        rcases List.mem_cons.mp hy with rfl | hy
        · exact hfx
        · exact hseen y hy
      · rw [if_neg hfx, if_neg hfx]
        congr 1
        apply ih
        intro y hy
        rcases List.mem_cons.mp hy with rfl | hy
        · exact List.mem_cons_self
        · exact List.mem_cons_of_mem _ (hseen y hy)

end RetainUnseen

theorem renamedColumn_idem (oldName newName : String) :
    renamedColumn oldName newName ∘ renamedColumn oldName newName =
      renamedColumn oldName newName := by
  funext name
  simp only [Function.comp_apply, renamedColumn]
  by_cases hname : name = oldName
  · simp [hname]
  · simp [hname]

/-- An old name that is gone cannot be met again. -/
theorem renamedColumn_ne {oldName newName : String} (hne : oldName ≠ newName) (name : String) :
    renamedColumn oldName newName name ≠ oldName := by
  unfold renamedColumn
  by_cases hname : name = oldName
  · rw [if_pos hname]
    exact hne.symm
  · rw [if_neg hname]
    exact hname

theorem renamedColumn_of_ne {oldName newName name : String} (h : name ≠ oldName) :
    renamedColumn oldName newName name = name := if_neg h

/-- The renaming, or none. -/
def renamedIf (oldName newName : String) (b : Bool) : String → String :=
  if b then renamedColumn oldName newName else id

theorem renamedIf_comp {oldName newName : String} (b b' : Bool) :
    renamedIf oldName newName b' ∘ renamedIf oldName newName b =
      renamedIf oldName newName (b || b') := by
  cases b <;> cases b' <;> simp [renamedIf, renamedColumn_idem]

theorem renamedIf_congr {oldName newName : String} {b b' : Bool} {columns : List String}
    (h : b ≠ b' → oldName ∉ columns) (name : String) (hname : name ∈ columns) :
    renamedIf oldName newName b name = renamedIf oldName newName b' name := by
  by_cases hb : b = b'
  · rw [hb]
  · have hother : renamedColumn oldName newName name = name :=
      renamedColumn_of_ne fun heq => h hb (heq ▸ hname)
    cases b <;> cases b' <;> simp [renamedIf, hother]

namespace DependencyEdge

variable {oldName newName : String} {p p' q q' : DependencyEdge → Bool} {e : DependencyEdge}

/-- The column renamed on the chosen sides of an edge. -/
def substColumns (oldName newName : String) (p q : DependencyEdge → Bool) (e : DependencyEdge) :
    DependencyEdge :=
  { e with kind := e.kind.mapColumns (renamedIf oldName newName (p e)) (renamedIf oldName newName (q e)) }

/-- A test of an edge that the names of its columns do not affect. -/
def ShapeOnly (p : DependencyEdge → Bool) : Prop :=
  ∀ e f g, p { e with kind := e.kind.mapColumns f g } = p e

theorem substColumns_substColumns (hp : ShapeOnly p') (hq : ShapeOnly q') :
    (e.substColumns oldName newName p q).substColumns oldName newName p' q' =
      e.substColumns oldName newName (fun e => p e || p' e) (fun e => q e || q' e) := by
  have hp' : p' (e.substColumns oldName newName p q) = p' e := hp e _ _
  have hq' : q' (e.substColumns oldName newName p q) = q' e := hq e _ _
  rw [substColumns, hp', hq']
  simp only [substColumns, DependencyKind.mapColumns_mapColumns, renamedIf_comp]

@[simp] theorem substColumns_dependent :
    (e.substColumns oldName newName p q).dependent = e.dependent := rfl

@[simp] theorem substColumns_referenced :
    (e.substColumns oldName newName p q).referenced = e.referenced := rfl

theorem substColumns_none :
    e.substColumns oldName newName (fun _ => false) (fun _ => false) = e := by
  simp [substColumns, renamedIf]

theorem substColumns_congr
    (hp : p e ≠ p' e → oldName ∉ e.kind.dependentColumns)
    (hq : q e ≠ q' e → oldName ∉ e.kind.referencedColumns) :
    e.substColumns oldName newName p q = e.substColumns oldName newName p' q' := by
  unfold substColumns
  rw [DependencyKind.mapColumns_congr (renamedIf_congr hp) (renamedIf_congr hq)]

theorem dependentColumns_substColumns : (e.substColumns oldName newName p q).kind.dependentColumns =
    e.kind.dependentColumns.map (renamedIf oldName newName (p e)) :=
  DependencyKind.dependentColumns_mapColumns

theorem referencedColumns_substColumns :
    (e.substColumns oldName newName p q).kind.referencedColumns =
      e.kind.referencedColumns.map (renamedIf oldName newName (q e)) :=
  DependencyKind.referencedColumns_mapColumns

end DependencyEdge

namespace DependencyGraph

open DependencyEdge

variable {g : DependencyGraph} {oldName newName : String}

theorem mapEdges_mapEdges (g : DependencyGraph) (f h : DependencyEdge → DependencyEdge) :
    (g.mapEdges f).mapEdges h = g.mapEdges fun e => h (f e) := by
  apply ext_edges
  show retainUnseen [] ((retainUnseen [] (g.edges.map f)).map h) = retainUnseen [] (g.edges.map _)
  rw [retainUnseen_map_retainUnseen h _ (by simp), List.map_map]
  rfl

/-- `e.dependent` or `e.referenced` is the table, for the kinds that the sweep
over the table's own dependencies goes into. -/
theorem renameColumnDependencies_eq (table : ObjectId) :
    g.renameColumnDependencies table oldName newName =
      g.mapEdges (substColumns oldName newName (fun e => decide (e.dependent = table))
        fun e => e.kind.isKeyOrGeneration && decide (e.referenced = table)) := by
  unfold renameColumnDependencies
  congr 1
  funext ⟨dependent, referenced, kind⟩
  by_cases hdependent : dependent = table <;> by_cases hreferenced : referenced = table <;>
    cases kind <;> simp [renamedDependency, substColumns, hdependent, hreferenced, renamedIf,
      DependencyKind.isKeyOrGeneration, DependencyKind.mapColumns, DependencyKind.mapColumn_id]

theorem renameIndexColumn_eq (table : ObjectId) :
    g.renameIndexColumn table oldName newName =
      g.mapEdges (substColumns oldName newName (fun _ => false)
        fun e => e.kind.isIndexOnRelation && decide (e.referenced = table)) := by
  unfold renameIndexColumn
  congr 1
  funext ⟨dependent, referenced, kind⟩
  have hkey : renamedIndexKey oldName newName = (·.mapColumn (renamedColumn oldName newName)) := rfl
  by_cases hreferenced : referenced = table <;>
    cases kind <;> simp [renamedIndex, substColumns, hreferenced, renamedIf, hkey,
      DependencyKind.isIndexOnRelation, DependencyKind.mapColumns, DependencyKind.mapColumn_id]

theorem renameOwnedSequenceColumn_eq (sequence : ObjectId) :
    g.renameOwnedSequenceColumn sequence oldName newName =
      g.mapEdges (substColumns oldName newName (fun _ => false)
        fun e => e.kind.isSequenceOwnedBy && decide (e.dependent = sequence)) := by
  unfold renameOwnedSequenceColumn
  congr 1
  funext ⟨dependent, referenced, kind⟩
  by_cases hdependent : dependent = sequence <;>
    cases kind <;> simp [substColumns, hdependent, renamedIf,
      DependencyKind.isSequenceOwnedBy, DependencyKind.mapColumns, DependencyKind.mapColumn_id]

theorem mapEdges_congr {f h : DependencyEdge → DependencyEdge}
    (hsame : ∀ e ∈ g.edges, f e = h e) : g.mapEdges f = g.mapEdges h := by
  rw [mapEdges, mapEdges, List.map_congr_left hsame]

theorem mapEdges_self : (g.mapEdges fun e => e) = g := by
  rw [mapEdges, List.map_id']
  exact ofEdges_edges g

/-- One sequence after another is all of them at once. -/
theorem foldl_renameOwnedSequenceColumn (sequences : List ObjectId) (g : DependencyGraph) :
    sequences.foldl (fun g sequence => g.renameOwnedSequenceColumn sequence oldName newName) g =
      g.mapEdges (substColumns oldName newName (fun _ => false)
        fun e => e.kind.isSequenceOwnedBy && decide (e.dependent ∈ sequences)) := by
  induction sequences generalizing g with
  | nil =>
    have hself : substColumns oldName newName (fun _ => false) (fun e => e.kind.isSequenceOwnedBy &&
        decide (e.dependent ∈ ([] : List ObjectId))) = fun e => e := by
      funext e
      simp [substColumns_none]
    rw [hself, mapEdges_self]
    rfl
  | cons sequence sequences ih =>
    rw [List.foldl_cons, ih, renameOwnedSequenceColumn_eq, mapEdges_mapEdges]
    congr 1
    funext e
    rw [substColumns_substColumns (fun _ _ _ => rfl) fun e f g => by simp]
    congr 1
    funext e
    simp [Bool.and_or_distrib_left, List.mem_cons]

theorem aliases_substColumns (p q : DependencyEdge → Bool) :
    (g.mapEdges (substColumns oldName newName p q)).aliases = g.aliases := by
  refine aliases_mapEdges (fun e he => ?_) fun e => DependencyKind.isRenameTo_mapColumns
  obtain ⟨dependent, referenced, kind⟩ := e
  cases kind with
  | renameTo => rfl
  | _ => cases he

theorem resolveRename_substColumns (p q : DependencyEdge → Bool) (id : ObjectId) :
    (g.mapEdges (substColumns oldName newName p q)).resolveRename id = g.resolveRename id :=
  resolveRename_congr (aliases_substColumns p q) id

section Comparison

variable {p p' q q' : DependencyEdge → Bool}

/-- Where one substitution leaves the name on a side, another that gives the same
edges leaves it as well. -/
theorem leaves_of_subset (hne : oldName ≠ newName) (hp : ShapeOnly p') (hq : ShapeOnly q')
    (hsubset : ∀ e ∈ (g.mapEdges (substColumns oldName newName p q)).edges,
      e ∈ (g.mapEdges (substColumns oldName newName p' q')).edges)
    {e : DependencyEdge} (he : e ∈ g.edges) :
    (oldName ∈ e.kind.dependentColumns → p e = false → p' e = false) ∧
      (oldName ∈ e.kind.referencedColumns → q e = false → q' e = false) := by
  have hgone (columns : List String) :
      oldName ∉ columns.map (renamedIf oldName newName true) := by
    intro hmem
    obtain ⟨name, -, hname⟩ := List.mem_map.mp hmem
    exact renamedColumn_ne hne name hname
  have hkept (columns : List String) : columns.map (renamedIf oldName newName false) = columns :=
    List.map_id columns
  obtain ⟨e', -, heq⟩ := mem_mapEdges.mp (hsubset _ (mem_mapEdges.mpr ⟨e, he, rfl⟩))
  have hsame {r : DependencyEdge → Bool} (hr : ShapeOnly r) : r e' = r e := by
    have hfrom : r (e'.substColumns oldName newName p' q') = r e' := hr e' _ _
    have hto : r (e.substColumns oldName newName p q) = r e := hr e _ _
    rw [← hfrom, heq, hto]
  constructor
  · intro hmem hleft
    have hcolumns := congrArg (·.kind.dependentColumns) heq
    simp only [dependentColumns_substColumns, hleft, hkept, hsame hp] at hcolumns
    rw [← hcolumns] at hmem
    by_contra hright
    rw [Bool.not_eq_false] at hright
    rw [hright] at hmem
    exact hgone _ hmem
  · intro hmem hleft
    have hcolumns := congrArg (·.kind.referencedColumns) heq
    simp only [referencedColumns_substColumns, hleft, hkept, hsame hq] at hcolumns
    rw [← hcolumns] at hmem
    by_contra hright
    rw [Bool.not_eq_false] at hright
    rw [hright] at hmem
    exact hgone _ hmem

/-- Two substitutions give the same edges exactly if they agree wherever the name
occurs. -/
theorem mapEdges_substColumns_iff (hne : oldName ≠ newName) (hp : ShapeOnly p) (hq : ShapeOnly q)
    (hp' : ShapeOnly p') (hq' : ShapeOnly q') :
    (∀ e, e ∈ (g.mapEdges (substColumns oldName newName p q)).edges ↔
        e ∈ (g.mapEdges (substColumns oldName newName p' q')).edges) ↔
      ∀ e ∈ g.edges, (oldName ∈ e.kind.dependentColumns → p e = p' e) ∧
        (oldName ∈ e.kind.referencedColumns → q e = q' e) := by
  constructor
  · intro hsame e he
    obtain ⟨hdependent, hreferenced⟩ :=
      leaves_of_subset (p := p) hne hp' hq' (fun e => (hsame e).mp) he
    obtain ⟨hdependent', hreferenced'⟩ :=
      leaves_of_subset (p := p') hne hp hq (fun e => (hsame e).mpr) he
    have hboth {b b' : Bool} (h : b = false → b' = false) (h' : b' = false → b = false) :
        b = b' := by
      cases b <;> cases b' <;> simp_all
    exact ⟨fun hmem => hboth (hdependent hmem) (hdependent' hmem),
      fun hmem => hboth (hreferenced hmem) (hreferenced' hmem)⟩
  · intro hagree e
    have heach (e : DependencyEdge) (he : e ∈ g.edges) :
        e.substColumns oldName newName p q = e.substColumns oldName newName p' q' := by
      obtain ⟨hdependent, hreferenced⟩ := hagree e he
      exact substColumns_congr (fun h hmem => h (hdependent hmem))
        fun h hmem => h (hreferenced hmem)
    rw [mem_mapEdges, mem_mapEdges]
    constructor
    · rintro ⟨e', he', rfl⟩
      exact ⟨e', he', (heach e' he').symm⟩
    · rintro ⟨e', he', rfl⟩
      exact ⟨e', he', heach e' he'⟩

end Comparison

end DependencyGraph

end SafeMigrate
