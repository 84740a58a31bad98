import SafeMigrate.StatementNames

/-! Rename aliases over whole runs of `CREATE TABLE`, `DROP TABLE` and
relation renames: when a live relation is still what its own name resolves to. -/

namespace SafeMigrate

open AnalysisState DependencyGraph

/-- No alias leads away from a live relation. -/
def AnalysisState.Unaliased (s : AnalysisState) : Prop :=
  ∀ id, s.relationIsPresent id = true → s.graph.resolveRename id = id

variable {s : AnalysisState}

/-- `CREATE TABLE` keeps live relations unaliased if its own name is. -/
theorem AnalysisState.Unaliased.createTable {text : SqlText} {create : CreateTable} (h : s.Unaliased)
    (hid : s.graph.resolveRename create.id.id = create.id.id) :
    (s.applyCreateTable text create).2.Unaliased := by
  have hkeeps : SameAliases create.id.id s (s.applyCreateTable text create).2 :=
    (CreateTable.keeps_command (keepsTableWrites_sameAliases _)
      fun s => SameAliases.of_eq (by unfold CreateTable.noteIfTemporary; split <;> rfl)
        (by unfold CreateTable.noteIfTemporary; split <;> rfl)).outcome s
  intro id hpresent
  rw [resolveRename_congr hkeeps.aliases]
  by_cases hcreated : id = create.id.id
  · rw [hcreated, hid]
  · exact h id (by rwa [← relationIsPresent_congr (hkeeps.relations id hcreated)])

theorem AnalysisState.mem_keys_of_present {id : ObjectId} (h : s.relationIsPresent id = true) :
    id ∈ s.relations.keys := by
  refine AList.mem_keys.mp (AList.lookup_isSome.mp ?_)
  cases hl : s.relations.lookup id with
  | none => simp [relationIsPresent, hl] at h
  | some _ => rfl

section Dropped

open ForwardChain

/-- The drop takes the relation or the index of this identity. -/
def CascadeResult.Takes (dropped : CascadeResult) (id : ObjectId) : Prop :=
  id ∈ dropped.droppedRelations ∨ id ∈ dropped.droppedIndexes

/-- A relation that the drop keeps loses every alias that starts at it, or no
identity on its chain of aliases is taken. -/
def DropTable.AliasSafe (s : AnalysisState) (dropTable : DropTable)
    (precomputedCascade : Option CascadeResult) : Prop :=
  match s.scanDropTargets dropTable.ifExists dropTable.ids [] false with
  | .ok (present, false) =>
    let dropped := s.dropClosure ((sortTargets present).map (·.id)) dropTable.cascade
      precomputedCascade
    ∀ id ∈ s.relations.keys, s.relationIsPresent id = true → id ∉ dropped.droppedRelations →
      (∀ e ∈ s.graph.aliases, e.dependent = id → s.aliasSurvives dropped e = false) ∨
        ∀ name, Reaches s.graph.renameBySource id name → ¬dropped.Takes name
  | _ => True

variable {dropped : CascadeResult} {g : DependencyGraph} {id : ObjectId}

theorem exists_alias {next : ObjectId} (h : g.renameBySource id = some next) :
    ∃ e ∈ g.aliases, e.dependent = id ∧ e.referenced = next := by
  rw [renameBySource_eq] at h
  obtain ⟨e, he, hnext⟩ := Option.map_eq_some_iff.mp h
  exact ⟨e, List.mem_of_find?_eq_some he, by simpa using List.find?_some he, hnext⟩

/-- Of the aliases that a sweep keeps, the first one still counts. -/
theorem renameBySource_filter {keep : DependencyEdge → Bool}
    (hg : g.aliases = s.graph.aliases.filter keep)
    (hkeep : ∀ e ∈ s.graph.aliases, e.dependent = id →
      s.graph.renameBySource id = some e.referenced → keep e = true) :
    g.renameBySource id = s.graph.renameBySource id := by
  rw [renameBySource_eq] at hkeep
  rw [renameBySource_eq, renameBySource_eq, hg]
  generalize s.graph.aliases = edges at hkeep
  clear hg
  induction edges with
  | nil => rfl
  | cons e edges ih =>
    by_cases he : e.dependent = id
    · have hfirst : keep e = true := hkeep e List.mem_cons_self he (by simp [he])
      rw [List.filter_cons_of_pos hfirst]
      simp [he]
    · have hrest := ih fun e' he' hid hnext => hkeep e' (List.mem_cons_of_mem e he') hid
        (by simpa [he] using hnext)
      by_cases hfirst : keep e = true
      · simpa [List.filter_cons_of_pos hfirst, he] using hrest
      · simpa [List.filter_cons_of_neg hfirst, he] using hrest

/-- On an endless chain every identity resolves to itself, so an alias of the
chain survives if neither end is taken. -/
theorem aliasSurvives_of_endless {e : DependencyEdge} (hendless : Endless s.graph.renameBySource id)
    (hsource : Reaches s.graph.renameBySource id e.dependent)
    (htarget : Reaches s.graph.renameBySource id e.referenced) :
    s.aliasSurvives dropped e = true ↔
      ¬dropped.Takes e.dependent ∧ e.referenced ∉ dropped.droppedRelations := by
  have hself (x : ObjectId) (hx : Reaches s.graph.renameBySource id x) :
      s.graph.resolveRename x = x :=
    resolveRename_eq_self_iff.mpr (Or.inr fun y hy => hendless y (hx.trans hy))
  rw [aliasSurvives, hself _ hsource, hself _ htarget]
  simp only [CascadeResult.Takes, Bool.and_eq_true, decide_eq_true_eq, not_or]
  tauto

/-- What the sweep leaves of an alias-safe drop leads no kept relation away. -/
theorem resolveRename_of_aliasSafe (hg : g.aliases = s.graph.aliases.filter (s.aliasSurvives dropped))
    (hid : s.graph.resolveRename id = id)
    (hsafe : (∀ e ∈ s.graph.aliases, e.dependent = id → s.aliasSurvives dropped e = false) ∨
      ∀ name, Reaches s.graph.renameBySource id name → ¬dropped.Takes name) :
    g.resolveRename id = id := by
  rcases hsafe with hlost | hwhole
  · refine resolveRename_of_none (Option.eq_none_iff_forall_ne_some.mpr fun next hnext => ?_)
    obtain ⟨e, he, hsource, -⟩ := exists_alias hnext
    obtain ⟨hbefore, hsurvives⟩ := List.mem_filter.mp (hg ▸ he)
    rw [hlost e hbefore hsource] at hsurvives
    cases hsurvives
  · rcases resolveRename_eq_self_iff.mp hid with hnone | hendless
    · refine resolveRename_of_none ?_
      rw [renameBySource_filter hg fun e _ _ hnext => absurd hnext (by simp [hnone]), hnone]
    · refine resolveRename_eq_self_iff.mpr (Or.inr (hendless.of_agree fun x hx => ?_))
      refine renameBySource_filter hg fun e _ hsource hnext => ?_
      have hx' : Reaches s.graph.renameBySource id e.dependent := hsource ▸ hx
      have hnext' : Reaches s.graph.renameBySource id e.referenced := hx.tail hnext
      exact (aliasSurvives_of_endless hendless hx' hnext').mpr
        ⟨hwhole _ hx', fun htaken => hwhole _ hnext' (Or.inl htaken)⟩

theorem AnalysisState.Unaliased.dropTable {dropTable : DropTable}
    {precomputedCascade : Option CascadeResult} (h : s.Unaliased)
    (hsafe : dropTable.AliasSafe s precomputedCascade) :
    (s.applyDropTable dropTable precomputedCascade).2.Unaliased := by
  rcases applyDropTable_edges isLasting_isRenameTo s dropTable precomputedCascade with
    ⟨-, present, hscan, hdrops⟩ | ⟨-, hsame⟩
  · unfold DropTable.AliasSafe at hsafe
    rw [hscan] at hsafe
    intro id hid
    have hlookup := hdrops.relations id
    by_cases hdropped : id ∈ (s.dropClosure ((sortTargets present).map (·.id)) dropTable.cascade
        precomputedCascade).droppedRelations
    · rw [if_pos hdropped] at hlookup
      simp [relationIsPresent, hlookup, Overlay.isPresent] at hid
    · rw [if_neg hdropped] at hlookup
      have hbefore : s.relationIsPresent id = true := by
        rwa [← relationIsPresent_congr hlookup]
      exact resolveRename_of_aliasSafe hdrops.aliases (h id hbefore)
        (hsafe id (mem_keys_of_present hbefore) hbefore hdropped)
  · intro id hid
    rw [resolveRename_congr hsame.aliases]
    exact h id (by rwa [← relationIsPresent_congr (by rw [hsame.relations])])

section Exact

variable (hone : ∀ a ∈ s.graph.aliases, ∀ b ∈ s.graph.aliases, a.dependent = b.dependent → a = b)
  (hg : g.aliases = s.graph.aliases.filter (s.aliasSurvives dropped))
include hone hg

/-- With one alias for each identity, those left after the sweep counted before it. -/
theorem alias_left {x next : ObjectId} (hnext : g.renameBySource x = some next) :
    s.graph.renameBySource x = some next ∧
      s.aliasSurvives dropped ⟨x, next, .renameTo⟩ = true := by
  obtain ⟨a, ha, rfl, rfl⟩ := exists_alias hnext
  obtain ⟨hbefore, hkeep⟩ := List.mem_filter.mp (hg ▸ ha)
  refine ⟨?_, hkeep⟩
  cases hfirst : s.graph.renameBySource a.dependent with
  | none =>
    rw [renameBySource_eq, Option.map_eq_none_iff, List.find?_eq_none] at hfirst
    exact absurd (beq_self_eq_true _) (hfirst a hbefore)
  | some first =>
    obtain ⟨b, hb, hsame, rfl⟩ := exists_alias hfirst
    rw [hone b hb a hbefore hsame]

theorem not_takes_of_swept {e : DependencyEdge} (he : e ∈ s.graph.aliases)
    (hsurvives : s.aliasSurvives dropped e = true)
    (hself : g.resolveRename e.dependent = e.dependent) (name : ObjectId)
    (hname : Reaches s.graph.renameBySource e.dependent name) : ¬dropped.Takes name := by
  have hendless : Endless g.renameBySource e.dependent := by
    refine (resolveRename_eq_self_iff.mp hself).resolve_left fun hnone => ?_
    rw [renameBySource_eq, Option.map_eq_none_iff, List.find?_eq_none, hg] at hnone
    exact hnone e (List.mem_filter.mpr ⟨he, hsurvives⟩) (beq_self_eq_true _)
  have hagree (x : ObjectId) (hx : Reaches g.renameBySource e.dependent x) :
      s.graph.renameBySource x = g.renameBySource x := by
    obtain ⟨next, hnext⟩ := Option.ne_none_iff_exists'.mp (hendless x hx)
    rw [hnext, (alias_left hone hg hnext).1]
  -- the chain is the one that the sweep left
  have hreach : Reaches g.renameBySource e.dependent name := by
    induction hname with
    | refl => exact .refl
    | tail _ hstep ih => exact ih.tail ((hagree _ ih).symm.trans hstep)
  obtain ⟨next, hnext⟩ := Option.ne_none_iff_exists'.mp (hendless name hreach)
  obtain ⟨hfirst, hkeep⟩ := alias_left hone hg hnext
  have hbefore : Endless s.graph.renameBySource e.dependent := hendless.of_agree hagree
  have hchain : Reaches s.graph.renameBySource e.dependent next := hname.tail hfirst
  exact ((aliasSurvives_of_endless (e := ⟨name, next, .renameTo⟩) hbefore hname hchain).mp hkeep).1

end Exact

/-- Where no identity has two aliases, only an alias-safe drop leaves live
relations unaliased. -/
theorem DropTable.aliasSafe_of_unaliased {dropTable : DropTable}
    {precomputedCascade : Option CascadeResult}
    (hone : ∀ a ∈ s.graph.aliases, ∀ b ∈ s.graph.aliases, a.dependent = b.dependent → a = b)
    (happlied : (s.applyDropTable dropTable precomputedCascade).1 = .applied)
    (hafter : (s.applyDropTable dropTable precomputedCascade).2.Unaliased) :
    dropTable.AliasSafe s precomputedCascade := by
  rcases applyDropTable_edges isLasting_isRenameTo s dropTable precomputedCascade with
    ⟨-, present, hscan, hdrops⟩ | ⟨hrefused, -⟩
  · unfold DropTable.AliasSafe
    rw [hscan]
    intro id _ hpresent hkept
    refine or_iff_not_imp_left.mpr fun hlost => ?_
    push Not at hlost
    obtain ⟨e, he, rfl, hsurvives⟩ := hlost
    have hlookup := hdrops.relations e.dependent
    rw [if_neg hkept] at hlookup
    exact not_takes_of_swept hone hdrops.aliases he (by simpa using hsurvives)
      (hafter e.dependent (by rwa [relationIsPresent_congr hlookup]))
  · exact absurd happlied hrefused

end Dropped

/-- The new name leads to itself or back to the old one, and nothing that
moves along has the name of a live relation. -/
def Rename.AliasSafe (s : AnalysisState) (rename : Rename) : Prop :=
  (s.relationIsPresent rename.oldName = true →
    s.graph.resolveRename rename.newName = rename.newName ∨
      s.graph.resolveRename rename.newName = rename.oldName) ∧
  ∀ id ∈ rename.aliasSources s, s.relationIsPresent id = false ∧ id ≠ rename.newName

theorem AnalysisState.Unaliased.execute {rename : Rename} (h : s.Unaliased)
    (hsafe : rename.AliasSafe s) : (rename.execute s).Unaliased := by
  obtain ⟨v, hgrow, hrest⟩ := rename.execute_names s
  obtain ⟨htarget, hsources⟩ := hsafe
  generalize rename.execute s = t at hrest
  have hmoved : (rename.moveRelation s.snapshotNamespace).graph = s.graph :=
    (rename.moveRelation_graph _).trans (s.pushUndo_graph _)
  have halias (a : ObjectId) : t.graph.renameBySource a =
      (v.graph.renameBySource a <|> if rename.oldName = a then some rename.newName else none) := by
    rw [hrest.new a (List.not_mem_nil), addAlias, setGraph, renameBySource_addAlias]
  have hext (a b : ObjectId) (hab : s.graph.renameBySource a = some b) :
      t.graph.renameBySource a = some b := by
    rw [halias, hgrow.keep a b (by rwa [hmoved])]
    rfl
  have hfree (a : ObjectId) (ha : a ∉ rename.aliasSources s)
      (hnone : s.graph.renameBySource a = none) : t.graph.renameBySource a =
        if rename.oldName = a then some rename.newName else none := by
    rw [halias, hgrow.new a ha, hmoved, hnone]
    rfl
  -- an identity that resolved to itself still does, unless it starts an alias now
  have hself (a : ObjectId) (ha : a ∉ rename.aliasSources s) (hold : rename.oldName ≠ a)
      (hresolve : s.graph.resolveRename a = a) : t.graph.resolveRename a = a := by
    rcases resolveRename_eq_self_iff.mp hresolve with hnone | hendless
    · exact resolveRename_of_none (by rw [hfree a ha hnone, if_neg hold])
    · exact resolveRename_eq_self_iff.mpr (Or.inr (hendless.extend hext))
  have hlive (a : ObjectId) (ha : s.relationIsPresent a = true) : a ∉ rename.aliasSources s :=
    fun hmem => by simp [(hsources a hmem).1] at ha
  intro id hid
  rw [hrest.present] at hid
  rcases rename.moveRelation_present s.snapshotNamespace
      (by rw [← hgrow.present]; exact hid) with ⟨rfl, hpresent⟩ | ⟨hne, hpresent⟩
  · rw [snapshotNamespace, pushUndo_relationIsPresent] at hpresent
    have hnew : rename.newName ∉ rename.aliasSources s := fun hmem => (hsources _ hmem).2 rfl
    have hback : s.graph.renameBySource rename.oldName = none →
        t.graph.renameBySource rename.oldName = some rename.newName := by
      intro hnone
      rw [hfree _ (hlive _ hpresent) hnone, if_pos rfl]
    by_cases hsame : rename.oldName = rename.newName
    · rw [← hsame] at hback ⊢
      rcases resolveRename_eq_self_iff.mp (h _ hpresent) with hnone | hendless
      · have hcycle := Relation.TransGen.single (r := ForwardChain.Leads t.graph.renameBySource)
          (hback hnone)
        exact resolveRename_eq_self_iff.mpr
          (Or.inr (ForwardChain.endless_of_cycle Relation.ReflTransGen.refl hcycle))
      · exact resolveRename_eq_self_iff.mpr (Or.inr (hendless.extend hext))
    · rcases htarget hpresent with hself' | hold
      · exact hself _ hnew hsame hself'
      · -- the chain from the new name ended at the old one, and now returns
        rcases resolveRename_eq_iff.mp hold with ⟨hnone, hreach⟩ | ⟨heq, -⟩
        · have hcycle := Relation.TransGen.tail' (hreach.extend hext) (hback hnone)
          exact resolveRename_eq_self_iff.mpr
            (Or.inr (ForwardChain.endless_of_cycle Relation.ReflTransGen.refl hcycle))
        · exact absurd heq hsame
  · rw [snapshotNamespace, pushUndo_relationIsPresent] at hpresent
    exact hself id (hlive id hpresent) (Ne.symm hne) (h id hpresent)

theorem AnalysisState.Unaliased.rename {rename : Rename} (h : s.Unaliased)
    (hsafe : rename.AliasSafe s) : (s.applyRenameRelation rename).2.Unaliased := by
  rcases applyRenameRelation_cases s rename with happlied | hsame
  · rw [happlied]
    exact h.execute hsafe
  · intro id hid
    rw [resolveRename_congr hsame.aliases]
    exact h id (by rwa [← relationIsPresent_congr (by rw [hsame.relations])])

/-! Runs of the three statements. -/

inductive TableStatement
  | createTable (create : CreateTable)
  | dropTable (dropTable : DropTable) (precomputedCascade : Option CascadeResult)
  | rename (rename : Rename)

def AnalysisState.applyTableStatement (s : AnalysisState) (text : SqlText) :
    TableStatement → MutationResult × AnalysisState
  | .createTable create => s.applyCreateTable text create
  | .dropTable dropTable precomputedCascade => s.applyDropTable dropTable precomputedCascade
  | .rename rename => s.applyRenameRelation rename

/-- When a statement is sure not to lead an alias away from a live relation. -/
def TableStatement.AliasSafe (s : AnalysisState) : TableStatement → Prop
  | .createTable create => s.graph.resolveRename create.id.id = create.id.id
  | .dropTable drop precomputedCascade => drop.AliasSafe s precomputedCascade
  | .rename change => change.AliasSafe s

/-- States reached by statements that are all `allowed` in the state they meet. -/
inductive TableRun (text : SqlText) (allowed : AnalysisState → TableStatement → Prop)
    (s : AnalysisState) : AnalysisState → Prop
  | start : TableRun text allowed s s
  | step {t : AnalysisState} {statement : TableStatement} (before : TableRun text allowed s t)
      (here : allowed t statement) :
      TableRun text allowed s (t.applyTableStatement text statement).2

theorem AnalysisState.Unaliased.step {text : SqlText} {statement : TableStatement}
    (h : s.Unaliased) (hsafe : statement.AliasSafe s) :
    (s.applyTableStatement text statement).2.Unaliased := by
  cases statement with
  | createTable create => exact h.createTable hsafe
  | dropTable dropTable precomputedCascade => exact h.dropTable hsafe
  | rename rename => exact h.rename hsafe

theorem unaliased_of_empty (hs : s.graph = .empty) : s.Unaliased := by
  intro id _
  rw [hs]
  exact resolveRename_of_none rfl

theorem TableRun.unaliased {text : SqlText} {t : AnalysisState} (hs : s.graph = .empty)
    (hrun : TableRun text (fun s statement => statement.AliasSafe s) s t) : t.Unaliased := by
  induction hrun with
  | start => exact unaliased_of_empty hs
  | step _ hsafe ih => exact ih.step hsafe

section DropOne

/-- A plain table from which no view, child or partition is reached. -/
structure AnalysisState.IsolatedTable (s : AnalysisState) (id : ObjectId) : Prop where
  isTable : ∃ relation, s.relations.lookup id = some (.present relation) ∧ relation.kind = .table
  isolated : ∀ other, s.CascadeStep id other → other = id

/-- Of all relations, exactly `id` turns into a tombstone. -/
def DropsOnly (id : ObjectId) (s t : AnalysisState) : Prop :=
  t.relations.lookup id = some .dropped ∧
    ∀ k, k ≠ id → t.relations.lookup k = s.relations.lookup k

/-- What the engine passes along with a drop. -/
def AnalysisState.IsEngineCascade (s : AnalysisState) (ids : List ObjectId)
    (precomputedCascade : Option CascadeResult) : Prop :=
  precomputedCascade = none ∨ precomputedCascade = some (s.cascadeForRelations ids)

theorem scanDropTargets_singleton {r : ObjectRef} {ifExists : Bool} {present : List ObjectRef}
    (hr : ∃ relation, s.relations.lookup r.id = some (.present relation) ∧ relation.kind = .table)
    (h : s.scanDropTargets ifExists [r] [] false = .ok (present, false)) : present = [r] := by
  obtain ⟨relation, hlookup, hkind⟩ := hr
  have hfound : s.relationLookup r (· == .table) = .unknown ∨
      s.relationLookup r (· == .table) = .present := by
    unfold relationLookup
    split
    · exact Or.inl rfl
    · rw [hlookup]
      simp [hkind]
  unfold scanDropTargets at h
  rcases hfound with hunknown | hpresent
  · rw [hunknown] at h
    cases ifExists <;> simp [scanDropTargets] at h
  · rw [hpresent] at h
    simpa [scanDropTargets, eq_comm] using h

theorem mem_dropClosure_isolated {id : ObjectId} (hid : s.graph.resolveRename id = id)
    (hisolated : ∀ other, s.CascadeStep id other → other = id) {cascade : Bool}
    {precomputedCascade : Option CascadeResult}
    (hengine : s.IsEngineCascade [id] precomputedCascade) (k : ObjectId) :
    k ∈ (s.dropClosure [id] cascade precomputedCascade).droppedRelations ↔ k = id := by
  cases cascade with
  | false => simp [dropClosure, hid]
  | true =>
    have hclosure : s.dropClosure [id] true precomputedCascade = s.cascadeForRelations [id] := by
      rcases hengine with rfl | rfl <;> rfl
    have hreaches : s.CascadeReaches id k ↔ k = id := by
      rw [CascadeReaches, hid]
      constructor
      · intro h
        induction h with
        | refl => rfl
        | tail _ hstep ih =>
          subst ih
          exact hisolated _ hstep
      · rintro rfl
        exact Relation.ReflTransGen.refl
    rw [hclosure, ← hreaches, ← mem_droppedRelations]
    simp [cascadeForRelations]

/-- Under its own name, an isolated table is dropped alone. -/
theorem AnalysisState.Unaliased.dropsOnly (h : s.Unaliased) {r : ObjectRef}
    (hr : s.IsolatedTable r.id) {ifExists cascade : Bool}
    {precomputedCascade : Option CascadeResult}
    (hengine : s.IsEngineCascade [r.id] precomputedCascade)
    (happlied : (s.applyDropTable ⟨[r], ifExists, cascade⟩ precomputedCascade).1 = .applied) :
    DropsOnly r.id s (s.applyDropTable ⟨[r], ifExists, cascade⟩ precomputedCascade).2 := by
  obtain ⟨relation, hlookup, -⟩ := hr.isTable
  have hid := h r.id (by simp [relationIsPresent, hlookup, Overlay.isPresent])
  rcases applyDropTable_edges isLasting_isRenameTo s ⟨[r], ifExists, cascade⟩ precomputedCascade with
    ⟨-, present, hscan, hdrops⟩ | ⟨hrefused, -⟩
  · obtain rfl := scanDropTargets_singleton hr.isTable hscan
    have hmem := @mem_dropClosure_isolated s r.id hid hr.isolated cascade precomputedCascade hengine
    have hsorted : (sortTargets [r]).map (·.id) = [r.id] := rfl
    rw [hsorted] at hdrops
    constructor
    · rw [hdrops.relations, if_pos ((hmem r.id).mpr rfl)]
    · intro k hk
      rw [hdrops.relations, if_neg fun hdropped => hk ((hmem k).mp hdropped)]
  · exact absurd happlied hrefused

end DropOne

/-- In a run of alias-safe statements every live relation stays what its name
resolves to, so that dropping an isolated table drops that table. -/
theorem tableRun_unaliased {text : SqlText} {t : AnalysisState} (hs : s.graph = .empty)
    (hrun : TableRun text (fun s statement => statement.AliasSafe s) s t) :
    t.Unaliased ∧ ∀ (r : ObjectRef) (ifExists cascade : Bool)
      (precomputedCascade : Option CascadeResult), t.IsolatedTable r.id →
        t.IsEngineCascade [r.id] precomputedCascade →
        (t.applyDropTable ⟨[r], ifExists, cascade⟩ precomputedCascade).1 = .applied →
        DropsOnly r.id t (t.applyDropTable ⟨[r], ifExists, cascade⟩ precomputedCascade).2 := by
  have hunaliased := hrun.unaliased hs
  exact ⟨hunaliased, fun _ _ _ _ hr hengine happlied =>
    hunaliased.dropsOnly hr hengine happlied⟩

section Recreated

/-- The statements below hold no text to read. -/
def textless : SqlText where
  parseDataType declared := ⟨false, false, false, declared, false⟩
  parseTypeReference _ := none
  normalizedConstraintExpression definition := definition
  canonicalPartitionBound bound := bound
  partitionKeys _ := none
  partitionCheckClauses _ _ _ _ := none
  renameColumnSource _ _ _ _ := none
  renamePartitionKeySource _ _ _ _ := none

def publicOnly : AnalysisState :=
  { schemas := AList.singleton "public" (.present ⟨"public", ⟨"", "app"⟩, 0⟩) }

def users : ObjectRef := ⟨⟨"public", "users"⟩, false⟩

def people : ObjectRef := ⟨⟨"public", "people"⟩, false⟩

def createUsers : TableStatement := .createTable { id := users }

def usersToPeople : TableStatement := .rename ⟨users, people⟩

def renamedUsers : AnalysisState :=
  ((publicOnly.applyTableStatement textless createUsers).2.applyTableStatement textless
    usersToPeople).2

def recreatedUsers : AnalysisState := (renamedUsers.applyTableStatement textless createUsers).2

def peopleToUsers : TableStatement := .rename ⟨people, users⟩

def createPeople : TableStatement := .createTable { id := people }

def dropPeople : TableStatement := .dropTable ⟨[people], false, false⟩ none

/-- `users` has its name back, and `people` is a table of its own. -/
def besidePeople : AnalysisState :=
  ((renamedUsers.applyTableStatement textless peopleToUsers).2.applyTableStatement textless
    createPeople).2

def withoutPeople : AnalysisState := (besidePeople.applyTableStatement textless dropPeople).2

/-- The drop cuts the cycle of names, with the alias that starts at `users`. -/
theorem dropPeople_aliasSafe : dropPeople.AliasSafe besidePeople := by
  have hscan : besidePeople.scanDropTargets false [people] [] false = .ok ([people], false) := rfl
  have hlost : ∀ id ∈ besidePeople.relations.keys, besidePeople.relationIsPresent id = true →
      id ∉ (besidePeople.dropClosure [people.id] false none).droppedRelations →
        ∀ e ∈ besidePeople.graph.aliases, e.dependent = id →
          besidePeople.aliasSurvives (besidePeople.dropClosure [people.id] false none) e = false := by
    decide +kernel
  show DropTable.AliasSafe besidePeople ⟨[people], false, false⟩ none
  unfold DropTable.AliasSafe
  rw [hscan]
  exact fun id hkeys hpresent hkept => Or.inl (hlost id hkeys hpresent hkept)

theorem withoutPeople_dropsOnly :
    DropsOnly users.id withoutPeople (withoutPeople.applyDropTable ⟨[users], false, true⟩ none).2 := by
  have hrun : TableRun textless (fun s statement => statement.AliasSafe s) publicOnly withoutPeople := by
    refine .step (.step (.step (.step (.step .start ?_) ?_) ?_) ?_) dropPeople_aliasSafe
    · exact (rfl : publicOnly.graph.resolveRename users.id = users.id)
    · exact ⟨fun _ => Or.inl (by decide +kernel), by decide +kernel⟩
    · exact ⟨fun _ => Or.inr (by decide +kernel), by decide +kernel⟩
    · show (renamedUsers.applyTableStatement textless peopleToUsers).2.graph.resolveRename
        people.id = people.id
      decide +kernel
  have hedges : withoutPeople.graph.edges = [] := by decide +kernel
  refine (tableRun_unaliased rfl hrun).2 users false true none ⟨?_, ?_⟩ (Or.inl rfl)
    (by decide +kernel)
  · exact ⟨_, rfl, rfl⟩
  · rintro other ⟨e, he, -⟩
    rw [hedges] at he
    cases he

/-- `users` is renamed to `people` and created anew: its name still resolves to
`people`, and dropping `users` drops `people`. -/
theorem recreatedUsers_captured :
    publicOnly.graph = .empty ∧
    TableRun textless (fun _ _ => True) publicOnly recreatedUsers ∧
    recreatedUsers.relationIsPresent users.id = true ∧
    recreatedUsers.graph.resolveRename users.id = people.id ∧
    ¬recreatedUsers.Unaliased ∧
    (recreatedUsers.applyDropTable ⟨[users], false, false⟩ none).1 = .applied ∧
    (recreatedUsers.applyDropTable ⟨[users], false, false⟩ none).2.relationIsPresent
      users.id = true ∧
    (recreatedUsers.applyDropTable ⟨[users], false, false⟩ none).2.relationIsPresent
      people.id = false := by
  have hpresent : recreatedUsers.relationIsPresent users.id = true := by decide +kernel
  have hresolve : recreatedUsers.graph.resolveRename users.id = people.id := by decide +kernel
  have hcaptured : ¬recreatedUsers.Unaliased := by
    intro h
    have hself := h users.id hpresent
    rw [hresolve] at hself
    revert hself
    decide
  exact ⟨rfl, .step (.step (.step .start trivial) trivial) trivial, hpresent, hresolve, hcaptured,
    by decide +kernel, by decide +kernel, by decide +kernel⟩

end Recreated

end SafeMigrate
