import SafeMigrate.DefaultPartitions
import SafeMigrate.LiveAliases

/-! Runs of the statements that change the partitions of a table: in which of
them the predicates stored on default partitions stay current. -/

namespace SafeMigrate

open Command AnalysisState SiblingCache

inductive PartitionStatement
  | createTable (create : CreateTable)
  | alterTable (alter : AlterPartition)
  | dropTable (dropTable : DropTable) (precomputedCascade : Option CascadeResult)

namespace AnalysisState

def applyPartitionStatement (s : AnalysisState) (text : PartitionText) :
    PartitionStatement → MutationResult × AnalysisState
  | .createTable create => s.applyCreateTable text.toSqlText create
  | .alterTable alter => s.applyAlterPartition text alter
  | .dropTable dropTable precomputedCascade => s.applyDropTable dropTable precomputedCascade

/-- No relation is a partition of two parents. -/
def OneParent (s : AnalysisState) : Prop :=
  ∀ e ∈ s.graph.edges, ∀ e' ∈ s.graph.edges, e.kind = .partitionOf → e'.kind = .partitionOf →
    e.dependent = e'.dependent → e.referenced = e'.referenced

/-- Whether the bound of a partition has a predicate under its parent. -/
def rendersUnderParent (s : AnalysisState) (text : SqlText) (e : DependencyEdge) : Bool :=
  ((s.presentRelation e.referenced).bind fun parent => parent.partitionType.bind fun strategy =>
    (s.partitionKeyColumns text e.referenced).bind fun keys =>
      s.siblingPredicate text strategy keys e).isSome

/-- Whether a partition is the default and has a predicate stored. -/
def storesDefaultPredicate (s : AnalysisState) (e : DependencyEdge) : Bool :=
  (s.presentRelation e.dependent).any fun relation =>
    relation.partitionBound.any isDefaultBound && relation.partitionConstraint.isSome

/-- No default partition of `parent` has a predicate stored. -/
def NoStoredDefault (s : AnalysisState) (parent : ObjectId) : Prop :=
  ∀ e ∈ s.graph.edges, e.kind = .partitionOf → e.referenced = parent →
    s.storesDefaultPredicate e = false

end AnalysisState

/-- The name is new, or is refused, and the bound of the new partition enters
no predicate that a default sibling stores. -/
def CreateTable.SparesDefaults (text : SqlText) (s : AnalysisState) (create : CreateTable) : Prop :=
  s.relationIsPresent create.id.id = true ∨
    (∀ e ∈ s.graph.edges, e.kind = .partitionOf → e.dependent ≠ create.id.id) ∧
      ∀ parent bound, create.partitionOf = some parent → create.partitionBound = some bound →
        isDefaultBound (text.canonicalPartitionBound bound) = true ∨ s.NoStoredDefault parent.id ∨
          ∀ relation strategy keys, s.presentRelation parent.id = some relation →
            relation.partitionType = some strategy →
              s.partitionKeyColumns text parent.id = some keys → ∀ made,
                text.partitionCheckClauses strategy (text.canonicalPartitionBound bound) keys made =
                  none

/-- An attachment refreshes the default partitions. A detached partition must
have entered no predicate that is stored. -/
def AlterPartition.SparesDefaults (text : SqlText) (s : AnalysisState) (alter : AlterPartition) :
    Prop :=
  match alter.action with
  | .attachPartition .. => True
  | .detachPartition child _ =>
    (∀ e ∈ s.graph.edges, e.kind = .partitionOf → e.dependent ∉ s.triggers.keys) ∧
      ∀ e ∈ s.graph.edges, e.kind = .partitionOf → e.dependent = child.id →
        s.rendersUnderParent text e = true → s.NoStoredDefault e.referenced

/-- A default partition that survives with its predicate keeps its parent and
every sibling that entered the predicate. -/
def DropTable.SparesDefaults (text : SqlText) (s : AnalysisState) (dropTable : DropTable)
    (precomputedCascade : Option CascadeResult) : Prop :=
  match s.scanDropTargets dropTable.ifExists dropTable.ids [] false with
  | .ok (present, false) =>
    let dropped := s.dropClosure ((sortTargets present).map (·.id)) dropTable.cascade
      precomputedCascade
    ∀ e ∈ s.graph.edges, e.kind = .partitionOf → s.aliasSurvives dropped e = true →
      e.dependent ∉ dropped.droppedRelations → s.storesDefaultPredicate e = true →
        e.referenced ∉ dropped.droppedRelations ∧ ∀ e' ∈ s.graph.edges, e'.kind = .partitionOf →
          e'.referenced = e.referenced → s.rendersUnderParent text e' = true →
            s.aliasSurvives dropped e' = true ∧ e'.dependent ∉ dropped.droppedRelations
  | _ => True

def PartitionStatement.SparesDefaults (text : SqlText) (s : AnalysisState) :
    PartitionStatement → Prop
  | .createTable create => create.SparesDefaults text s
  | .alterTable alter => alter.SparesDefaults text s
  | .dropTable drop precomputedCascade => drop.SparesDefaults text s precomputedCascade

section Translation

variable {text : SqlText} {clauses : CheckClauses} {s t : AnalysisState}

theorem oneParent_iff : s.OneParent ↔ s.partitions.OneOwner := by
  constructor
  · intro h member owner owner' hlink hlink'
    obtain ⟨e, he, hkind, heq⟩ := mem_links.mp hlink
    obtain ⟨e', he', hkind', heq'⟩ := mem_links.mp hlink'
    obtain ⟨rfl, rfl⟩ := Prod.mk.inj heq
    obtain ⟨hmember, rfl⟩ := Prod.mk.inj heq'
    exact h e he e' he' (isPartitionOf_iff.mp hkind) (isPartitionOf_iff.mp hkind') hmember.symm
  · intro h e he e' he' hkind hkind' hmember
    exact h e.dependent e.referenced e'.referenced
      (mem_links.mpr ⟨e, he, isPartitionOf_iff.mpr hkind, rfl⟩)
      (mem_links.mpr ⟨e', he', isPartitionOf_iff.mpr hkind', by rw [hmember]⟩)

theorem contributionOf_none_iff (htext : text.ReadsColumns clauses) {e : DependencyEdge} :
    (partitionScheme text clauses).contributionOf s.partitions (e.dependent, e.referenced) = none ↔
      s.rendersUnderParent text e = false := by
  unfold rendersUnderParent
  cases hparent : s.presentRelation e.referenced with
  | none =>
    rw [Scheme.contributionOf_of_absent (by simp [partitions, hparent])]
    simp
  | some parent => rw [contributionOf_eq htext hparent]; simp

theorem storesDefaultPredicate_iff {e : DependencyEdge} : s.storesDefaultPredicate e = true ↔
    (s.partitions.shape e.dependent).any PartitionShape.isDefault = true ∧
      ∃ value, s.partitions.cache e.dependent = some value := by
  unfold storesDefaultPredicate
  cases hrelation : s.presentRelation e.dependent with
  | none => simp [partitions, hrelation]
  | some relation =>
    simp [partitions, hrelation, PartitionShape.isDefault, RelationState.partitionShape,
      Option.isSome_iff_exists]

theorem AnalysisState.NoStoredDefault.families {parent : ObjectId} (h : s.NoStoredDefault parent) :
    NoDefaultPredicate s.partitions parent := by
  intro member hlink hdefault
  obtain ⟨e, he, hkind, heq⟩ := mem_links.mp hlink
  obtain ⟨rfl, hparent⟩ := Prod.mk.inj heq
  have hnot := h e he (isPartitionOf_iff.mp hkind) hparent
  cases hcache : s.partitions.cache e.dependent with
  | none => rfl
  | some value =>
    have hstores := storesDefaultPredicate_iff.mpr ⟨hdefault, value, hcache⟩
    rw [hstores] at hnot
    cases hnot

end Translation

/-- What a run keeps of the partitions. -/
structure AnalysisState.PartitionsInOrder (text : SqlText) (s : AnalysisState) : Prop where
  oneParent : s.OneParent
  current : s.DefaultsCurrent text

section Steps

variable {text : PartitionText} {clauses : CheckClauses} {s : AnalysisState}

/-- A new partition whose bound has no predicate enters none. -/
theorem CreateTable.BuildsPartition.silent (htext : text.ReadsColumns clauses) {create : CreateTable}
    {G : Family ObjectId PartitionShape String}
    (h : create.BuildsPartition text.toSqlText clauses s.partitions G) {parent : ObjectId}
    (hparent : parent ≠ create.id.id)
    (hbound : ∀ bound, create.partitionBound = some bound →
      isDefaultBound (text.canonicalPartitionBound bound) = true ∨
        ∀ relation strategy keys, s.presentRelation parent = some relation →
          relation.partitionType = some strategy →
            s.partitionKeyColumns text.toSqlText parent = some keys → ∀ made,
              text.partitionCheckClauses strategy (text.canonicalPartitionBound bound) keys made =
                none) :
    (partitionScheme text.toSqlText clauses).contributionOf G (create.id.id, parent) = none := by
  obtain ⟨made, hmade, hshape⟩ := h.shape
  unfold Scheme.contributionOf
  rw [hshape, Function.update_of_ne hparent, Function.update_self]
  cases hrelation : s.presentRelation parent with
  | none => simp [partitions, hrelation]
  | some relation =>
    have hkeys : s.partitionKeyColumns text.toSqlText parent =
        relation.partitionShape.keyColumns text.toSqlText := by
      rw [partitionKeyColumns, hrelation]
      rfl
    have hshapeOf : s.partitions.shape parent = some relation.partitionShape := by
      simp [partitions, hrelation]
    rw [hshapeOf]
    show memberPredicate text.toSqlText clauses relation.partitionShape made = none
    unfold memberPredicate
    have htype : relation.partitionShape.partitionType = relation.partitionType := rfl
    rw [htype, hmade]
    cases hstrategy : relation.partitionType with
    | none => rfl
    | some strategy =>
      cases hkeyColumns : relation.partitionShape.keyColumns text.toSqlText with
      | none => rfl
      | some keys =>
        cases hwritten : create.partitionBound with
        | none => rfl
        | some bound =>
          show (if isDefaultBound (text.canonicalPartitionBound bound) = true then none
            else (clauses strategy (text.canonicalPartitionBound bound) keys made.columns).map
              joinedClauses) = none
          rcases hbound bound hwritten with hdefault | hnone
          · rw [if_pos hdefault]
          · have hclauses := hnone relation strategy keys hrelation hstrategy
              (hkeys.trans hkeyColumns) { relation with columns := made.columns }
            rw [htext] at hclauses
            rw [hclauses]
            simp

theorem AnalysisState.PartitionsInOrder.createTable (htext : text.ReadsColumns clauses)
    (h : s.PartitionsInOrder text.toSqlText) {create : CreateTable}
    (hspared : create.SparesDefaults text.toSqlText s) :
    (s.applyCreateTable text.toSqlText create).2.PartitionsInOrder text.toSqlText := by
  have hcurrent := (defaultsCurrent_iff htext).mp h.current
  have hone := oneParent_iff.mp h.oneParent
  have hbuilds : create.BuildsIfFree text.toSqlText clauses s.partitions
      (s.applyCreateTable text.toSqlText create).2.partitions :=
    (create.command_partitions htext).outcome s
  rcases hbuilds with hsame | ⟨hfree, hbuilds⟩
  · exact ⟨oneParent_iff.mpr (hsame ▸ hone), (defaultsCurrent_iff htext).mpr (hsame ▸ hcurrent)⟩
  · rcases hspared with hpresent | ⟨hunlinked, hbounds⟩
    · -- the name was taken
      obtain ⟨relation, hrelation⟩ : ∃ relation, s.presentRelation create.id.id = some relation := by
        unfold relationIsPresent at hpresent
        unfold presentRelation
        cases hlookup : s.relations.lookup create.id.id with
        | none =>
          rw [hlookup] at hpresent
          cases hpresent
        | some overlay =>
          rw [hlookup] at hpresent
          cases overlay with
          | dropped => cases hpresent
          | present relation => exact ⟨relation, rfl⟩
      simp [partitions, hrelation] at hfree
    · have hunlinkedFamilies (owner : ObjectId) : (create.id.id, owner) ∉ s.partitions.links := by
        intro hlink
        obtain ⟨e, he, hkind, heq⟩ := mem_links.mp hlink
        exact hunlinked e he (isPartitionOf_iff.mp hkind) (Prod.mk.inj heq).1
      refine ⟨oneParent_iff.mpr (hbuilds.oneOwner hone hunlinkedFamilies),
        (defaultsCurrent_iff htext).mpr (hbuilds.current hcurrent hfree hunlinkedFamilies
          fun parent hparent => ?_)⟩
      obtain ⟨ref, href, rfl⟩ := Option.map_eq_some_iff.mp hparent
      by_cases hself : ref.id = create.id.id
      · -- no default partition of an absent table caches a predicate
        refine Or.inl fun member hlink hdefault => ?_
        cases hcached : s.partitions.cache member with
        | none => rfl
        | some value =>
          refine absurd (hcurrent (member, ref.id) hlink hdefault value hcached) ?_
          exact aggregate_ne_of_absent (hself ▸ hfree)
      · by_cases hstored : s.NoStoredDefault ref.id
        · exact Or.inl hstored.families
        · refine Or.inr (hbuilds.silent htext hself fun bound hbound => ?_)
          rcases hbounds ref bound href hbound with hdefault | hnone | hclauses
          · exact Or.inl hdefault
          · exact absurd hnone hstored
          · exact Or.inr hclauses

theorem AnalysisState.PartitionsInOrder.alterTable (htext : text.ReadsColumns clauses)
    (h : s.PartitionsInOrder text.toSqlText) {alter : AlterPartition}
    (hspared : alter.SparesDefaults text.toSqlText s) :
    (s.applyAlterPartition text alter).2.PartitionsInOrder text.toSqlText := by
  have hcurrent := (defaultsCurrent_iff htext).mp h.current
  have hone := oneParent_iff.mp h.oneParent
  have heffect : alter.Effect text.toSqlText clauses (AlterPartition.view s)
      (AlterPartition.view (s.applyAlterPartition text alter).2) :=
    (AlterPartition.command_effect htext).outcome s
  unfold AlterPartition.Effect at heffect
  unfold AlterPartition.SparesDefaults at hspared
  rcases heffect with hsame | heffect
  · have hsame' : (s.applyAlterPartition text alter).2.partitions = s.partitions := hsame
    exact ⟨oneParent_iff.mpr (hsame' ▸ hone), (defaultsCurrent_iff htext).mpr (hsame' ▸ hcurrent)⟩
  · cases haction : alter.action with
    | attachPartition child strategy bound =>
      rw [haction] at heffect
      obtain ⟨hfree, hattaches⟩ := heffect
      exact ⟨oneParent_iff.mpr (hattaches.oneOwner hone hfree),
        (defaultsCurrent_iff htext).mpr (hattaches.current hone hcurrent hfree)⟩
    | detachPartition child mode =>
      rw [haction] at heffect hspared
      obtain ⟨clones, hclones, hdetaches⟩ := heffect
      obtain ⟨hkeys, hentered⟩ := hspared
      refine ⟨oneParent_iff.mpr (hdetaches.oneOwner hone),
        (defaultsCurrent_iff htext).mpr (hdetaches.current hcurrent ?_ fun parent hlink => ?_)⟩
      · intro link hlink hclone
        obtain ⟨e, he, hkind, rfl⟩ := mem_links.mp hlink
        exact hkeys e he (isPartitionOf_iff.mp hkind) (hclones _ hclone)
      · obtain ⟨e, he, hkind, heq⟩ := mem_links.mp hlink
        obtain ⟨hchild, rfl⟩ := Prod.mk.inj heq
        cases hrenders : s.rendersUnderParent text.toSqlText e with
        | false =>
          refine Or.inr ?_
          rw [← hchild]
          exact (contributionOf_none_iff htext).mpr hrenders
        | true => exact Or.inl (hentered e he (isPartitionOf_iff.mp hkind) hchild hrenders).families

theorem isLasting_isPartitionOf : IsLasting DependencyKind.isPartitionOf :=
  fun _ h => Or.inr (isPartitionOf_iff.mp h)

theorem drops_of_dropsEdges {t : AnalysisState} {dropped : CascadeResult}
    (h : DropsEdges DependencyKind.isPartitionOf s dropped t) :
    Drops dropped.droppedRelations
      (fun link => s.aliasSurvives dropped ⟨link.1, link.2, .partitionOf⟩) s.partitions
      t.partitions := by
  have hpresent (k : ObjectId) : t.presentRelation k =
      if k ∈ dropped.droppedRelations then none else s.presentRelation k := by
    by_cases hk : k ∈ dropped.droppedRelations
    · rw [if_pos hk, presentRelation, h.relations, if_pos hk]
    · rw [if_neg hk]
      exact presentRelation_congr (by rw [h.relations, if_neg hk])
  refine ⟨?_, fun k => ?_, fun k value hvalue => ?_⟩
  · unfold partitions
    rw [h.edges, List.filter_map]
    rfl
  · by_cases hk : k ∈ dropped.droppedRelations
    · simp [partitions, hpresent, hk]
    · simp [partitions, hpresent, hk]
  · by_cases hk : k ∈ dropped.droppedRelations
    · simp [partitions, hpresent, hk] at hvalue
    · simpa [partitions, hpresent, hk] using hvalue

theorem AnalysisState.PartitionsInOrder.dropTable (htext : text.ReadsColumns clauses)
    (h : s.PartitionsInOrder text.toSqlText) {dropTable : DropTable}
    {precomputedCascade : Option CascadeResult}
    (hspared : dropTable.SparesDefaults text.toSqlText s precomputedCascade) :
    (s.applyDropTable dropTable precomputedCascade).2.PartitionsInOrder text.toSqlText := by
  have hcurrent := (defaultsCurrent_iff htext).mp h.current
  have hone := oneParent_iff.mp h.oneParent
  rcases applyDropTable_edges isLasting_isPartitionOf s dropTable precomputedCascade with
    ⟨-, present, hscan, hdrops⟩ | ⟨-, hsame⟩
  · unfold DropTable.SparesDefaults at hspared
    rw [hscan] at hspared
    have hfamilies := drops_of_dropsEdges hdrops
    refine ⟨oneParent_iff.mpr (hfamilies.oneOwner hone), (defaultsCurrent_iff htext).mpr
      (hfamilies.current hcurrent fun member parent value hlink hkeep hmember hdefault hcached => ?_)⟩
    obtain ⟨e, he, hkind, heq⟩ := mem_links.mp hlink
    obtain ⟨rfl, rfl⟩ := Prod.mk.inj heq
    obtain ⟨hparent, hsiblings⟩ := hspared e he (isPartitionOf_iff.mp hkind) hkeep hmember
      (storesDefaultPredicate_iff.mpr ⟨hdefault, value, hcached⟩)
    refine ⟨hparent, fun link hsibling howner => ?_⟩
    obtain ⟨e', he', hkind', rfl⟩ := mem_links.mp hsibling
    cases hrenders : s.rendersUnderParent text.toSqlText e' with
    | false => exact Or.inl ((contributionOf_none_iff htext).mpr hrenders)
    | true => exact Or.inr (hsiblings e' he' (isPartitionOf_iff.mp hkind') howner hrenders)
  · have hpartitions : SamePartitions s (s.applyDropTable dropTable precomputedCascade).2 :=
      samePartitions_of_eq hsame.relations hsame.edges
    exact ⟨oneParent_iff.mpr (hpartitions ▸ hone),
      (defaultsCurrent_iff htext).mpr (hpartitions ▸ hcurrent)⟩

theorem AnalysisState.PartitionsInOrder.step (htext : text.ReadsColumns clauses)
    (h : s.PartitionsInOrder text.toSqlText) {statement : PartitionStatement}
    (hspared : statement.SparesDefaults text.toSqlText s) :
    (s.applyPartitionStatement text statement).2.PartitionsInOrder text.toSqlText := by
  cases statement with
  | createTable create => exact h.createTable htext hspared
  | alterTable alter => exact h.alterTable htext hspared
  | dropTable dropTable precomputedCascade => exact h.dropTable htext hspared

end Steps

/-- States reached by statements that are all `allowed` in the state they meet. -/
inductive PartitionRun (text : PartitionText)
    (allowed : AnalysisState → PartitionStatement → Prop) (s : AnalysisState) : AnalysisState → Prop
  | start : PartitionRun text allowed s s
  | step {t : AnalysisState} {statement : PartitionStatement}
      (before : PartitionRun text allowed s t) (here : allowed t statement) :
      PartitionRun text allowed s (t.applyPartitionStatement text statement).2

/-- In a run of statements that spare the stored predicates, these stay what
the partitions of the parent synthesize. -/
theorem partitionRun_defaultsCurrent {text : PartitionText} {clauses : CheckClauses}
    (htext : text.ReadsColumns clauses) {s t : AnalysisState}
    (hs : s.PartitionsInOrder text.toSqlText)
    (hrun : PartitionRun text (fun s statement => statement.SparesDefaults text.toSqlText s) s t) :
    t.DefaultsCurrent text.toSqlText := by
  have horder : t.PartitionsInOrder text.toSqlText := by
    induction hrun with
    | start => exact hs
    | step _ hspared ih => exact ih.step htext hspared
  exact horder.current

section ListPartitions

/-- The clauses of the two bounds below under a key column `a`. -/
def inValueClauses : String → Option (List String)
  | "FOR VALUES IN (1)" => some ["(a IS NOT NULL)", "(a = 1)"]
  | "FOR VALUES IN (2)" => some ["(a IS NOT NULL)", "(a = 2)"]
  | _ => none

def listClauses : CheckClauses := fun strategy bound keys _ =>
  if strategy = "LIST" ∧ keys = [("a", "a")] then inValueClauses bound else none

/-- The readings that the statements below ask for. -/
def listText : PartitionText where
  parseDataType declared := ⟨true, true, false, declared, false⟩
  parseTypeReference _ := none
  normalizedConstraintExpression definition := definition
  canonicalPartitionBound bound := bound
  partitionKeys _ := none
  partitionCheckClauses strategy bound keys relation :=
    listClauses strategy bound keys relation.columns
  renameColumnSource _ _ _ _ := none
  renamePartitionKeySource _ _ _ _ := none
  sameTypeIdentity left right := some (left == right)
  foldListPartitionPredicate _ _ := none
  selectedColumns _ := none

def publicTable (name : String) : ObjectRef := ⟨⟨"public", name⟩, false⟩

def integerColumn : ColumnMutation := { name := "a", ty := some "integer" }

def createListed : PartitionStatement := .createTable
  { id := publicTable "listed", columns := [integerColumn], partitionKeys := [("a", "a")],
    partitionStrategy := some "list", partitionBy := some "PARTITION BY LIST (a)" }

def createPartitionOfListed (name bound : String) : PartitionStatement := .createTable
  { id := publicTable name, partitionOf := some (publicTable "listed"), partitionBound := some bound }

def createSecond : PartitionStatement := .createTable
  { id := publicTable "second", columns := [integerColumn] }

def attachSecond : PartitionStatement := .alterTable
  ⟨publicTable "listed", .attachPartition (publicTable "second") none (some "FOR VALUES IN (2)")⟩

/-- A table with one partition and the default partition created after it. -/
def withDefault : AnalysisState :=
  let s := (publicOnly.applyPartitionStatement listText createListed).2
  let s := (s.applyPartitionStatement listText
    (createPartitionOfListed "first" "FOR VALUES IN (1)")).2
  (s.applyPartitionStatement listText (createPartitionOfListed "rest" "DEFAULT")).2

def withSecondAttached : AnalysisState :=
  let s := (withDefault.applyPartitionStatement listText createSecond).2
  (s.applyPartitionStatement listText attachSecond).2

def withSecondCreated : AnalysisState :=
  (withDefault.applyPartitionStatement listText
    (createPartitionOfListed "second" "FOR VALUES IN (2)")).2

def storedOnRest (s : AnalysisState) : Option String :=
  (s.presentRelation (publicTable "rest").id).bind (·.partitionConstraint)

theorem partitionsInOrder_of_empty {text : SqlText} {s : AnalysisState} (hs : s.graph = .empty) :
    s.PartitionsInOrder text := by
  constructor
  · intro e he
    rw [hs] at he
    cases he
  · intro e he
    rw [hs] at he
    cases he

/-- An attached partition enters the predicate that the default one stores. -/
theorem withSecondAttached_current : withSecondAttached.DefaultsCurrent listText.toSqlText ∧
    storedOnRest withSecondAttached = some
      "(NOT (((a IS NOT NULL) AND ((a = 1))) OR ((a IS NOT NULL) AND ((a = 2)))))" := by
  have htext : listText.ReadsColumns listClauses := fun _ _ _ _ => rfl
  refine ⟨partitionRun_defaultsCurrent htext (partitionsInOrder_of_empty rfl)
    (.step (.step (.step (.step (.step .start ?_) ?_) ?_) ?_) ?_), by decide +kernel⟩
  · refine Or.inr ⟨by decide +kernel, ?_⟩
    rintro parent bound ⟨⟩
  · refine Or.inr ⟨by decide +kernel, ?_⟩
    rintro parent bound ⟨⟩ ⟨⟩
    exact Or.inr (Or.inl (by unfold AnalysisState.NoStoredDefault; decide +kernel))
  · refine Or.inr ⟨by decide +kernel, ?_⟩
    rintro parent bound ⟨⟩ ⟨⟩
    exact Or.inl (by decide +kernel)
  · refine Or.inr ⟨by decide +kernel, ?_⟩
    rintro parent bound ⟨⟩
  · exact trivial

/-- A partition created after the default one leaves the stored predicate as it
was, although it is synthesized differently now. -/
theorem withSecondCreated_stale :
    PartitionRun listText (fun _ _ => True) publicOnly withSecondCreated ∧
    publicOnly.PartitionsInOrder listText.toSqlText ∧
    storedOnRest withSecondCreated = some "(NOT ((a IS NOT NULL) AND ((a = 1))))" ∧
    withSecondCreated.synthesizeDefaultPartitionConstraint listText.toSqlText
      (publicTable "listed").id = some
        "(NOT (((a IS NOT NULL) AND ((a = 1))) OR ((a IS NOT NULL) AND ((a = 2)))))" ∧
    ¬withSecondCreated.DefaultsCurrent listText.toSqlText := by
  have hstored : storedOnRest withSecondCreated = some "(NOT ((a IS NOT NULL) AND ((a = 1))))" := by
    decide +kernel
  have hsynthesized : withSecondCreated.synthesizeDefaultPartitionConstraint listText.toSqlText
      (publicTable "listed").id = some
        "(NOT (((a IS NOT NULL) AND ((a = 1))) OR ((a IS NOT NULL) AND ((a = 2)))))" := by
    decide +kernel
  refine ⟨.step (.step (.step (.step .start trivial) trivial) trivial) trivial,
    partitionsInOrder_of_empty rfl, hstored, hsynthesized, fun hcurrent => ?_⟩
  obtain ⟨relation, hrelation, hconstraint⟩ := Option.bind_eq_some_iff.mp hstored
  have hdefault : (withSecondCreated.presentRelation (publicTable "rest").id).any
      (fun relation => relation.partitionBound.any isDefaultBound) = true := by decide +kernel
  rw [hrelation, Option.any_some] at hdefault
  rcases hcurrent ⟨(publicTable "rest").id, (publicTable "listed").id, .partitionOf⟩
    (by decide +kernel) rfl relation hrelation hdefault with hnone | hsame
  · rw [hnone] at hconstraint
    cases hconstraint
  · rw [hconstraint, hsynthesized] at hsame
    revert hsame
    decide

end ListPartitions

end SafeMigrate
