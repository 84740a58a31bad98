import SafeMigrate.PartitionAttachment
import SafeMigrate.PartitionCreation

/-! Predicates of default partitions over runs of `CREATE TABLE`, `ATTACH` and
`DETACH PARTITION`, and `DROP TABLE`: which statements keep them current. -/

namespace SafeMigrate

open Command AnalysisState SiblingCache

namespace AlterPartition

section Checks

variable {R : AnalysisState → AnalysisState → Prop} [KeepsEvidence R] {text : PartitionText}
  {alter : AlterPartition}

theorem keeps_checkTarget : Keeps R alter.checkTarget := by
  refine Keeps.bind Keeps.get fun s => ?_
  split
  · exact keeps_refuse _
  · exact keeps_refuse _
  · exact keeps_refuse _
  · exact keeps_leaveUnresolved _
  · split
    · exact keeps_leaveUnresolved _
    · exact keeps_refuseIf _ _

theorem keeps_checkChild (child : ObjectRef) : Keeps R (checkChild child) :=
  keeps_ensureRelationTarget _ _ _ _

theorem keeps_checkAttach (child : ObjectRef) (strategy : Option String) :
    Keeps R (alter.checkAttach text child strategy) := by
  refine Keeps.bind (keeps_checkChild child) fun _ => Keeps.bind Keeps.get fun s => ?_
  split
  · exact keeps_refuse _
  · refine Keeps.bind (keeps_refuseIf _ _) fun _ => Keeps.bind (keeps_refuseIf _ _) fun _ =>
      Keeps.bind (keeps_refuseFound _ _) fun _ => ?_
    split
    · exact Keeps.pure _
    · exact keeps_taint _ _
    · exact keeps_refuse _

theorem keeps_checkDetach (child : ObjectRef) (mode : DetachPartitionMode) :
    Keeps R (alter.checkDetach child mode) :=
  Keeps.bind Keeps.get fun _ => Keeps.bind (keeps_refuseFound _ _) fun _ =>
    Keeps.bind (keeps_checkChild child) fun _ => Keeps.bind Keeps.get fun _ => keeps_refuseIf _ _

end Checks

abbrev TriggerMap := KeyedMap ObjectId TriggerOverlay

/-- The families, and the triggers whose clones a detach removes. -/
def view (s : AnalysisState) : Family ObjectId PartitionShape String × TriggerMap :=
  (s.partitions, s.triggers)

def SameView (s t : AnalysisState) : Prop := view t = view s

theorem SameView.of_parts {s t : AnalysisState} (hp : SamePartitions s t) (ht : SameTriggers s t) :
    SameView s t := by
  rw [SameView, view, view, hp, ht]

instance : KeepsEvidence SameView where
  refl _ := rfl
  trans _ _ _ h h' := Eq.trans h' h
  taint s code scope := .of_parts (KeepsEvidence.taint s code scope) (s.taint_triggers code scope)

/-- What the statement makes of the families if it does not end early. -/
def Effect (text : SqlText) (clauses : CheckClauses) (alter : AlterPartition)
    (x y : Family ObjectId PartitionShape String × TriggerMap) : Prop :=
  y.1 = x.1 ∨ match alter.action with
    | .attachPartition child _ _ => (∀ owner, (child.id, owner) ∉ x.1.links) ∧
        Attaches text clauses alter.id.id child.id x.1 y.1
    | .detachPartition child _ => ∃ clones : List ObjectId, (∀ k ∈ clones, k ∈ x.2.keys) ∧
        Detaches child.id clones x.1 y.1

variable {text : PartitionText} {clauses : CheckClauses} {alter : AlterPartition}

/-- A child that passes the checks has no parent yet. -/
theorem checkAttach_free {child : ObjectRef} {strategy : Option String} {s t : AnalysisState}
    {a : Unit} (h : (alter.checkAttach text child strategy).run.run s = (.ok a, t)) (owner : ObjectId) :
    (child.id, owner) ∉ s.partitions.links := by
  obtain ⟨_, u, hchild, h⟩ := exists_run_of_bind h
  have hsame : SamePartitions s u := by
    have hkeeps := keeps_checkChild (R := SamePartitions) child s
    rwa [Command.after, hchild] at hkeeps
  obtain ⟨s', u', hget, h⟩ := exists_run_of_bind h
  cases hget
  split at h
  · cases h
  · obtain ⟨_, v, hstrategy, h⟩ := exists_run_of_bind h
    obtain ⟨_, w, hcycle, h⟩ := exists_run_of_bind h
    obtain ⟨_, x, hfound, h⟩ := exists_run_of_bind h
    have hnone : (u.graph.edges.find? fun e =>
        e.kind.isPartition && e.dependent == child.id) = none := by
      cases hfind : u.graph.edges.find? fun e => e.kind.isPartition && e.dependent == child.id with
      | none => rfl
      | some e =>
        rw [hfind] at hfound
        cases hfound
    intro hlink
    rw [← hsame] at hlink
    obtain ⟨e, he, hkind, hends⟩ := mem_links.mp hlink
    obtain ⟨hdependent, -⟩ := Prod.mk.inj hends
    have hno := List.find?_eq_none.mp hnone e he
    rw [isPartitionOf_iff.mp hkind, hdependent] at hno
    simp [DependencyKind.isPartition] at hno

theorem attach_effect (htext : text.ReadsColumns clauses) (child : ObjectRef) (bound : Option String) :
    Keeps (fun s t => SamePartitions s t ∨ Attaches text.toSqlText clauses alter.id.id child.id
      s.partitions t.partitions) (alter.attach text child bound) := by
  have hrefl (F : Family ObjectId PartitionShape String) :
      F = F ∨ Attaches text.toSqlText clauses alter.id.id child.id F F := Or.inl rfl
  have hsnapshot : Keeps SamePartitions
      (modify fun s => s.snapshotRelation alter.id.id : Statement PUnit) :=
    Keeps.modify fun s => samePartitions_pushUndo s _
  refine Keeps.bind_unread (P := fun F G => G = F ∨ Attaches text.toSqlText clauses alter.id.id
    child.id F G) hrefl hsnapshot fun _ => ?_
  refine Keeps.bind_unread (P := fun F G => G = F ∨ Attaches text.toSqlText clauses alter.id.id
    child.id F G) hrefl Keeps.get fun s => ?_
  refine Keeps.bind_unread (P := fun F G => G = F ∨ Attaches text.toSqlText clauses alter.id.id
    child.id F G) hrefl (keeps_refuseIf _ _) fun _ => ?_
  -- cloning the triggers of the parent is of no concern to the families
  have hrest : Keeps SamePartitions (cloneRowTriggersToPartition alter.id.id child >>= fun _ =>
      (pure .applied : Statement MutationResult)) := by
    have hwrites : KeepsObjectWrites child.id none (LinksGrow child.id none) :=
      keepsObjectWrites_linksGrow
    exact ((hwrites.cloneRowTriggersToPartition alter.id.id rfl).bind fun _ => Keeps.pure _).mono
      fun _ _ h => h.same
  intro s
  have hsame := hrest (s.attachPartition text alter.id.id child.id bound)
  refine Or.inr ?_
  rw [after_modify_bind, hsame]
  exact attachPartition_partitions htext s alter.id.id child.id bound

theorem detach_effect (child : ObjectRef) (mode : DetachPartitionMode) (s : AnalysisState) :
    ∃ clones : List ObjectId, (∀ k ∈ clones, k ∈ s.triggers.keys) ∧
      Detaches child.id clones s.partitions ((alter.detach text child mode).after s).partitions := by
  have hindexes : SamePartitions s (s.detachIndexPartitionsOfTable child.id) :=
    samePartitions_detachIndexes s child.id
  have hindexTriggers : SameTriggers s (s.detachIndexPartitionsOfTable child.id) := by
    unfold detachIndexPartitionsOfTable
    dsimp only
    split
    · rfl
    · exact s.pushUndo_triggers _
  let start := (s.detachIndexPartitionsOfTable child.id).snapshotRelation alter.id.id
  have hstart : SamePartitions s start := (samePartitions_pushUndo _ _).trans hindexes
  have hstartTriggers : SameTriggers s start := (pushUndo_triggers _ _).trans hindexTriggers
  obtain ⟨v, hv, hdetaches⟩ := detachPartition_partitions start alter.id.id child.id
    mode
  refine ⟨(v.partitionTriggerClones alter.id.id child.id).map (·.1), fun k hk => ?_, ?_⟩
  · have hkeys : v.triggers = s.triggers := hv.trans hstartTriggers
    obtain ⟨clone, hclone, rfl⟩ := List.mem_map.mp hk
    obtain ⟨entry, hentry, hpicked⟩ := List.mem_filterMap.mp hclone
    rw [hkeys] at hentry
    have hkey : entry.1 = clone.1 := by
      split at hpicked
      · split at hpicked
        · cases hpicked
          rfl
        · cases hpicked
      · cases hpicked
    rw [← hkey]
    exact List.mem_map_of_mem hentry
  · rw [hstart] at hdetaches
    exact hdetaches

theorem command_effect (htext : text.ReadsColumns clauses) :
    Keeps (fun s t => alter.Effect text.toSqlText clauses (view s) (view t)) (alter.command text) := by
  have hrefl (x : Family ObjectId PartitionShape String × TriggerMap) :
      alter.Effect text.toSqlText clauses x x := Or.inl rfl
  have hget : Keeps SameView (get : Statement AnalysisState) := Keeps.get
  have htransaction (p : Prop) [Decidable p] (reason : String) : Keeps SameView (refuseIf p reason) :=
    keeps_refuseIf _ _
  have htarget : Keeps SameView alter.checkTarget := keeps_checkTarget
  refine Keeps.bind_unread hrefl hget fun s => Keeps.bind_unread hrefl (htransaction _ _) fun _ =>
    Keeps.bind_unread hrefl htarget fun _ => ?_
  cases haction : alter.action with
  | attachPartition child strategy bound =>
    have hcheck : Keeps SameView (alter.checkAttach text child strategy) := keeps_checkAttach _ _
    refine Keeps.bind_of (fun s => Or.inl (congrArg Prod.fst (hcheck s))) fun s a t hrun => ?_
    have hsame : t.partitions = s.partitions := by
      have h := congrArg Prod.fst (hcheck s)
      rwa [Command.after, hrun] at h
    unfold Effect
    rw [haction]
    change SamePartitions _ _ ∨ _
    rcases attach_effect htext child bound t with hkept | hattached
    · exact Or.inl (hkept.trans hsame)
    · rw [hsame] at hattached
      exact Or.inr ⟨checkAttach_free hrun, hattached⟩
  | detachPartition child mode =>
    have hcheck : Keeps SameView (alter.checkDetach child mode) := keeps_checkDetach _ _
    refine Keeps.bind_unread hrefl hcheck fun _ => fun s => ?_
    unfold Effect
    rw [haction]
    exact Or.inr (detach_effect child mode s)

end AlterPartition

/-! What each effect on the families keeps current. -/

section Families

variable {text : SqlText} {clauses : CheckClauses} {F G : Family ObjectId PartitionShape String}

/-- No default partition of `parent` caches a predicate. -/
def NoDefaultPredicate (F : Family ObjectId PartitionShape String) (parent : ObjectId) : Prop :=
  ∀ member, (member, parent) ∈ F.links → (F.shape member).any PartitionShape.isDefault = true →
    F.cache member = none

theorem aggregate_ne_of_absent {owner : ObjectId} (h : F.shape owner = none) {value : String} :
    (partitionScheme text clauses).aggregate F owner ≠ some value := by
  rw [Scheme.aggregate, Scheme.contributions_of_absent h]
  exact Option.some_ne_none value ∘ Eq.symm

theorem CreateTable.BuildsPartition.oneOwner {create : CreateTable}
    (h : create.BuildsPartition text clauses F G) (hone : F.OneOwner)
    (hunlinked : ∀ owner, (create.id.id, owner) ∉ F.links) : G.OneOwner := by
  obtain ⟨extra, hlinks, hextra⟩ := h.links
  have hown {member owner : ObjectId} (hlink : (member, owner) ∈ G.links) :
      (member, owner) ∈ F.links ∨ member = create.id.id ∧
        some owner = create.partitionOf.map (·.id) := by
    rw [hlinks] at hlink
    rcases List.mem_append.mp hlink with hold | hnew
    · exact Or.inl hold
    · exact Or.inr (hextra _ hnew)
  intro member owner owner' hlink hlink'
  rcases hown hlink with hold | ⟨rfl, howner⟩
  · rcases hown hlink' with hold' | ⟨rfl, -⟩
    · exact hone member owner owner' hold hold'
    · exact absurd hold (hunlinked owner)
  · rcases hown hlink' with hold' | ⟨-, howner'⟩
    · exact absurd hold' (hunlinked owner')
    · exact Option.some.inj (howner.trans howner'.symm)

/-- A new partition keeps the predicates current where no sibling stores one
that it should have entered. -/
theorem CreateTable.BuildsPartition.current {create : CreateTable}
    (h : create.BuildsPartition text clauses F G)
    (hcurrent : (partitionScheme text clauses).Current F) (hfree : F.shape create.id.id = none)
    (hunlinked : ∀ owner, (create.id.id, owner) ∉ F.links)
    (hspared : ∀ parent, create.partitionOf.map (·.id) = some parent →
      NoDefaultPredicate F parent ∨
        (partitionScheme text clauses).contributionOf G (create.id.id, parent) = none) :
    (partitionScheme text clauses).Current G := by
  obtain ⟨extra, hlinks, hextra⟩ := h.links
  obtain ⟨made, -, hshape⟩ := h.shape
  have hother (k : ObjectId) (hk : k ≠ create.id.id) : G.shape k = F.shape k := by
    rw [hshape, Function.update_of_ne hk]
  refine hcurrent.of_step ?_
  rintro ⟨member, owner⟩ hlink hcaches value hvalue
  rw [hlinks] at hlink
  rcases List.mem_append.mp hlink with hold | hnew
  · have hmember : member ≠ create.id.id := by
      rintro rfl
      exact hunlinked owner hold
    have hcached : F.cache member = some value := by rw [← h.cache member hmember, hvalue]
    have hdefault : (F.shape member).any PartitionShape.isDefault = true := by
      rw [← hother member hmember]
      exact hcaches
    refine Or.inr ⟨⟨hold, hdefault, hcached⟩, fun hbefore => ?_⟩
    have howner : owner ≠ create.id.id := by
      rintro rfl
      exact aggregate_ne_of_absent hfree hbefore
    refine Scheme.contributions_append hlinks (fun link hmem heq => ?_) fun link hmem heq => ?_
    · refine Scheme.contributionOf_congr (hother _ (heq ▸ howner)) (hother _ fun hid => ?_)
      exact hunlinked link.2 (hid ▸ hmem)
    · obtain ⟨hid, hparent⟩ := hextra link hmem
      have hpair : link = (create.id.id, owner) := Prod.ext hid heq
      rw [heq] at hparent
      rcases hspared owner hparent.symm with hnone | hsilent
      · rw [hnone member hold hdefault] at hcached
        cases hcached
      · rw [hpair]
        exact hsilent
  · obtain ⟨hid, hparent⟩ := hextra _ hnew
    simp only at hid hparent
    subst hid
    obtain ⟨parent, hdeclared, haggregate⟩ := h.own value hvalue hcaches
    rw [hdeclared] at hparent
    rw [Option.some.inj hparent]
    exact Or.inl haggregate

/-- A parent's bound has no part in the predicates of its partitions. -/
theorem contributionOf_rebound {child : ObjectId} {bound : Option String}
    (hshape : G.shape = Function.update F.shape child
      ((F.shape child).map fun shape => { shape with partitionBound := bound }))
    {link : ObjectId × ObjectId} (hmember : link.1 ≠ child) :
    (partitionScheme text clauses).contributionOf G link =
      (partitionScheme text clauses).contributionOf F link := by
  by_cases howner : link.2 = child
  · unfold Scheme.contributionOf
    rw [hshape, Function.update_of_ne hmember, howner, Function.update_self]
    cases F.shape child with
    | none => rfl
    | some owner => cases F.shape link.1 <;> rfl
  · exact Scheme.contributionOf_congr (by rw [hshape, Function.update_of_ne howner])
      (by rw [hshape, Function.update_of_ne hmember])

theorem Attaches.oneOwner {parent child : ObjectId} (h : Attaches text clauses parent child F G)
    (hone : F.OneOwner) (hfree : ∀ owner, (child, owner) ∉ F.links) : G.OneOwner := by
  obtain ⟨extra, hlinks, hextra⟩ := h.links
  have hown {member owner : ObjectId} (hlink : (member, owner) ∈ G.links) :
      (member, owner) ∈ F.links ∨ member = child ∧ owner = parent := by
    rw [hlinks] at hlink
    rcases List.mem_append.mp hlink with hold | hnew
    · exact Or.inl hold
    · exact Or.inr (Prod.mk.inj (hextra _ hnew))
  intro member owner owner' hlink hlink'
  rcases hown hlink with hold | ⟨rfl, rfl⟩
  · rcases hown hlink' with hold' | ⟨rfl, -⟩
    · exact hone member owner owner' hold hold'
    · exact absurd hold (hfree owner)
  · rcases hown hlink' with hold' | ⟨-, rfl⟩
    · exact absurd hold' (hfree owner')
    · rfl

/-- An attachment refreshes what it makes stale. -/
theorem Attaches.current {parent child : ObjectId} (h : Attaches text clauses parent child F G)
    (hone : F.OneOwner) (hcurrent : (partitionScheme text clauses).Current F)
    (hfree : ∀ owner, (child, owner) ∉ F.links) : (partitionScheme text clauses).Current G := by
  have honeAfter := h.oneOwner hone hfree
  obtain ⟨extra, hlinks, hextra⟩ := h.links
  obtain ⟨bound, hshape⟩ := h.shape
  refine hcurrent.of_step ?_
  rintro ⟨member, owner⟩ hlink hcaches value hvalue
  rcases h.cache member value hvalue hcaches with ⟨hlinked, haggregate⟩ | ⟨hunlinked, hcached⟩
  · rw [honeAfter member owner parent hlink hlinked]
    exact Or.inl haggregate
  · have howner : owner ≠ parent := by
      rintro rfl
      exact hunlinked hlink
    have hold : (member, owner) ∈ F.links := by
      rw [hlinks] at hlink
      rcases List.mem_append.mp hlink with hold | hnew
      · exact hold
      · exact absurd (Prod.mk.inj (hextra _ hnew)).2 howner
    have hmember : member ≠ child := by
      rintro rfl
      exact hfree owner hold
    refine Or.inr ⟨⟨hold, ?_, hcached⟩, fun _ => ?_⟩
    · rw [hshape, Function.update_of_ne hmember] at hcaches
      exact hcaches
    · refine Scheme.contributions_append hlinks (fun link hmem _ => ?_) fun link hmem heq => ?_
      · refine contributionOf_rebound hshape fun hchild => ?_
        exact hfree link.2 (hchild ▸ hmem)
      · rw [hextra link hmem] at heq
        exact absurd heq.symm howner

theorem Detaches.oneOwner {child : ObjectId} {clones : List ObjectId} (h : Detaches child clones F G)
    (hone : F.OneOwner) : G.OneOwner := by
  obtain ⟨keep, hlinks, -⟩ := h.links
  intro member owner owner' hlink hlink'
  rw [hlinks] at hlink hlink'
  exact hone member owner owner' (List.mem_of_mem_filter hlink) (List.mem_of_mem_filter hlink')

/-- A detached partition leaves the predicates current where it entered none
that is stored. -/
theorem Detaches.current {child : ObjectId} {clones : List ObjectId} (h : Detaches child clones F G)
    (hcurrent : (partitionScheme text clauses).Current F)
    (hclones : ∀ link ∈ F.links, link.1 ∉ clones)
    (hspared : ∀ parent, (child, parent) ∈ F.links → NoDefaultPredicate F parent ∨
      (partitionScheme text clauses).contributionOf F (child, parent) = none) :
    (partitionScheme text clauses).Current G := by
  obtain ⟨keep, hlinks, hkeep⟩ := h.links
  have hbare (owner : ObjectId) :
      (partitionScheme text clauses).contributionOf G (child, owner) = none := by
    unfold Scheme.contributionOf
    rw [h.shape, Function.update_self]
    cases Function.update F.shape child _ owner with
    | none => rfl
    | some parent =>
      cases F.shape child with
      | none => rfl
      | some shape =>
        show memberPredicate text clauses parent { shape with partitionBound := none } = none
        unfold memberPredicate
        cases parent.partitionType <;> cases parent.keyColumns text <;> rfl
  refine hcurrent.of_step ?_
  rintro ⟨member, owner⟩ hlink hcaches value hvalue
  rw [hlinks] at hlink
  have hold := List.mem_of_mem_filter hlink
  have hmember : member ≠ child := by
    rintro rfl
    rw [h.shape, Function.update_self] at hcaches
    cases hs : F.shape member <;> rw [hs] at hcaches <;> cases hcaches
  have hcached := h.cache member value hmember hvalue
  have hdefault : (F.shape member).any PartitionShape.isDefault = true := by
    rw [h.shape, Function.update_of_ne hmember] at hcaches
    exact hcaches
  have hsilent (link : ObjectId × ObjectId) (hmem : link ∈ F.links) (heq : link.2 = owner)
      (hchild : link.1 = child) : (partitionScheme text clauses).contributionOf F link = none := by
    have hpair : link = (child, owner) := Prod.ext hchild heq
    rw [hpair] at hmem ⊢
    rcases hspared owner hmem with hnone | hsilent
    · rw [hnone member hold hdefault] at hcached
      cases hcached
    · exact hsilent
  refine Or.inr ⟨⟨hold, hdefault, hcached⟩, fun _ => ?_⟩
  refine Scheme.contributions_filter hlinks (fun link hmem heq _ => ?_) fun link hmem heq hcut => ?_
  · by_cases hchild : link.1 = child
    · have hpair : link = (child, owner) := Prod.ext hchild heq
      rw [hsilent link hmem heq hchild, hpair, hbare]
    · exact contributionOf_rebound h.shape hchild
  · rcases hkeep link hcut with hchild | hclone
    · exact hsilent link hmem heq hchild
    · exact absurd hclone (hclones link hmem)

/-- The families after relations were dropped with the links of some edges. -/
structure Drops (dropped : List ObjectId) (keep : ObjectId × ObjectId → Bool)
    (F G : Family ObjectId PartitionShape String) : Prop where
  links : G.links = F.links.filter keep
  shape : ∀ k, G.shape k = if k ∈ dropped then none else F.shape k
  cache : ∀ k value, G.cache k = some value → F.cache k = some value

theorem Drops.oneOwner {dropped : List ObjectId} {keep : ObjectId × ObjectId → Bool}
    (h : Drops dropped keep F G) (hone : F.OneOwner) : G.OneOwner := by
  intro member owner owner' hlink hlink'
  rw [h.links] at hlink hlink'
  exact hone member owner owner' (List.mem_of_mem_filter hlink) (List.mem_of_mem_filter hlink')

/-- A drop keeps current the predicates whose parent and siblings it keeps. -/
theorem Drops.current {dropped : List ObjectId} {keep : ObjectId × ObjectId → Bool}
    (h : Drops dropped keep F G) (hcurrent : (partitionScheme text clauses).Current F)
    (hspared : ∀ member parent value, (member, parent) ∈ F.links → keep (member, parent) = true →
      member ∉ dropped → (F.shape member).any PartitionShape.isDefault = true →
      F.cache member = some value → parent ∉ dropped ∧ ∀ link ∈ F.links, link.2 = parent →
        (partitionScheme text clauses).contributionOf F link = none ∨
          keep link = true ∧ link.1 ∉ dropped) :
    (partitionScheme text clauses).Current G := by
  refine hcurrent.of_step ?_
  rintro ⟨member, owner⟩ hlink hcaches value hvalue
  rw [h.links] at hlink
  obtain ⟨hold, hkept⟩ := List.mem_filter.mp hlink
  have hmember : member ∉ dropped := by
    intro hmem
    rw [h.shape, if_pos hmem] at hcaches
    cases hcaches
  rw [h.shape, if_neg hmember] at hcaches
  have hcached := h.cache member value hvalue
  obtain ⟨howner, hsiblings⟩ := hspared member owner value hold hkept hmember hcaches hcached
  refine Or.inr ⟨⟨hold, hcaches, hcached⟩, fun _ => ?_⟩
  refine Scheme.contributions_filter h.links (fun link hmem heq _ => ?_) fun link hmem heq hcut => ?_
  · have hparent : G.shape link.2 = F.shape link.2 := by rw [heq, h.shape, if_neg howner]
    by_cases hsibling : link.1 ∈ dropped
    · rcases hsiblings link hmem heq with hsilent | ⟨-, hnot⟩
      · rw [hsilent, Scheme.contributionOf, h.shape link.1, if_pos hsibling]
        cases G.shape link.2 <;> rfl
      · exact absurd hsibling hnot
    · exact Scheme.contributionOf_congr hparent (by rw [h.shape, if_neg hsibling])
  · rcases hsiblings link hmem heq with hsilent | ⟨hkeep, -⟩
    · exact hsilent
    · rw [hkeep] at hcut
      cases hcut

end Families

end SafeMigrate
