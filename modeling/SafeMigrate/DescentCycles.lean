import SafeMigrate.Aliases
import SafeMigrate.AlterPartition
import SafeMigrate.Worklist

/-! What the cycle checks for partitions and for inheritance decide, and that
links made only where they allow it never close a cycle. -/

namespace SafeMigrate.DependencyGraph

open Relation Worklist

/-- No edge is an alias. -/
def Unrenamed (g : DependencyGraph) : Prop := ∀ e ∈ g.edges, e.kind.isRenameTo = false

/-- A partition and its parent, also while its detachment is pending. -/
def PartitionParent (g : DependencyGraph) (child parent : ObjectId) : Prop :=
  ∃ e ∈ g.edges, e.kind.isPartition = true ∧ e.dependent = child ∧ e.referenced = parent

def InheritsFrom (g : DependencyGraph) (child parent : ObjectId) : Prop :=
  ∃ e ∈ g.edges, e.kind.isInheritanceOf = true ∧ e.dependent = child ∧ e.referenced = parent

/-- No relation is a partition of two parents. -/
def OnePartitionParent (g : DependencyGraph) : Prop :=
  ∀ child parent parent', g.PartitionParent child parent → g.PartitionParent child parent' →
    parent = parent'

/-- The partition ancestry of a relation runs into a cycle. -/
def CyclicAncestry (g : DependencyGraph) (id : ObjectId) : Prop :=
  ∃ a, ReflTransGen g.PartitionParent id a ∧ TransGen g.PartitionParent a a

section Exact

variable {g : DependencyGraph} {parent child : ObjectId}

theorem Unrenamed.resolveRename (h : g.Unrenamed) (id : ObjectId) : g.resolveRename id = id :=
  resolveRename_of_none (renameBySource_eq_none.mpr fun e he halias => by simp [h e he] at halias)

/-- The parent that the first partition edge of a relation leads to. -/
def firstPartitionParent (g : DependencyGraph) (id : ObjectId) : Option ObjectId :=
  (g.edges.find? fun e => e.kind.isPartition && e.dependent == id).map (·.referenced)

theorem leads_firstPartitionParent (hone : g.OnePartitionParent) :
    ForwardChain.Leads g.firstPartitionParent = g.PartitionParent := by
  funext id next
  refine propext ⟨fun h => ?_, fun h => ?_⟩
  · obtain ⟨e, he, hreferenced⟩ := Option.map_eq_some_iff.mp h
    have hp := List.find?_some he
    simp only [Bool.and_eq_true, beq_iff_eq] at hp
    exact ⟨e, List.mem_of_find?_eq_some he, hp.1, hp.2, hreferenced⟩
  · have ⟨e, he, hkind, hdependent, _⟩ := h
    cases hfound : g.edges.find? fun e => e.kind.isPartition && e.dependent == id with
    | none =>
      have hnot := List.find?_eq_none.mp hfound e he
      simp [hkind, hdependent] at hnot
    | some first =>
      have hp := List.find?_some hfound
      simp only [Bool.and_eq_true, beq_iff_eq] at hp
      have hfirst : g.PartitionParent id first.referenced :=
        ⟨first, List.mem_of_find?_eq_some hfound, hp.1, hp.2, rfl⟩
      show g.firstPartitionParent id = some next
      rw [firstPartitionParent, hfound, hone id next first.referenced h hfirst]
      rfl

theorem partitionCycleLoop_eq_climb (h : g.Unrenamed) (fuel : Nat) (current : ObjectId)
    (visited : List ObjectId) : g.partitionCycleLoop child fuel current visited =
      ForwardChain.climb g.firstPartitionParent child fuel visited current := by
  induction fuel generalizing current visited with
  | zero => rfl
  | succ fuel ih =>
    rw [partitionCycleLoop, ForwardChain.climb, firstPartitionParent]
    simp only [h.resolveRename]
    split
    · rfl
    · cases g.edges.find? fun e => e.kind.isPartition && e.dependent == current with
      | none => rfl
      | some e => simp only [Option.map_some, ih]

theorem checkPartitionCycle_iff (h : g.Unrenamed) (hone : g.OnePartitionParent) :
    g.checkPartitionCycle parent child = true ↔
      child = parent ∨ TransGen g.PartitionParent parent child ∨ g.CyclicAncestry parent := by
  have hsources (id : ObjectId) (hid : g.firstPartitionParent id ≠ none) : id ∈ g.aliasSources := by
    obtain ⟨next, hnext⟩ := Option.ne_none_iff_exists'.mp hid
    obtain ⟨e, he, -⟩ := Option.map_eq_some_iff.mp hnext
    have hp := List.find?_some he
    simp only [Bool.and_eq_true, beq_iff_eq] at hp
    rw [← hp.2]
    exact List.mem_toFinset.mpr (List.mem_map_of_mem (List.mem_of_find?_eq_some he))
  have hclimb := @ForwardChain.climb_eq_true_iff _ _ _ _ hsources child parent _
    g.aliasSources_card_lt
  unfold ForwardChain.RunsIntoCycle ForwardChain.Reaches at hclimb
  rw [leads_firstPartitionParent hone] at hclimb
  unfold checkPartitionCycle
  rw [h.resolveRename, h.resolveRename, partitionCycleLoop_eq_climb h, Bool.or_eq_true, hclimb,
    decide_eq_true_eq, eq_comm]
  rfl

def inheritanceEdges (g : DependencyGraph) : List DependencyEdge :=
  g.edges.filter fun e => e.kind.isInheritanceOf

theorem inheritanceAncestors_eq_drain (h : g.Unrenamed) (fuel : Nat)
    (visited pending : List ObjectId) : g.inheritanceAncestors fuel visited pending =
      (drain (fun (u : Unit) a => (ahead g.inheritanceEdges (·.dependent) (·.referenced) a, u)) fuel
        visited pending ()).1 := by
  induction fuel generalizing visited pending with
  | zero => rfl
  | succ fuel ih =>
    cases pending with
    | nil => rfl
    | cons current pending =>
      have hparents : ((g.edges.filter fun e => e.kind.isInheritanceOf &&
          g.resolveRename e.dependent == current).map fun e => g.resolveRename e.referenced) =
            ahead g.inheritanceEdges (·.dependent) (·.referenced) current := by
        simp only [h.resolveRename, ahead, inheritanceEdges, List.filter_filter, Bool.and_comm]
      rw [inheritanceAncestors, drain]
      simp only [hparents, ih]
      split <;> rfl

theorem mem_ahead_inheritanceEdges {a b : ObjectId} :
    b ∈ ahead g.inheritanceEdges (·.dependent) (·.referenced) a ↔ g.InheritsFrom a b := by
  simp only [ahead, inheritanceEdges, List.filter_filter, List.mem_map, List.mem_filter,
    Bool.and_eq_true, beq_iff_eq, InheritsFrom]
  constructor
  · rintro ⟨e, ⟨he, hdependent, hkind⟩, hreferenced⟩
    exact ⟨e, he, hkind, hdependent, hreferenced⟩
  · rintro ⟨e, he, hkind, hdependent, hreferenced⟩
    exact ⟨e, ⟨he, hdependent, hkind⟩, hreferenced⟩

theorem checkInheritanceCycle_iff (h : g.Unrenamed) :
    g.checkInheritanceCycle parent child = true ↔
      child = parent ∨ TransGen g.InheritsFrom parent child := by
  have hfuel : g.inheritanceEdges.length + 1 ≤ g.edges.length + 2 := by
    have hle := List.length_filter_le (fun e : DependencyEdge => e.kind.isInheritanceOf) g.edges
    unfold inheritanceEdges
    omega
  have hmem : child ∈ g.inheritanceAncestors (g.edges.length + 2) [] [parent] ↔
      ReflTransGen g.InheritsFrom parent child := by
    have hlinks : (fun a b => b ∈ ahead g.inheritanceEdges (·.dependent) (·.referenced) a) =
        g.InheritsFrom := funext fun a => funext fun b => propext mem_ahead_inheritanceEdges
    rw [inheritanceAncestors_eq_drain h, mem_drain_ahead_iff _ _ _ hfuel, hlinks]
  unfold checkInheritanceCycle
  rw [h.resolveRename, h.resolveRename, Bool.or_eq_true, beq_iff_eq, List.contains_iff_mem, hmem,
    reflTransGen_iff_eq_or_transGen, eq_comm (a := parent)]
  exact ⟨fun h => h.elim Or.inl id, Or.inr⟩

end Exact

/-- A partition or an inheritance link is made only where its check allows it,
and a partition only of a relation that has no parent. Any other change makes
neither, and no alias. -/
inductive DescentStep (g : DependencyGraph) : DependencyGraph → Prop
  | attach {parent child : ObjectId} (hcheck : g.checkPartitionCycle parent child = false)
      (hfree : ∀ e ∈ g.edges, e.kind.isPartition = true → e.dependent ≠ child) :
      DescentStep g (g.addEdge ⟨child, parent, .partitionOf⟩)
  | inherit {parent child : ObjectId} (hcheck : g.checkInheritanceCycle parent child = false) :
      DescentStep g (g.addEdge ⟨child, parent, .inheritanceOf⟩)
  | other {g' : DependencyGraph} (halias : g'.Unrenamed)
      (hpartition : ∀ a b, g'.PartitionParent a b → g.PartitionParent a b)
      (hinherits : ∀ a b, g'.InheritsFrom a b → g.InheritsFrom a b) : DescentStep g g'

/-- What the steps keep. -/
structure DescentInOrder (g : DependencyGraph) : Prop where
  unrenamed : g.Unrenamed
  oneParent : g.OnePartitionParent
  partitions : ∀ a, ¬TransGen g.PartitionParent a a
  inheritance : ∀ a, ¬TransGen g.InheritsFrom a a

section Runs

variable {g g' : DependencyGraph} {parent child : ObjectId}

theorem unrenamed_addEdge (h : g.Unrenamed) {e : DependencyEdge} (he : e.kind.isRenameTo = false) :
    (g.addEdge e).Unrenamed := by
  intro x hx
  rcases mem_addEdge.mp hx with hold | rfl
  · exact h x hold
  · exact he

theorem partitionParent_addEdge {e : DependencyEdge} {a b : ObjectId}
    (h : (g.addEdge e).PartitionParent a b) :
    g.PartitionParent a b ∨ e.kind.isPartition = true ∧ a = e.dependent ∧ b = e.referenced := by
  obtain ⟨x, hx, hkind, rfl, rfl⟩ := h
  rcases mem_addEdge.mp hx with hold | rfl
  · exact Or.inl ⟨x, hold, hkind, rfl, rfl⟩
  · exact Or.inr ⟨hkind, rfl, rfl⟩

theorem inheritsFrom_addEdge {e : DependencyEdge} {a b : ObjectId}
    (h : (g.addEdge e).InheritsFrom a b) :
    g.InheritsFrom a b ∨ e.kind.isInheritanceOf = true ∧ a = e.dependent ∧ b = e.referenced := by
  obtain ⟨x, hx, hkind, rfl, rfl⟩ := h
  rcases mem_addEdge.mp hx with hold | rfl
  · exact Or.inl ⟨x, hold, hkind, rfl, rfl⟩
  · exact Or.inr ⟨hkind, rfl, rfl⟩

theorem DescentInOrder.attach (h : g.DescentInOrder)
    (hcheck : g.checkPartitionCycle parent child = false)
    (hfree : ∀ e ∈ g.edges, e.kind.isPartition = true → e.dependent ≠ child) :
    (g.addEdge ⟨child, parent, .partitionOf⟩).DescentInOrder := by
  have hnew (a b : ObjectId) (hab : (g.addEdge ⟨child, parent, .partitionOf⟩).PartitionParent a b) :
      g.PartitionParent a b ∨ a = child ∧ b = parent :=
    (partitionParent_addEdge hab).imp_right And.right
  have hunlinked (b : ObjectId) : ¬g.PartitionParent child b := by
    rintro ⟨e, he, hkind, hchild, -⟩
    exact hfree e he hkind hchild
  have hapart : ¬ReflTransGen g.PartitionParent parent child := by
    intro hreach
    have hcycle : g.checkPartitionCycle parent child = true := by
      refine (checkPartitionCycle_iff h.unrenamed h.oneParent).mpr ?_
      rcases reflTransGen_iff_eq_or_transGen.mp hreach with heq | hlater
      · exact Or.inl heq
      · exact Or.inr (Or.inl hlater)
    rw [hcycle] at hcheck
    cases hcheck
  refine ⟨unrenamed_addEdge h.unrenamed rfl, ?_, acyclic_extended hnew h.partitions hapart,
    fun a hcycle => h.inheritance a (TransGen.mono (fun a b hab => ?_) _ _ hcycle)⟩
  · intro a b b' hb hb'
    rcases hnew a b hb with hold | ⟨rfl, rfl⟩
    · rcases hnew a b' hb' with hold' | ⟨rfl, rfl⟩
      · exact h.oneParent a b b' hold hold'
      · exact absurd hold (hunlinked b)
    · rcases hnew _ b' hb' with hold' | ⟨-, rfl⟩
      · exact absurd hold' (hunlinked b')
      · rfl
  · rcases inheritsFrom_addEdge hab with hold | ⟨hkind, -⟩
    · exact hold
    · cases hkind

theorem DescentInOrder.inherit (h : g.DescentInOrder)
    (hcheck : g.checkInheritanceCycle parent child = false) :
    (g.addEdge ⟨child, parent, .inheritanceOf⟩).DescentInOrder := by
  have hold (a b : ObjectId)
      (hab : (g.addEdge ⟨child, parent, .inheritanceOf⟩).PartitionParent a b) :
      g.PartitionParent a b := by
    rcases partitionParent_addEdge hab with hold | ⟨hkind, -⟩
    · exact hold
    · cases hkind
  have hapart : ¬ReflTransGen g.InheritsFrom parent child := by
    intro hreach
    have hcycle := (checkInheritanceCycle_iff h.unrenamed).mpr
      (reflTransGen_iff_eq_or_transGen.mp hreach)
    rw [hcycle] at hcheck
    cases hcheck
  refine ⟨unrenamed_addEdge h.unrenamed rfl, ?_, ?_, ?_⟩
  · exact fun a b b' hb hb' => h.oneParent a b b' (hold a b hb) (hold a b' hb')
  · exact fun a hcycle => h.partitions a (TransGen.mono hold _ _ hcycle)
  · exact acyclic_extended (fun a b hab => (inheritsFrom_addEdge hab).imp_right And.right)
      h.inheritance hapart

theorem DescentInOrder.step (h : g.DescentInOrder) (hstep : DescentStep g g') :
    g'.DescentInOrder := by
  cases hstep with
  | attach hcheck hfree => exact h.attach hcheck hfree
  | inherit hcheck => exact h.inherit hcheck
  | other halias hpartition hinherits =>
    exact ⟨halias,
      fun a b b' hb hb' => h.oneParent a b b' (hpartition a b hb) (hpartition a b' hb'),
      fun a hcycle => h.partitions a (TransGen.mono hpartition _ _ hcycle),
      fun a hcycle => h.inheritance a (TransGen.mono hinherits _ _ hcycle)⟩

theorem DescentInOrder.run (h : g.DescentInOrder) (hrun : ReflTransGen DescentStep g g') :
    g'.DescentInOrder := by
  induction hrun with
  | refl => exact h
  | tail _ hstep ih => exact ih.step hstep

theorem descentInOrder_empty : DependencyGraph.empty.DescentInOrder := by
  have hno (a b : ObjectId) : ¬DependencyGraph.empty.PartitionParent a b := by
    rintro ⟨e, he, -⟩
    cases he
  have hnone (a b : ObjectId) : ¬DependencyGraph.empty.InheritsFrom a b := by
    rintro ⟨e, he, -⟩
    cases he
  refine ⟨fun e he => absurd he List.not_mem_nil, fun a b _ hb => absurd hb (hno a b),
    fun a hcycle => ?_, fun a hcycle => ?_⟩
  · obtain ⟨b, hb, -⟩ := TransGen.head'_iff.mp hcycle
    exact hno a b hb
  · obtain ⟨b, hb, -⟩ := TransGen.head'_iff.mp hcycle
    exact hnone a b hb

end Runs

section Guards

open Command

variable {text : PartitionText} {s t : AnalysisState}

/-- A partition that `ATTACH PARTITION` lets pass is attached by a step. -/
theorem descentStep_of_checkAttach {alter : AlterPartition} {child : ObjectRef}
    {strategy : Option String} {a : Unit}
    (h : (alter.checkAttach text child strategy).run.run s = (.ok a, t)) :
    DescentStep s.graph (s.graph.addEdge ⟨child.id, alter.id.id, .partitionOf⟩) := by
  obtain ⟨_, u, hchild, hrest⟩ := exists_run_of_bind h
  obtain rfl := isCheck_ensureRelationTarget _ _ _ _ s _ u hchild
  obtain ⟨v, w, hget, hparent⟩ := exists_run_of_bind hrest
  cases hget
  split at hparent
  · cases hparent
  · obtain ⟨_, v, hstrategy, hcycle⟩ := exists_run_of_bind hparent
    obtain rfl := isCheck_refuseIf _ _ _ _ v hstrategy
    obtain ⟨_, w, hacyclic, hfound⟩ := exists_run_of_bind hcycle
    obtain ⟨rfl, hcheck⟩ := refuseIf_ok hacyclic
    obtain ⟨_, x, hattached, -⟩ := exists_run_of_bind hfound
    refine .attach (Bool.eq_false_iff.mpr hcheck) fun e he hkind hdependent => ?_
    cases hfind : w.graph.edges.find? fun e => e.kind.isPartition && e.dependent == child.id with
    | none =>
      have hno := List.find?_eq_none.mp hfind e he
      simp [hkind, hdependent] at hno
    | some first =>
      rw [hfind] at hattached
      cases hattached

/-- A parent that `CREATE TABLE` lets pass is inherited from by a step. -/
theorem descentStep_of_inheritFrom {create : CreateTable} {sql : SqlText}
    {sources answer : TableSources} {parent : ObjectRef}
    (h : (create.inheritFrom sql sources parent).run.run s = (.ok answer, t)) :
    DescentStep s.graph (s.graph.addEdge ⟨create.id.id, parent.id, .inheritanceOf⟩) := by
  obtain ⟨_, u, hparent, hrest⟩ := exists_run_of_bind h
  obtain rfl := isCheck_ensureRelationTarget _ _ _ _ s _ u hparent
  obtain ⟨v, w, hget, hrest⟩ := exists_run_of_bind hrest
  cases hget
  obtain ⟨_, w, hacyclic, -⟩ := exists_run_of_bind hrest
  obtain ⟨-, hcheck⟩ := refuseIf_ok hacyclic
  exact .inherit (Bool.eq_false_iff.mpr hcheck)

end Guards

/-- The partition check answers whether the child is the parent, an ancestor of
it, or the ancestry is cyclic already, and the inheritance check whether the
child is the parent or reached from it. Links made only where the checks allow
them leave no cycle. -/
theorem descentChecks_exact :
    (∀ g : DependencyGraph, g.Unrenamed → g.OnePartitionParent → ∀ parent child,
      (g.checkPartitionCycle parent child = true ↔
        child = parent ∨ TransGen g.PartitionParent parent child ∨ g.CyclicAncestry parent) ∧
      (g.checkInheritanceCycle parent child = true ↔
        child = parent ∨ TransGen g.InheritsFrom parent child)) ∧
    ∀ g g' : DependencyGraph, g.DescentInOrder → ReflTransGen DescentStep g g' →
      (∀ a, ¬TransGen g'.PartitionParent a a) ∧ ∀ a, ¬TransGen g'.InheritsFrom a a :=
  ⟨fun _ h hone _ _ => ⟨checkPartitionCycle_iff h hone, checkInheritanceCycle_iff h⟩,
    fun _ _ h hrun => ⟨(h.run hrun).partitions, (h.run hrun).inheritance⟩⟩

def rootTable : ObjectId := ⟨"public", "root"⟩

def leafTable : ObjectId := ⟨"public", "leaf"⟩

/-- A table with one partition. -/
def attachedLeaf : DependencyGraph := DependencyGraph.empty.addEdge ⟨leafTable, rootTable, .partitionOf⟩

/-- The table cannot become a partition of its own partition, and no cycle is there. -/
theorem attachedLeaf_checked : attachedLeaf.checkPartitionCycle leafTable rootTable = true ∧
    (∀ a, ¬TransGen attachedLeaf.PartitionParent a a) ∧
      ∀ a, ¬TransGen attachedLeaf.InheritsFrom a a := by
  have hstep : DescentStep .empty attachedLeaf := .attach (by decide) (by decide)
  have horder := descentInOrder_empty.step hstep
  have hlink : attachedLeaf.PartitionParent leafTable rootTable :=
    ⟨_, List.mem_singleton_self _, rfl, rfl, rfl⟩
  have hchecks := descentChecks_exact.1 attachedLeaf horder.unrenamed horder.oneParent leafTable
    rootTable
  exact ⟨hchecks.1.mpr (Or.inr (Or.inl (.single hlink))),
    descentChecks_exact.2 .empty attachedLeaf descentInOrder_empty (.single hstep)⟩

end SafeMigrate.DependencyGraph
