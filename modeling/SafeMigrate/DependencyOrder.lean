import Mathlib.Data.Set.Finite.List
import Mathlib.Data.List.Perm.Subperm
import Mathlib.Logic.Function.Basic
import Mathlib.Logic.Relation
import Mathlib.Order.WellFounded

/-! Nodes ordered by counting what still points at each: a node is taken once
nothing that is left depends on it. The order is found unless there is a cycle. -/

namespace DependencyOrder

variable {α : Type} [DecidableEq α]

/-- The top of the stack of ready nodes comes first. -/
structure Progress (α : Type) where
  indegree : α → Nat
  dependencies : α → List α
  ready : List α
  order : List α

namespace Progress

def link (p : Progress α) (edge : α × α) : Progress α :=
  { p with
    indegree := Function.update p.indegree edge.2 (p.indegree edge.2 + 1)
    dependencies := Function.update p.dependencies edge.1 (p.dependencies edge.1 ++ [edge.2]) }

def release (p : Progress α) (x : α) : Progress α :=
  let count := p.indegree x - 1
  { p with
    indegree := Function.update p.indegree x count
    ready := if count = 0 then x :: p.ready else p.ready }

def take (p : Progress α) (x : α) (rest : List α) : Progress α :=
  (p.dependencies x).foldl release { p with
    dependencies := Function.update p.dependencies x []
    ready := rest
    order := p.order ++ [x] }

def run : Nat → Progress α → List α
  | 0, p => p.order
  | fuel + 1, p =>
    match p.ready with
    | [] => p.order
    | x :: rest => run fuel (p.take x rest)

end Progress

/-- The dependencies among the nodes. -/
def edges (dependencies : α → List α) (nodes : List α) : List (α × α) :=
  nodes.flatMap fun x => ((dependencies x).filter (· ∈ nodes)).map fun y => (x, y)

def linked (edges : List (α × α)) : Progress α := edges.foldl Progress.link ⟨fun _ => 0, fun _ => [], [], []⟩

/-- The nodes as they are, where they have no order. `arrange` is the order in
which the nodes that nothing depends on are stacked. -/
def sort (dependencies : α → List α) (arrange : List α → List α) (nodes : List α) : List α :=
  let start := linked (edges dependencies nodes)
  let order := Progress.run nodes.length
    { start with ready := arrange (nodes.filter fun x => start.indegree x = 0) }
  if order.length ≠ nodes.length then nodes else order

section Counts

variable (E : List (α × α))

def targets (x : α) : List α := (E.filter (·.1 = x)).map (·.2)

/-- How many edges to the node come from nodes outside the order. -/
def waiting (order : List α) (x : α) : Nat := ((E.filter (·.1 ∉ order)).map (·.2)).count x

variable {E}

theorem mem_targets {x y : α} : y ∈ targets E x ↔ (x, y) ∈ E := by
  simp [targets]

theorem linked_eq : (linked E).order = [] ∧ (∀ x, (linked E).indegree x = waiting E [] x) ∧
    ∀ x, (linked E).dependencies x = targets E x := by
  induction E using List.reverseRecOn with
  | nil => exact ⟨rfl, fun _ => rfl, fun _ => rfl⟩
  | append_singleton E edge ih =>
    obtain ⟨horder, hindegree, hdependencies⟩ := ih
    have hlinked : linked (E ++ [edge]) = (linked E).link edge := by simp [linked]
    rw [hlinked]
    refine ⟨horder, fun x => ?_, fun x => ?_⟩
    · by_cases hx : x = edge.2
      · subst hx
        simp [Progress.link, hindegree, waiting]
      · simp [Progress.link, hx, hindegree, waiting, Ne.symm hx]
    · by_cases hx : x = edge.1
      · subst hx
        simp [Progress.link, hdependencies, targets]
      · simp [Progress.link, hx, hdependencies, targets, Ne.symm hx]

/-- Taking a node stops what it depends on from waiting for it. -/
theorem waiting_append {order : List α} {x : α} (hx : x ∉ order) (y : α) :
    waiting E order y = waiting E (order ++ [x]) y + (targets E x).count y := by
  unfold waiting targets
  induction E with
  | nil => rfl
  | cons edge E ih =>
    by_cases hsource : edge.1 = x
    · subst hsource
      simp only [List.filter_cons, List.mem_append, List.mem_singleton, or_true, not_true_eq_false,
        decide_false, Bool.false_eq_true, if_false, hx, not_false_eq_true, decide_true, if_true,
        List.map_cons, List.count_cons] at ih ⊢
      omega
    · by_cases hold : edge.1 ∈ order
      · simpa [List.filter_cons, hsource, hold] using ih
      · simp only [List.filter_cons, List.mem_append, List.mem_singleton, hsource, hold, or_false,
          not_false_eq_true, decide_true, if_true, decide_false, Bool.false_eq_true, if_false,
          List.map_cons, List.count_cons] at ih ⊢
        omega

theorem waiting_eq_zero_iff {order : List α} {x : α} :
    waiting E order x = 0 ↔ ∀ a, (a, x) ∈ E → a ∈ order := by
  unfold waiting
  rw [List.count_eq_zero]
  constructor
  · intro h a ha
    by_contra hout
    exact h (List.mem_map.mpr ⟨(a, x), by simp [ha, hout], rfl⟩)
  · intro h hmem
    obtain ⟨⟨a, y⟩, hedge, rfl⟩ := List.mem_map.mp hmem
    obtain ⟨hin, hout⟩ := List.mem_filter.mp hedge
    exact absurd (h a hin) (by simpa using hout)

end Counts

/-- The state while the dependencies `rest` of the last node taken are released. -/
structure Releasing (E : List (α × α)) (nodes rest : List α) (p : Progress α) : Prop where
  counts : ∀ x, p.indegree x = waiting E p.order x + rest.count x
  pending : ∀ x, x ∉ p.order → p.dependencies x = targets E x
  distinct : (p.order ++ p.ready).Nodup
  inside : p.order ++ p.ready ⊆ nodes
  settled : ∀ x ∈ nodes, x ∈ p.order ++ p.ready ↔ waiting E p.order x + rest.count x = 0
  ahead : ∀ a x, (a, x) ∈ E → x ∈ p.order → p.order.idxOf a < p.order.idxOf x

section Run

variable {E : List (α × α)} {nodes : List α} {p : Progress α}

theorem Releasing.release {x : α} {rest : List α} (h : Releasing E nodes (x :: rest) p)
    (hx : x ∈ nodes) : Releasing E nodes rest (p.release x) := by
  have hcount : p.indegree x - 1 = waiting E p.order x + rest.count x := by
    rw [h.counts x, List.count_cons_self]
    rfl
  have hother (y : α) (hy : y ≠ x) : (x :: rest).count y = rest.count y :=
    List.count_cons_of_ne (Ne.symm hy)
  have hwaits : x ∉ p.order ++ p.ready := by
    rw [h.settled x hx, List.count_cons_self]
    omega
  have hcounts (y : α) : (p.release x).indegree y = waiting E p.order y + rest.count y := by
    unfold Progress.release
    by_cases hy : y = x
    · subst hy
      simpa using hcount
    · simpa [hy, hother y hy] using h.counts y
  by_cases hzero : p.indegree x - 1 = 0
  · have hready : (p.release x).ready = x :: p.ready := by simp [Progress.release, hzero]
    have hmem (y : α) : y ∈ p.order ++ x :: p.ready ↔ y = x ∨ y ∈ p.order ++ p.ready := by
      simp only [List.mem_append, List.mem_cons]
      exact or_left_comm
    refine ⟨hcounts, h.pending, ?_, ?_, fun y hy => ?_, h.ahead⟩
    · rw [hready]
      exact (List.nodup_middle).mpr (List.nodup_cons.mpr ⟨hwaits, h.distinct⟩)
    · rw [hready]
      intro y hy
      rcases (hmem y).mp hy with rfl | hold
      · exact hx
      · exact h.inside hold
    · rw [hready]
      refine (hmem y).trans ?_
      by_cases hyx : y = x
      · subst hyx
        exact iff_of_true (Or.inl rfl) (hcount.symm.trans hzero)
      · rw [or_iff_right hyx, h.settled y hy, hother y hyx]
        rfl
  · have hready : (p.release x).ready = p.ready := by simp [Progress.release, hzero]
    refine ⟨hcounts, h.pending, ?_, ?_, fun y hy => ?_, h.ahead⟩
    · rw [hready]
      exact h.distinct
    · rw [hready]
      exact h.inside
    · rw [hready]
      by_cases hyx : y = x
      · subst hyx
        exact iff_of_false hwaits fun heq => hzero (hcount.trans heq)
      · rw [← hother y hyx]
        exact h.settled y hy

theorem Releasing.releaseAll {rest : List α} (h : Releasing E nodes rest p) (hrest : rest ⊆ nodes) :
    Releasing E nodes [] (rest.foldl Progress.release p) := by
  induction rest generalizing p with
  | nil => exact h
  | cons x rest ih =>
    obtain ⟨hx, hrest⟩ := List.cons_subset.mp hrest
    exact ih (h.release hx) hrest

theorem order_releaseAll (rest : List α) (p : Progress α) :
    (rest.foldl Progress.release p).order = p.order := by
  induction rest generalizing p with
  | nil => rfl
  | cons x rest ih => exact ih (p.release x)

/-- A ready node is taken: nothing outside the order depends on it. -/
theorem Releasing.take (hE : ∀ edge ∈ E, edge.1 ∈ nodes ∧ edge.2 ∈ nodes)
    (h : Releasing E nodes [] p) {x : α} {rest : List α} (hready : p.ready = x :: rest) :
    Releasing E nodes [] (p.take x rest) ∧ (p.take x rest).order = p.order ++ [x] := by
  have hdistinct : (p.order ++ x :: rest).Nodup := hready ▸ h.distinct
  have hx : x ∉ p.order := fun hmem =>
    (List.disjoint_of_nodup_append hdistinct) hmem List.mem_cons_self
  have hnode : x ∈ nodes := h.inside (by simp [hready])
  have hsame : (p.order ++ [x]) ++ rest = p.order ++ p.ready := by simp [hready]
  have hnone : ∀ a, (a, x) ∈ E → a ∈ p.order := by
    have hzero := (h.settled x hnode).mp (by simp [hready])
    exact waiting_eq_zero_iff.mp (Nat.add_eq_zero_iff.mp hzero).1
  refine ⟨?_, order_releaseAll _ _⟩
  unfold Progress.take
  rw [h.pending x hx]
  refine Releasing.releaseAll ⟨fun y => ?_, fun y hy => ?_, ?_, ?_, fun y hy => ?_, ?_⟩ ?_
  · rw [h.counts y, waiting_append hx]
    rfl
  · obtain ⟨hold, hyx⟩ := not_or.mp (fun hor => hy (List.mem_append.mpr hor))
    have hne : y ≠ x := fun heq => hyx (List.mem_singleton.mpr heq)
    simpa [hne] using h.pending y hold
  · rw [hsame]
    exact h.distinct
  · rw [hsame]
    exact h.inside
  · rw [hsame, h.settled y hy, waiting_append hx]
    rfl
  · intro a y hedge hy
    have ha : a ∈ p.order := by
      rcases List.mem_append.mp hy with hold | hnew
      · exact List.idxOf_lt_length_iff.mp ((h.ahead a y hedge hold).trans
          (List.idxOf_lt_length_iff.mpr hold))
      · exact hnone a (List.mem_singleton.mp hnew ▸ hedge)
    rw [List.idxOf_append_of_mem ha]
    rcases List.mem_append.mp hy with hold | hnew
    · rw [List.idxOf_append_of_mem hold]
      exact h.ahead a y hedge hold
    · rw [List.mem_singleton.mp hnew, List.idxOf_append_of_notMem hx]
      exact (List.idxOf_lt_length_iff.mpr ha).trans_le (Nat.le_add_right _ _)
  · intro y hy
    exact (hE _ (mem_targets.mp hy)).2

/-- As many rounds as there are nodes empty the stack. -/
theorem run_spec (hE : ∀ edge ∈ E, edge.1 ∈ nodes ∧ edge.2 ∈ nodes) {fuel : Nat}
    (h : Releasing E nodes [] p) (hfuel : nodes.length ≤ p.order.length + fuel) :
    ∃ q, Releasing E nodes [] q ∧ q.ready = [] ∧ Progress.run fuel p = q.order := by
  induction fuel generalizing p with
  | zero =>
    have hlength := (h.distinct.subperm h.inside).length_le
    rw [List.length_append] at hlength
    exact ⟨p, h, List.eq_nil_of_length_eq_zero (by omega), rfl⟩
  | succ fuel ih =>
    cases hready : p.ready with
    | nil => exact ⟨p, h, hready, by simp [Progress.run, hready]⟩
    | cons x rest =>
      obtain ⟨htaken, horder⟩ := h.take hE hready
      obtain ⟨q, hq, hempty, hrun⟩ := ih htaken (by
        rw [horder, List.length_append, List.length_singleton]
        omega)
      exact ⟨q, hq, hempty, by simpa [Progress.run, hready] using hrun⟩

end Run

section Order

variable {dependencies : α → List α} {arrange : List α → List α} {nodes : List α}

def Depends (dependencies : α → List α) (nodes : List α) (a b : α) : Prop :=
  a ∈ nodes ∧ b ∈ nodes ∧ b ∈ dependencies a

theorem mem_edges {a b : α} :
    (a, b) ∈ edges dependencies nodes ↔ Depends dependencies nodes a b := by
  unfold edges Depends
  constructor
  · intro h
    obtain ⟨x, hx, hmem⟩ := List.mem_flatMap.mp h
    obtain ⟨y, hy, heq⟩ := List.mem_map.mp hmem
    obtain ⟨rfl, rfl⟩ := Prod.mk.inj heq
    obtain ⟨hdepends, hin⟩ := List.mem_filter.mp hy
    exact ⟨hx, by simpa using hin, hdepends⟩
  · rintro ⟨ha, hb, hdepends⟩
    refine List.mem_flatMap.mpr ⟨a, ha, List.mem_map.mpr ⟨b, ?_, rfl⟩⟩
    exact List.mem_filter.mpr ⟨hdepends, by simpa using hb⟩

omit [DecidableEq α] in
/-- Where every node of a set has something in the set depending on it, there is
a cycle. -/
theorem exists_cycle {R : α → α → Prop} {left : List α} (hne : left ≠ [])
    (h : ∀ x ∈ left, ∃ a ∈ left, R a x) : ∃ x, Relation.TransGen R x x := by
  by_contra hnone
  rw [not_exists] at hnone
  let S : {x // x ∈ left} → {x // x ∈ left} → Prop := fun a b => Relation.TransGen R a.1 b.1
  have htrans : IsTrans _ S := ⟨fun _ _ _ hab hbc => hab.trans hbc⟩
  have hirrefl : Std.Irrefl S := ⟨fun a ha => hnone a.1 ha⟩
  have hfinite : Finite {x // x ∈ left} := left.finite_toSet
  have hwf : WellFounded S := Finite.wellFounded_of_trans_of_irrefl S
  obtain ⟨x, hx⟩ := List.exists_mem_of_ne_nil left hne
  obtain ⟨m, -, hmin⟩ := hwf.has_min Set.univ ⟨⟨x, hx⟩, trivial⟩
  obtain ⟨a, ha, hR⟩ := h m.1 m.2
  exact hmin ⟨a, ha⟩ trivial (.single hR)

theorem sort_cases (dependencies : α → List α) (hnodes : nodes.Nodup) (harrange : ∀ l, (arrange l).Perm l) :
    ∃ order, order.Nodup ∧ order ⊆ nodes ∧
      (∀ a x, Depends dependencies nodes a x → x ∈ order → order.idxOf a < order.idxOf x) ∧
      (∀ x ∈ nodes, x ∈ order ↔ ∀ a, Depends dependencies nodes a x → a ∈ order) ∧
      sort dependencies arrange nodes = if order.length ≠ nodes.length then nodes else order := by
  have hE : ∀ edge ∈ edges dependencies nodes, edge.1 ∈ nodes ∧ edge.2 ∈ nodes := by
    rintro ⟨a, b⟩ hedge
    obtain ⟨ha, hb, -⟩ := mem_edges.mp hedge
    exact ⟨ha, hb⟩
  obtain ⟨horder, hindegree, hdependencies⟩ := linked_eq (E := edges dependencies nodes)
  have hstart : Releasing (edges dependencies nodes) nodes []
      { linked (edges dependencies nodes) with
        ready := arrange (nodes.filter fun x =>
          (linked (edges dependencies nodes)).indegree x = 0) } := by
    have hready (x : α) : x ∈ arrange (nodes.filter fun x =>
        (linked (edges dependencies nodes)).indegree x = 0) ↔
          x ∈ nodes ∧ waiting (edges dependencies nodes) [] x = 0 := by
      rw [(harrange _).mem_iff, List.mem_filter, decide_eq_true_iff, hindegree]
    refine ⟨fun x => ?_, fun x _ => hdependencies x, ?_, ?_, fun x hx => ?_, ?_⟩
    · rw [horder]
      exact hindegree x
    · rw [horder]
      exact (harrange _).nodup_iff.mpr (hnodes.filter _)
    · rw [horder]
      exact fun x hx => ((hready x).mp hx).1
    · rw [horder]
      exact (hready x).trans (and_iff_right hx)
    · rw [horder]
      simp
  obtain ⟨q, hq, hempty, hrun⟩ := run_spec hE hstart (Nat.le_add_left _ _)
  have hall : q.order ++ q.ready = q.order := by rw [hempty, List.append_nil]
  refine ⟨q.order, hall ▸ hq.distinct, hall ▸ hq.inside, ?_, fun x hx => ?_, ?_⟩
  · exact fun a x hdepends => hq.ahead a x (mem_edges.mpr hdepends)
  · have hsettled := hq.settled x hx
    rw [hall, List.count_nil, Nat.add_zero, waiting_eq_zero_iff] at hsettled
    simpa only [mem_edges] using hsettled
  · unfold sort
    dsimp only
    rw [hrun]

theorem sort_perm (hnodes : nodes.Nodup) (harrange : ∀ l, (arrange l).Perm l) :
    (sort dependencies arrange nodes).Perm nodes := by
  obtain ⟨order, hnodup, hsubset, -, -, heq⟩ :=
    sort_cases dependencies hnodes harrange
  rw [heq]
  by_cases hlength : order.length = nodes.length
  · rw [if_neg (not_not.mpr hlength)]
    exact (hnodup.subperm hsubset).perm_of_length_le hlength.ge
  · rw [if_pos hlength]

/-- Without a cycle, every node comes before those that it depends on. -/
theorem sort_before (hnodes : nodes.Nodup) (harrange : ∀ l, (arrange l).Perm l)
    (hacyclic : ∀ x, ¬Relation.TransGen (Depends dependencies nodes) x x) {a b : α}
    (hab : Depends dependencies nodes a b) :
    (sort dependencies arrange nodes).idxOf a < (sort dependencies arrange nodes).idxOf b := by
  obtain ⟨order, hnodup, hsubset, hahead, hsettled, heq⟩ :=
    sort_cases dependencies hnodes harrange
  have hall : nodes.filter (· ∉ order) = [] := by
    by_contra hne
    obtain ⟨x, hcycle⟩ := exists_cycle (R := Depends dependencies nodes) hne fun x hx => by
      obtain ⟨hnode, hout⟩ := List.mem_filter.mp hx
      have hleft : ¬∀ a, Depends dependencies nodes a x → a ∈ order := fun hin =>
        absurd ((hsettled x hnode).mpr hin) (by simpa using hout)
      obtain ⟨a, ha⟩ := not_forall.mp hleft
      obtain ⟨hdepends, hnot⟩ := Classical.not_imp.mp ha
      exact ⟨a, List.mem_filter.mpr ⟨hdepends.1, by simpa using hnot⟩, hdepends⟩
    exact hacyclic x hcycle
  have hsuper : nodes ⊆ order := by
    intro x hx
    by_contra hout
    have hmem : x ∈ nodes.filter (· ∉ order) := List.mem_filter.mpr ⟨hx, by simpa using hout⟩
    rw [hall] at hmem
    cases hmem
  have hlength : order.length = nodes.length :=
    Nat.le_antisymm (hnodup.subperm hsubset).length_le (hnodes.subperm hsuper).length_le
  rw [heq, if_neg (not_not.mpr hlength)]
  exact hahead a b hab (hsuper hab.2.1)

/-- With a cycle there is no order to be found. -/
theorem sort_of_cycle (hnodes : nodes.Nodup) (harrange : ∀ l, (arrange l).Perm l) {x : α}
    (hcycle : Relation.TransGen (Depends dependencies nodes) x x) :
    sort dependencies arrange nodes = nodes := by
  obtain ⟨order, hnodup, hsubset, hahead, -, heq⟩ :=
    sort_cases dependencies hnodes harrange
  rw [heq]
  refine if_pos fun hlength => ?_
  have hperm := (hnodup.subperm hsubset).perm_of_length_le hlength.ge
  have hrises {a b : α} (hab : Relation.TransGen (Depends dependencies nodes) a b) :
      order.idxOf a < order.idxOf b := by
    induction hab with
    | single hstep => exact hahead _ _ hstep (hperm.mem_iff.mpr hstep.2.1)
    | tail _ hstep ih => exact ih.trans (hahead _ _ hstep (hperm.mem_iff.mpr hstep.2.1))
  exact Nat.lt_irrefl _ (hrises hcycle)

end Order

end DependencyOrder
