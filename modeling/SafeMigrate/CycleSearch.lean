import Mathlib.Data.Finset.Card
import Mathlib.Logic.Relation

/-! Depth-first search for a cycle, with the set of nodes on the current path and
the set of nodes ever entered. What it reports lies on a cycle, and with more fuel
than nodes it reports one exactly if there is one. -/

namespace CycleSearch

variable {α : Type}

structure Colours (α : Type) where
  visiting : Finset α
  visited : Finset α

/-- Nodes one after the other, up to the first find. -/
def sweep (visit : α → Colours α → Option α × Colours α) :
    List α → Colours α → Option α × Colours α
  | [], c => (none, c)
  | x :: l, c =>
    match visit x c with
    | (some found, c') => (some found, c')
    | (none, c') => sweep visit l c'

variable [DecidableEq α] (succ : α → List α)

def visit : Nat → α → Colours α → Option α × Colours α
  | 0, _, c => (none, c)
  | fuel + 1, x, c =>
    if x ∈ c.visiting then (some x, c)
    else if x ∈ c.visited then (none, c)
    else
      match sweep (visit fuel) (succ x) ⟨insert x c.visiting, insert x c.visited⟩ with
      | (some found, c') => (some found, c')
      | (none, c') => (none, { c' with visiting := c'.visiting.erase x })

def find (fuel : Nat) (order : List α) : Option α := (sweep (visit succ fuel) order ⟨∅, ∅⟩).1

def Step (x y : α) : Prop := y ∈ succ x

/-- No path from the node goes on for ever. -/
abbrev Ends : α → Prop := Acc fun y x => Step succ x y

omit [DecidableEq α] in
theorem Ends.acyclic {succ : α → List α} {x : α} (h : Ends succ x) :
    ¬Relation.TransGen (Step succ) x x := by
  intro hcycle
  have hback : Relation.TransGen (Function.swap (Step succ)) x x :=
    Relation.transGen_swap.mpr hcycle
  have hends : Acc (Relation.TransGen (Function.swap (Step succ))) x := h.transGen
  clear h hcycle
  induction hends with
  | intro x _ ih => exact ih x hback hback

section Sweep

variable {succ} {f : α → Colours α → Option α × Colours α}

omit [DecidableEq α] in
theorem sweep_none {R : Colours α → Colours α → Prop} [IsTrans (Colours α) R] {P : α → Prop}
    (start : Colours α) {c : Colours α} {l : List α} (hc : R start c)
    (hstep : ∀ x ∈ l, ∀ c, R start c → (f x c).1 = none → R c (f x c).2 ∧ P x)
    (h : (sweep f l c).1 = none) : R start (sweep f l c).2 ∧ ∀ x ∈ l, P x := by
  induction l generalizing c with
  | nil => exact ⟨hc, by simp⟩
  | cons x l ih =>
    have hx := hstep x List.mem_cons_self c hc
    rw [sweep] at h ⊢
    rcases hvisit : f x c with ⟨found, c'⟩
    rw [hvisit] at h hx
    cases found with
    | some found => cases h
    | none =>
      obtain ⟨hforward, hP⟩ := hx rfl
      obtain ⟨hend, hall⟩ := ih (IsTrans.trans _ _ _ hc hforward)
        (fun y hy => hstep y (List.mem_cons_of_mem x hy)) h
      exact ⟨hend, List.forall_mem_cons.mpr ⟨hP, hall⟩⟩

omit [DecidableEq α] in
/-- What was found was found at one of the nodes. -/
theorem sweep_some {R : Colours α → Colours α → Prop} [IsTrans (Colours α) R]
    (start : Colours α) {c : Colours α} {l : List α} {found : α} (hc : R start c)
    (hstep : ∀ x ∈ l, ∀ c, R start c → (f x c).1 = none → R c (f x c).2)
    (h : (sweep f l c).1 = some found) :
    ∃ x ∈ l, ∃ c, R start c ∧ (f x c).1 = some found := by
  induction l generalizing c with
  | nil => cases h
  | cons x l ih =>
    have hx := hstep x List.mem_cons_self c hc
    rw [sweep] at h
    rcases hvisit : f x c with ⟨hit, c'⟩
    rw [hvisit] at h hx
    cases hit with
    | some hit => exact ⟨x, List.mem_cons_self, c, hc, by rw [hvisit]; exact h⟩
    | none =>
      obtain ⟨y, hy, hrest⟩ := ih (IsTrans.trans _ _ _ hc (hx rfl))
        (fun y hy => hstep y (List.mem_cons_of_mem x hy)) h
      exact ⟨y, List.mem_cons_of_mem x hy, hrest⟩

end Sweep

section Path

def SamePath (c c' : Colours α) : Prop := c'.visiting = c.visiting

omit [DecidableEq α] in
instance : IsTrans (Colours α) SamePath := ⟨fun _ _ _ h h' => Eq.trans h' h⟩

variable {succ} {fuel : Nat} {x : α} {c : Colours α}

/-- A visit without a find leaves the path as it was. -/
theorem samePath_visit (h : (visit succ fuel x c).1 = none) :
    SamePath c (visit succ fuel x c).2 := by
  induction fuel generalizing x c with
  | zero => rfl
  | succ fuel ih =>
    rw [visit] at h ⊢
    split at h
    · cases h
    · rename_i hpath
      rw [if_neg hpath]
      split at h
      · rename_i hseen
        rw [if_pos hseen]
        rfl
      · rename_i hnew
        rw [if_neg hnew]
        have hsweep := sweep_none (f := visit succ fuel) (R := SamePath) (P := fun _ => True)
          ⟨insert x c.visiting, insert x c.visited⟩
          (c := ⟨insert x c.visiting, insert x c.visited⟩) (l := succ x) rfl
          fun y _ c' _ hnone => ⟨ih hnone, trivial⟩
        rcases hloop : sweep (visit succ fuel) (succ x)
          ⟨insert x c.visiting, insert x c.visited⟩ with ⟨found, c'⟩
        rw [hloop] at h hsweep
        cases found with
        | some found => cases h
        | none =>
          have hsame : c'.visiting = insert x c.visiting := (hsweep rfl).1
          show c'.visiting.erase x = c.visiting
          rw [hsame, Finset.erase_insert hpath]

/-- Where every node of the path leads to the one visited, a find is on a cycle. -/
theorem visit_sound {found : α} (hpath : ∀ p ∈ c.visiting, Relation.TransGen (Step succ) p x)
    (h : (visit succ fuel x c).1 = some found) : Relation.TransGen (Step succ) found found := by
  induction fuel generalizing x c with
  | zero => cases h
  | succ fuel ih =>
    rw [visit] at h
    split at h
    · rename_i hmem
      obtain rfl := Option.some.inj h
      exact hpath x hmem
    · split at h
      · cases h
      · have hloop : (sweep (visit succ fuel) (succ x)
            ⟨insert x c.visiting, insert x c.visited⟩).1 = some found := by
          split at h
          · rename_i heq
            rw [heq]
            exact h
          · cases h
        obtain ⟨y, hy, c', hsame, hfound⟩ := sweep_some (R := SamePath) _ rfl
          (fun y _ c' _ hnone => samePath_visit hnone) hloop
        refine ih (fun p hp => ?_) hfound
        rw [show c'.visiting = insert x c.visiting from hsame] at hp
        rcases Finset.mem_insert.mp hp with rfl | hp
        · exact .single hy
        · exact (hpath p hp).tail hy

end Path

section Finished

variable {succ}

/-- Paths end at every node that was entered and left. -/
def Settled (succ : α → List α) (c : Colours α) : Prop :=
  ∀ x ∈ c.visited, x ∉ c.visiting → Ends succ x

structure Advances (succ : α → List α) (c c' : Colours α) : Prop where
  path : c'.visiting = c.visiting
  visited : c.visited ⊆ c'.visited
  settled : Settled succ c'

instance : IsTrans (Colours α) (Advances succ) where
  trans _ _ _ h h' := ⟨h'.path.trans h.path, h.visited.trans h'.visited, h'.settled⟩

theorem Settled.enter {c : Colours α} (h : Settled succ c) (x : α) :
    Settled succ ⟨insert x c.visiting, insert x c.visited⟩ := by
  intro z hz hout
  have hne : z ≠ x := by
    rintro rfl
    exact hout (Finset.mem_insert_self z c.visiting)
  exact h z (Finset.mem_of_mem_insert_of_ne hz hne) fun hin => hout (Finset.mem_insert_of_mem hin)

/-- A visit without a find has seen every path from its node end. -/
theorem visit_complete {nodes : Finset α} (hnodes : ∀ x ∈ nodes, ∀ y ∈ succ x, y ∈ nodes)
    {fuel : Nat} {x : α} {c : Colours α} (hx : x ∈ nodes) (hfuel : (nodes \ c.visited).card < fuel)
    (hc : Settled succ c) (h : (visit succ fuel x c).1 = none) :
    Advances succ c (visit succ fuel x c).2 ∧ Ends succ x := by
  induction fuel generalizing x c with
  | zero => omega
  | succ fuel ih =>
    rw [visit] at h ⊢
    split at h
    · cases h
    · rename_i hpath
      rw [if_neg hpath]
      split at h
      · rename_i hseen
        rw [if_pos hseen]
        exact ⟨⟨rfl, Finset.Subset.refl _, hc⟩, hc x hseen hpath⟩
      · rename_i hnew
        rw [if_neg hnew]
        set start : Colours α := ⟨insert x c.visiting, insert x c.visited⟩ with hstart
        have hless : (nodes \ start.visited).card < fuel := by
          have hlost : nodes \ insert x c.visited ⊂ nodes \ c.visited := by
            refine Finset.ssubset_iff_of_subset
              (Finset.sdiff_subset_sdiff subset_rfl (Finset.subset_insert x _)) |>.mpr ?_
            exact ⟨x, Finset.mem_sdiff.mpr ⟨hx, hnew⟩, by simp⟩
          have hlt := Finset.card_lt_card hlost
          simp only [hstart]
          omega
        have hsweep := sweep_none (f := visit succ fuel) (R := Advances succ) (P := Ends succ)
          start (c := start) (l := succ x) ⟨rfl, subset_rfl, hc.enter x⟩
          fun y hy c' hc' hnone => by
            have hcard : (nodes \ c'.visited).card ≤ (nodes \ start.visited).card :=
              Finset.card_le_card (Finset.sdiff_subset_sdiff subset_rfl hc'.visited)
            exact ih (hnodes x hx y hy) (by omega) hc'.settled hnone
        rcases hloop : sweep (visit succ fuel) (succ x) start with ⟨found, c'⟩
        rw [hloop] at h hsweep
        cases found with
        | some found => cases h
        | none =>
          obtain ⟨hadvances, hends⟩ := hsweep rfl
          have hend : Ends succ x := Acc.intro x hends
          refine ⟨⟨?_, ?_, ?_⟩, hend⟩
          · show c'.visiting.erase x = c.visiting
            rw [show c'.visiting = insert x c.visiting from hadvances.path,
              Finset.erase_insert hpath]
          · exact (Finset.subset_insert x c.visited).trans hadvances.visited
          · intro z hz hout
            by_cases hzx : z = x
            · exact hzx ▸ hend
            · refine hadvances.settled z hz fun hin => hout ?_
              exact Finset.mem_erase.mpr ⟨hzx, hin⟩

end Finished

section Find

variable {succ} {fuel : Nat} {order : List α}

theorem find_sound {found : α} (h : find succ fuel order = some found) :
    Relation.TransGen (Step succ) found found := by
  obtain ⟨x, -, c, hsame, hfound⟩ := sweep_some (R := SamePath) ⟨∅, ∅⟩ rfl
    (fun y _ c _ hnone => samePath_visit hnone) h
  refine visit_sound (fun p hp => ?_) hfound
  rw [show c.visiting = ∅ from hsame] at hp
  exact absurd hp (Finset.notMem_empty p)

/-- In whatever order its nodes are tried, a graph has a find if it has a cycle. -/
theorem find_isSome_iff (nodes : Finset α) (hnodes : ∀ x ∈ nodes, ∀ y ∈ succ x, y ∈ nodes)
    (horder : ∀ x ∈ order, x ∈ nodes) (hcovers : ∀ x, succ x ≠ [] → x ∈ order)
    (hfuel : nodes.card < fuel) :
    (find succ fuel order).isSome = true ↔ ∃ x, Relation.TransGen (Step succ) x x := by
  constructor
  · intro h
    obtain ⟨found, hfound⟩ := Option.isSome_iff_exists.mp h
    exact ⟨found, find_sound hfound⟩
  · rintro ⟨x, hcycle⟩
    by_contra hmissed
    have hnone : (sweep (visit succ fuel) order ⟨∅, ∅⟩).1 = none := by
      simpa [find] using hmissed
    have hends := (sweep_none (f := visit succ fuel) (R := Advances succ) (P := Ends succ)
      ⟨∅, ∅⟩ (c := ⟨∅, ∅⟩) (l := order) ⟨rfl, subset_rfl, fun z hz => by simp at hz⟩
      (fun y hy c hc hy' => visit_complete hnodes (horder y hy) (by
        have hcard := Finset.card_le_card (Finset.sdiff_subset (s := nodes) (t := c.visited))
        omega) hc.settled hy') hnone).2
    have hx : succ x ≠ [] := by
      obtain ⟨y, hy, -⟩ := Relation.TransGen.head'_iff.mp hcycle
      exact List.ne_nil_of_mem hy
    exact (hends x (hcovers x hx)).acyclic hcycle

end Find

end CycleSearch
