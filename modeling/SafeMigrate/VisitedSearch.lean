import Mathlib.Data.Finset.Card
import Mathlib.Logic.Relation

/-! Depth-first search for a target with a visited set that stops at the first hit.
With more fuel than inner nodes it finds a target exactly if one is reachable. -/

namespace VisitedSearch

variable {α : Type} [DecidableEq α] (succ : α → List α) (target : α → Bool)

/-- One successor, unless a target has been met. -/
def visit (walk : α → Finset α → Bool × Finset α) (acc : Bool × Finset α) (y : α) :
    Bool × Finset α :=
  if acc.1 then acc
  else if target y then (true, acc.2)
  else walk y acc.2

def search : Nat → α → Finset α → Bool × Finset α
  | 0, _, visited => (false, visited)
  | fuel + 1, x, visited =>
    if x ∈ visited then (false, visited)
    else (succ x).foldl (visit target (search fuel)) (false, insert x visited)

def Step (x y : α) : Prop := y ∈ succ x

/-- What came in since leads to no target, and only to what is in. -/
def Closed (before after : Finset α) : Prop :=
  ∀ x ∈ after, x ∉ before → ∀ y ∈ succ x, target y = false ∧ y ∈ after

variable {succ target} {walk : α → Finset α → Bool × Finset α} {visited : Finset α}

omit [DecidableEq α] in
theorem foldl_visit_found (l : List α) : (l.foldl (visit target walk) (true, visited)) =
    (true, visited) := by
  induction l with
  | nil => rfl
  | cons y l ih => rw [List.foldl_cons, visit, if_pos rfl, ih]

theorem search_sound {fuel : Nat} {x : α} (h : (search succ target fuel x visited).1 = true) :
    ∃ y, Relation.TransGen (Step succ) x y ∧ target y = true := by
  induction fuel generalizing x visited with
  | zero => cases h
  | succ fuel ih =>
    rw [search] at h
    split at h
    · cases h
    · have hloop (l : List α) (acc : Finset α) (hl : ∀ y ∈ l, y ∈ succ x)
          (hfound : (l.foldl (visit target (search succ target fuel)) (false, acc)).1 = true) :
          ∃ y, Relation.TransGen (Step succ) x y ∧ target y = true := by
        induction l generalizing acc with
        | nil => cases hfound
        | cons y l ihl =>
          have hy : Step succ x y := hl y List.mem_cons_self
          have hrest : ∀ z ∈ l, z ∈ succ x := fun z hz => hl z (List.mem_cons_of_mem _ hz)
          rw [List.foldl_cons, visit, if_neg Bool.false_ne_true] at hfound
          split at hfound
          · rename_i htarget
            exact ⟨y, .single hy, htarget⟩
          · cases hsearch : search succ target fuel y acc with
            | mk found after =>
              rw [hsearch] at hfound
              cases found with
              | true =>
                obtain ⟨z, hz, htarget⟩ := ih (congrArg Prod.fst hsearch)
                exact ⟨z, .head hy hz, htarget⟩
              | false => exact ihl after hrest hfound
      exact hloop (succ x) _ (fun y hy => hy) h

theorem Closed.trans {before middle after : Finset α} (h : Closed succ target before middle)
    (h' : Closed succ target middle after) (hsubset : middle ⊆ after) :
    Closed succ target before after := by
  intro x hx hbefore y hy
  by_cases hmiddle : x ∈ middle
  · obtain ⟨htarget, hmem⟩ := h x hmiddle hbefore y hy
    exact ⟨htarget, hsubset hmem⟩
  · exact h' x hx hmiddle y hy

/-- A search that meets no target leaves a closed set of visited nodes. -/
theorem search_spec {nodes : Finset α}
    (hnodes : ∀ x y, y ∈ succ x → target y = false → y ∉ nodes → succ y = [])
    {fuel : Nat} {x : α} (hx : x ∉ nodes → succ x = []) (hfuel : (nodes \ visited).card < fuel)
    (h : (search succ target fuel x visited).1 = false) :
    visited ⊆ (search succ target fuel x visited).2 ∧ x ∈ (search succ target fuel x visited).2 ∧
      Closed succ target visited (search succ target fuel x visited).2 := by
  induction fuel generalizing x visited with
  | zero => omega
  | succ fuel ih =>
    rw [search] at h ⊢
    split at h
    · rename_i hmem
      rw [if_pos hmem]
      exact ⟨Finset.Subset.refl _, hmem, fun z hz hout => absurd hz hout⟩
    · rename_i hmem
      rw [if_neg hmem]
      have hloop (l : List α) (acc : Finset α) (hl : ∀ y ∈ l, y ∈ succ x)
          (hcard : l ≠ [] → (nodes \ acc).card < fuel)
          (hmissed : (l.foldl (visit target (search succ target fuel)) (false, acc)).1 = false) :
          acc ⊆ (l.foldl (visit target (search succ target fuel)) (false, acc)).2 ∧
          (∀ y ∈ l, target y = false ∧
            y ∈ (l.foldl (visit target (search succ target fuel)) (false, acc)).2) ∧
          Closed succ target acc
            (l.foldl (visit target (search succ target fuel)) (false, acc)).2 := by
        induction l generalizing acc with
        | nil => exact ⟨Finset.Subset.refl _, by simp, fun z hz hout => absurd hz hout⟩
        | cons y l ihl =>
          have hy : y ∈ succ x := hl y List.mem_cons_self
          have hrest : ∀ z ∈ l, z ∈ succ x := fun z hz => hl z (List.mem_cons_of_mem _ hz)
          rw [List.foldl_cons, visit, if_neg Bool.false_ne_true] at hmissed ⊢
          cases htarget : target y with
          | true =>
            rw [htarget, if_pos rfl, foldl_visit_found] at hmissed
            cases hmissed
          | false =>
            rw [htarget, if_neg Bool.false_ne_true] at hmissed
            rw [if_neg Bool.false_ne_true]
            have hspec := @ih acc y (hnodes x y hy htarget) (hcard (List.cons_ne_nil _ _))
            cases hsearch : search succ target fuel y acc with
            | mk found after =>
              rw [hsearch] at hmissed hspec
              cases found with
              | true =>
                rw [foldl_visit_found] at hmissed
                cases hmissed
              | false =>
                obtain ⟨hsubset, hmemy, hclosed⟩ := hspec rfl
                have hless : (nodes \ after).card ≤ (nodes \ acc).card :=
                  Finset.card_le_card (Finset.sdiff_subset_sdiff (Finset.Subset.refl _) hsubset)
                have hcardAcc := hcard (List.cons_ne_nil _ _)
                obtain ⟨hsubset', hall, hclosed'⟩ := ihl after hrest (fun _ => by omega) hmissed
                refine ⟨hsubset.trans hsubset', ?_, hclosed.trans hclosed' hsubset'⟩
                intro z hz
                rcases List.mem_cons.mp hz with rfl | hz
                · exact ⟨htarget, hsubset' hmemy⟩
                · exact hall z hz
      have hcard : succ x ≠ [] → (nodes \ insert x visited).card < fuel := by
        intro hne
        have hinner : x ∈ nodes := by
          by_contra houter
          exact hne (hx houter)
        have hlost : nodes \ insert x visited ⊂ nodes \ visited := by
          refine Finset.ssubset_iff_subset_ne.mpr ⟨?_, fun heq => ?_⟩
          · exact Finset.sdiff_subset_sdiff (Finset.Subset.refl _) (Finset.subset_insert x visited)
          · have hin : x ∈ nodes \ visited := Finset.mem_sdiff.mpr ⟨hinner, hmem⟩
            rw [← heq] at hin
            exact (Finset.mem_sdiff.mp hin).2 (Finset.mem_insert_self x visited)
        have hlt := Finset.card_lt_card hlost
        omega
      obtain ⟨hsubset, hall, hclosed⟩ := hloop (succ x) (insert x visited) (fun y hy => hy) hcard h
      have hin := hsubset (Finset.mem_insert_self x visited)
      refine ⟨(Finset.subset_insert x visited).trans hsubset, hin, fun z hz hout => ?_⟩
      by_cases hzx : z = x
      · rw [hzx]
        exact hall
      · refine hclosed z hz fun hmemz => ?_
        rcases Finset.mem_insert.mp hmemz with heq | hold
        · exact hzx heq
        · exact hout hold

/-- With more fuel than inner nodes the search is exact. -/
theorem search_iff {nodes : Finset α}
    (hnodes : ∀ x y, y ∈ succ x → target y = false → y ∉ nodes → succ y = [])
    {fuel : Nat} (hfuel : nodes.card < fuel) (x : α) :
    (search succ target (fuel + 1) x ∅).1 = true ↔
      ∃ y, Relation.TransGen (Step succ) x y ∧ target y = true := by
  refine ⟨search_sound, fun ⟨y, hy, htarget⟩ => ?_⟩
  by_contra hmissed
  rw [Bool.not_eq_true] at hmissed
  have hwide : ∀ z w, w ∈ succ z → target w = false → w ∉ insert x nodes → succ w = [] :=
    fun z w hw hmiss hout => hnodes z w hw hmiss fun hin => hout (Finset.mem_insert_of_mem hin)
  have hcard : (insert x nodes \ ∅).card < fuel + 1 := by
    have hinsert := Finset.card_insert_le x nodes
    rw [Finset.sdiff_empty]
    omega
  obtain ⟨-, hin, hclosed⟩ := search_spec hwide
    (fun hout => absurd (Finset.mem_insert_self x nodes) hout) hcard hmissed
  have hall : ∀ z, Relation.TransGen (Step succ) x z →
      target z = false ∧ z ∈ (search succ target (fuel + 1) x ∅).2 := by
    intro z hz
    induction hz with
    | single hstep => exact hclosed x hin (Finset.notMem_empty x) _ hstep
    | tail _ hstep ih => exact hclosed _ ih.2 (Finset.notMem_empty _) _ hstep
  rw [(hall y hy).1] at htarget
  cases htarget

end VisitedSearch
