import Mathlib.Data.Finset.Card
import Mathlib.Logic.Relation

/-! Depth-first walks with a visited set. A walk enters each node once,
follows the edges that lead on, and records the others. With enough fuel the
visited nodes are exactly those reachable from the start. -/

namespace VisitedWalk

variable {α β γ : Type}

/-- What a walk does at a node: its edges, where an edge leads, what is
recorded on entering a node and for an edge that leads nowhere. -/
structure Walker (α β γ : Type) where
  edges : α → List β
  next : α → β → Option α
  enter : α → γ → γ
  record : α → β → γ → γ

namespace Walker

variable (w : Walker α β γ)

/-- What a walk does with one edge of `x`. -/
def follow (walk : α → List α × γ → List α × γ) (x : α) (acc : List α × γ) (e : β) :
    List α × γ :=
  match w.next x e with
  | some y => walk y acc
  | none => (acc.1, w.record x e acc.2)

theorem follow_of_none {walk : α → List α × γ → List α × γ} {x : α} {e : β}
    (h : w.next x e = none) (acc : List α × γ) :
    w.follow walk x acc e = (acc.1, w.record x e acc.2) := by
  simp [follow, h]

theorem follow_of_some {walk : α → List α × γ → List α × γ} {x y : α} {e : β}
    (h : w.next x e = some y) (acc : List α × γ) : w.follow walk x acc e = walk y acc := by
  simp [follow, h]

variable [DecidableEq α]

def walk : Nat → α → List α × γ → List α × γ
  | 0, _, acc => acc
  | fuel + 1, x, acc =>
    if x ∈ acc.1 then acc
    else (w.edges x).foldl (w.follow (walk fuel) x) (x :: acc.1, w.enter x acc.2)

/-- The loop over the edges of a node. -/
def walkEdges (fuel : Nat) (x : α) (es : List β) (acc : List α × γ) : List α × γ :=
  es.foldl (w.follow (w.walk fuel) x) acc

theorem walk_succ (fuel : Nat) (x : α) (acc : List α × γ) :
    w.walk (fuel + 1) x acc =
      if x ∈ acc.1 then acc
      else w.walkEdges fuel x (w.edges x) (x :: acc.1, w.enter x acc.2) := rfl

theorem walkEdges_cons (fuel : Nat) (x : α) (e : β) (es : List β) (acc : List α × γ) :
    w.walkEdges fuel x (e :: es) acc =
      w.walkEdges fuel x es (w.follow (w.walk fuel) x acc e) := rfl

theorem walk_of_visited {fuel : Nat} {x : α} {acc : List α × γ} (h : x ∈ acc.1) :
    w.walk fuel x acc = acc := by
  cases fuel with
  | zero => rfl
  | succ fuel => rw [walk_succ, if_pos h]

def Step (a b : α) : Prop := ∃ e ∈ w.edges a, w.next a e = some b

theorem walkEdges_subset {fuel : Nat}
    (h : ∀ (y : α) (acc : List α × γ), acc.1 ⊆ (w.walk fuel y acc).1) (x : α) (es : List β)
    (acc : List α × γ) : acc.1 ⊆ (w.walkEdges fuel x es acc).1 := by
  induction es generalizing acc with
  | nil => exact List.Subset.refl _
  | cons e es ih =>
    rw [walkEdges_cons]
    cases hn : w.next x e with
    | none =>
      rw [w.follow_of_none hn]
      exact ih (acc.1, w.record x e acc.2)
    | some y =>
      rw [w.follow_of_some hn]
      exact List.Subset.trans (h y acc) (ih _)

theorem subset_walk (fuel : Nat) (x : α) (acc : List α × γ) : acc.1 ⊆ (w.walk fuel x acc).1 := by
  induction fuel generalizing x acc with
  | zero => exact List.Subset.refl _
  | succ fuel ih =>
    rw [walk_succ]
    split
    · exact List.Subset.refl _
    · exact List.Subset.trans (List.subset_cons_self x acc.1)
        (w.walkEdges_subset ih x (w.edges x) (x :: acc.1, w.enter x acc.2))

theorem mem_walk_self (fuel : Nat) (x : α) (acc : List α × γ) : x ∈ (w.walk (fuel + 1) x acc).1 := by
  rw [walk_succ]
  split
  · assumption
  · exact w.walkEdges_subset (w.subset_walk fuel) x (w.edges x) (x :: acc.1, w.enter x acc.2)
      (by simp)

/-- A walk visits nothing that is not reachable from its start. -/
theorem walk_sound {fuel : Nat} {x z : α} {acc : List α × γ} (hz : z ∈ (w.walk fuel x acc).1) :
    z ∈ acc.1 ∨ Relation.ReflTransGen w.Step x z := by
  induction fuel generalizing x acc with
  | zero => exact Or.inl hz
  | succ fuel ih =>
    rw [walk_succ] at hz
    split at hz
    · exact Or.inl hz
    · have hloop : ∀ (es : List β) (acc' : List α × γ), es ⊆ w.edges x →
          z ∈ (w.walkEdges fuel x es acc').1 →
          z ∈ acc'.1 ∨ Relation.ReflTransGen w.Step x z := by
        intro es
        induction es with
        | nil => exact fun acc' _ h => Or.inl h
        | cons e es ihes =>
          intro acc' hes h
          rw [walkEdges_cons] at h
          have hrest := ihes _ (fun a ha => hes (List.mem_cons_of_mem e ha)) h
          cases hn : w.next x e with
          | none => simpa [w.follow_of_none hn] using hrest
          | some y =>
            rw [w.follow_of_some hn] at hrest
            rcases hrest with hy | hy
            · rcases ih hy with hacc | hreach
              · exact Or.inl hacc
              · exact Or.inr (.head ⟨e, hes (by simp), hn⟩ hreach)
            · exact Or.inr hy
      rcases hloop _ _ (List.Subset.refl _) hz with h | h
      · rcases List.mem_cons.mp h with rfl | h
        · exact Or.inr .refl
        · exact Or.inl h
      · exact Or.inr h

/-- Entering a node leaves fewer nodes to visit. -/
theorem unvisited_lt {U : Finset α} {x : α} (hx : x ∈ U) {before after : List α} (hnew : x ∉ before)
    (hsub : x :: before ⊆ after) : (U \ after.toFinset).card < (U \ before.toFinset).card := by
  refine Finset.card_lt_card (Finset.ssubset_iff_of_subset ?_ |>.mpr ⟨x, ?_, ?_⟩)
  · intro a ha
    simp only [Finset.mem_sdiff, List.mem_toFinset] at ha ⊢
    exact ⟨ha.1, fun h => ha.2 (hsub (List.mem_cons_of_mem x h))⟩
  · simp [hx, hnew]
  · have hmem : x ∈ after := hsub (by simp)
    simp [hmem]

/-- Every node entered by a walk has all its successors visited, as long as
the fuel covers the nodes not visited yet. -/
theorem walk_closed {U : Finset α} (hU : ∀ a b, w.Step a b → b ∈ U) {fuel : Nat} {x : α}
    (hx : x ∈ U) {acc : List α × γ} (hfuel : (U \ acc.1.toFinset).card < fuel) {z b : α}
    (hz : z ∈ (w.walk fuel x acc).1) (hnew : z ∉ acc.1) (hb : w.Step z b) :
    b ∈ (w.walk fuel x acc).1 := by
  induction fuel generalizing x acc z b with
  | zero => omega
  | succ fuel ih =>
    rw [walk_succ] at hz ⊢
    split at hz
    · exact absurd hz hnew
    · rename_i hxacc
      rw [if_neg hxacc]
      have hsmall : ∀ visited : List α, x :: acc.1 ⊆ visited →
          (U \ visited.toFinset).card < fuel := by
        intro visited hv
        have hless := unvisited_lt hx hxacc hv
        omega
      -- Below the node, closure is an invariant of the loop over its edges.
      have hloop : ∀ (es : List β) (acc' : List α × γ), es ⊆ w.edges x → x :: acc.1 ⊆ acc'.1 →
          (∀ z ∈ acc'.1, z ∉ x :: acc.1 → ∀ b, w.Step z b → b ∈ acc'.1) →
          (∀ z ∈ (w.walkEdges fuel x es acc').1, z ∉ x :: acc.1 →
            ∀ b, w.Step z b → b ∈ (w.walkEdges fuel x es acc').1) ∧
          (∀ e ∈ es, ∀ b, w.next x e = some b → b ∈ (w.walkEdges fuel x es acc').1) := by
        intro es
        induction es with
        | nil => exact fun acc' _ _ hc => ⟨hc, by simp⟩
        | cons e es ihes =>
          intro acc' hes hsub hc
          rw [walkEdges_cons]
          have hes' : es ⊆ w.edges x := fun a ha => hes (List.mem_cons_of_mem e ha)
          cases hn : w.next x e with
          | none =>
            rw [w.follow_of_none hn]
            obtain ⟨h1, h2⟩ := ihes (acc'.1, w.record x e acc'.2) hes' hsub hc
            refine ⟨h1, ?_⟩
            intro e' he' b hb
            rcases List.mem_cons.mp he' with rfl | he'
            · simp [hn] at hb
            · exact h2 e' he' b hb
          | some y =>
            rw [w.follow_of_some hn]
            have hyU : y ∈ U := hU x y ⟨e, hes (by simp), hn⟩
            have hgrow := w.subset_walk fuel y acc'
            have hc' : ∀ z ∈ (w.walk fuel y acc').1, z ∉ x :: acc.1 →
                ∀ b, w.Step z b → b ∈ (w.walk fuel y acc').1 := by
              intro z hz hznew b hb
              by_cases hzold : z ∈ acc'.1
              · exact hgrow (hc z hzold hznew b hb)
              · exact ih hyU (hsmall acc'.1 hsub) hz hzold hb
            obtain ⟨h1, h2⟩ := ihes (w.walk fuel y acc') hes' (List.Subset.trans hsub hgrow) hc'
            refine ⟨h1, ?_⟩
            intro e' he' b hb
            rcases List.mem_cons.mp he' with rfl | he'
            · have hby : b = y := by simpa [hn] using hb.symm
              subst hby
              have hpos : 0 < fuel := by
                have := hsmall acc'.1 hsub
                omega
              obtain ⟨m, rfl⟩ : ∃ m, fuel = m + 1 := ⟨fuel - 1, by omega⟩
              exact w.walkEdges_subset (w.subset_walk (m + 1)) x es _ (w.mem_walk_self m b acc')
            · exact h2 e' he' b hb
      obtain ⟨h1, h2⟩ := hloop (w.edges x) (x :: acc.1, w.enter x acc.2) (List.Subset.refl _)
        (List.Subset.refl _) (fun z hz hzn => absurd hz hzn)
      by_cases hzx : z = x
      · subst hzx
        obtain ⟨e, he, hn⟩ := hb
        exact h2 e he b hn
      · exact h1 z hz (by simp [hzx, hnew]) b hb

theorem mem_walk_iff {U : Finset α} (hU : ∀ a b, w.Step a b → b ∈ U) {fuel : Nat} {x : α}
    (hx : x ∈ U) (hfuel : U.card < fuel) (out : γ) (z : α) :
    z ∈ (w.walk fuel x ([], out)).1 ↔ Relation.ReflTransGen w.Step x z := by
  have hfuel' : (U \ ([] : List α).toFinset).card < fuel := by simpa using hfuel
  constructor
  · intro hz
    simpa using w.walk_sound hz
  · intro hreach
    induction hreach with
    | refl =>
      obtain ⟨m, rfl⟩ : ∃ m, fuel = m + 1 := ⟨fuel - 1, by omega⟩
      exact w.mem_walk_self m x ([], out)
    | tail _ hstep ih => exact w.walk_closed hU hx hfuel' ih (by simp) hstep

/-- A walk whose fuel covers the nodes not visited yet has come to its end. -/
theorem walk_fuel {U : Finset α} (hU : ∀ a b, w.Step a b → b ∈ U) {fuel fuel' : Nat} {x : α}
    (hx : x ∈ U) {acc : List α × γ} (hfuel : (U \ acc.1.toFinset).card < fuel)
    (hfuel' : (U \ acc.1.toFinset).card < fuel') : w.walk fuel x acc = w.walk fuel' x acc := by
  induction fuel generalizing fuel' x acc with
  | zero => omega
  | succ fuel ih =>
    obtain ⟨fuel', rfl⟩ : ∃ m, fuel' = m + 1 := ⟨fuel' - 1, by omega⟩
    rw [walk_succ, walk_succ]
    by_cases hvisited : x ∈ acc.1
    · rw [if_pos hvisited, if_pos hvisited]
    rw [if_neg hvisited, if_neg hvisited]
    have hloop : ∀ (es : List β) (acc' : List α × γ), es ⊆ w.edges x → x :: acc.1 ⊆ acc'.1 →
        w.walkEdges fuel x es acc' = w.walkEdges fuel' x es acc' := by
      intro es
      induction es with
      | nil => exact fun _ _ _ => rfl
      | cons e es ihes =>
        intro acc' hes hsub
        have hes' : es ⊆ w.edges x := fun a ha => hes (List.mem_cons_of_mem e ha)
        rw [walkEdges_cons, walkEdges_cons]
        cases hn : w.next x e with
        | none =>
          rw [w.follow_of_none hn, w.follow_of_none hn]
          exact ihes _ hes' hsub
        | some y =>
          have hyU : y ∈ U := hU x y ⟨e, hes (by simp), hn⟩
          have hless := unvisited_lt hx hvisited hsub
          rw [w.follow_of_some hn, w.follow_of_some hn,
            @ih fuel' y hyU acc' (by omega) (by omega)]
          exact ihes _ hes' (List.Subset.trans hsub (w.subset_walk fuel' y acc'))
    exact hloop (w.edges x) _ (List.Subset.refl _) (List.Subset.refl _)

/-- Nodes visited in two stretches of a walk are those of the whole. -/
theorem exists_visited_split {p : α → Prop} {l₀ l₁ l₂ : List α} (h₁ : l₀ ⊆ l₁) (h₂ : l₁ ⊆ l₂) :
    (∃ z ∈ l₂, z ∉ l₀ ∧ p z) ↔ (∃ z ∈ l₁, z ∉ l₀ ∧ p z) ∨ ∃ z ∈ l₂, z ∉ l₁ ∧ p z := by
  constructor
  · rintro ⟨z, hz, hz₀, hp⟩
    by_cases hz₁ : z ∈ l₁
    · exact Or.inl ⟨z, hz₁, hz₀, hp⟩
    · exact Or.inr ⟨z, hz, hz₁, hp⟩
  · rintro (⟨z, hz, hz₀, hp⟩ | ⟨z, hz, hz₁, hp⟩)
    · exact ⟨z, h₂ hz, hz₀, hp⟩
    · exact ⟨z, hz, fun hz₀ => hz₁ (h₁ hz₀), hp⟩

/-- A fact about the record holds after a walk if it held before, or if some
node entered by the walk contributed it. -/
theorem walk_record {holds : γ → Prop} {entered : α → Prop} {emits : α → β → Prop}
    (henter : ∀ x out, holds (w.enter x out) ↔ holds out ∨ entered x)
    (hrecord : ∀ x e out, w.next x e = none →
      (holds (w.record x e out) ↔ holds out ∨ emits x e))
    (fuel : Nat) (x : α) (acc : List α × γ) :
    holds (w.walk fuel x acc).2 ↔ holds acc.2 ∨
      ∃ z ∈ (w.walk fuel x acc).1, z ∉ acc.1 ∧
        (entered z ∨ ∃ e ∈ w.edges z, w.next z e = none ∧ emits z e) := by
  induction fuel generalizing x acc with
  | zero =>
    constructor
    · exact Or.inl
    · rintro (h | ⟨z, hz, hnew, -⟩)
      · exact h
      · exact absurd hz hnew
  | succ fuel ih =>
    rw [walk_succ]
    split
    · constructor
      · exact Or.inl
      · rintro (h | ⟨z, hz, hnew, -⟩)
        · exact h
        · exact absurd hz hnew
    · rename_i hx
      have hloop : ∀ (es : List β) (acc' : List α × γ),
          holds (w.walkEdges fuel x es acc').2 ↔
            (holds acc'.2 ∨ ∃ e ∈ es, w.next x e = none ∧ emits x e) ∨
            ∃ z ∈ (w.walkEdges fuel x es acc').1, z ∉ acc'.1 ∧
              (entered z ∨ ∃ e ∈ w.edges z, w.next z e = none ∧ emits z e) := by
        intro es
        induction es with
        | nil =>
          intro acc'
          constructor
          · exact fun h => Or.inl (Or.inl h)
          · rintro ((h | ⟨e, he, -⟩) | ⟨z, hz, hnew, -⟩)
            · exact h
            · simp at he
            · exact absurd hz hnew
        | cons e es ihes =>
          intro acc'
          rw [walkEdges_cons]
          cases hn : w.next x e with
          | none =>
            rw [w.follow_of_none hn, ihes, hrecord x e acc'.2 hn]
            simp only [List.exists_mem_cons_iff, hn, true_and, or_assoc]
          | some y =>
            have hgrow := w.subset_walk fuel y acc'
            have hrest := w.walkEdges_subset (w.subset_walk fuel) x es (w.walk fuel y acc')
            rw [w.follow_of_some hn, ihes, ih y acc', exists_visited_split hgrow hrest]
            simp only [List.exists_mem_cons_iff, hn, reduceCtorEq, false_and, false_or]
            rw [or_assoc, or_or_or_comm]
      have hfinal := hloop (w.edges x) (x :: acc.1, w.enter x acc.2)
      have hgrow := w.walkEdges_subset (w.subset_walk fuel) x (w.edges x)
        (x :: acc.1, w.enter x acc.2)
      have hold : ¬∃ z ∈ acc.1, z ∉ acc.1 ∧
          (entered z ∨ ∃ e ∈ w.edges z, w.next z e = none ∧ emits z e) := by
        rintro ⟨z, hz, hnew, -⟩
        exact hnew hz
      rw [hfinal, henter, exists_visited_split (List.subset_cons_self x acc.1) hgrow]
      simp only [List.exists_mem_cons_iff, hx, hold, not_false_eq_true, true_and, or_false,
        or_assoc]

end Walker

end VisitedWalk
