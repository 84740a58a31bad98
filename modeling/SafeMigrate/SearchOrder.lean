import SafeMigrate.Worklist

/-! A worklist search that may stop early: the order in which it comes to the
elements, and its answer as the first verdict in this order. -/

namespace SafeMigrate.Worklist

variable {α ρ : Type} [DecidableEq α]

/-- Elements in the order in which a depth-first search comes to them. -/
def preorder (next : α → List α) : Nat → List α → List α → List α
  | 0, _, _ => []
  | _ + 1, _, [] => []
  | fuel + 1, visited, a :: pending =>
    if a ∈ visited then preorder next fuel visited pending
    else a :: preorder next fuel (a :: visited) ((next a).reverse ++ pending)

/-- A search that stops at a verdict. It returns `none` out of fuel, and `some none`
for an empty stack. -/
def seek (verdict : α → Option ρ) (next : α → List α) :
    Nat → List α → List α → Option (Option ρ)
  | 0, _, _ => none
  | _ + 1, _, [] => some none
  | fuel + 1, visited, a :: pending =>
    if a ∈ visited then seek verdict next fuel visited pending
    else match verdict a with
      | some r => some (some r)
      | none => seek verdict next fuel (a :: visited) ((next a).reverse ++ pending)

theorem reachable_of_mem_preorder {next : α → List α} {fuel : Nat} {visited pending : List α}
    {a : α} (h : a ∈ preorder next fuel visited pending) :
    ∃ start ∈ pending, Relation.ReflTransGen (fun a b => b ∈ next a) start a := by
  induction fuel generalizing visited pending with
  | zero => cases h
  | succ fuel ih =>
    cases pending with
    | nil => cases h
    | cons b pending =>
      rw [preorder] at h
      split at h
      · obtain ⟨start, hstart, hpath⟩ := ih h
        exact ⟨start, List.mem_cons_of_mem b hstart, hpath⟩
      · rcases List.mem_cons.mp h with rfl | h
        · exact ⟨a, List.mem_cons_self, Relation.ReflTransGen.refl⟩
        obtain ⟨start, hstart, hpath⟩ := ih h
        rcases List.mem_append.mp hstart with hnext | hstart
        · exact ⟨b, List.mem_cons_self, hpath.head (List.mem_reverse.mp hnext)⟩
        · exact ⟨start, List.mem_cons_of_mem b hstart, hpath⟩

section Visit

variable {domain : List α} {weight : α → Nat} {next : α → List α}
  (hweight : ∀ a, (next a).length ≤ weight a) (hdomain : ∀ a, next a ⊆ domain)

include hweight

theorem fuelFor_visit {visited pending : List α} {a : α} (hmem : a ∈ domain) (ha : a ∉ visited) :
    fuelFor domain weight (a :: visited) ((next a).reverse ++ pending) <
      fuelFor domain weight visited (a :: pending) := by
  have hless := outstanding_visit domain weight ha fun hnot => absurd hmem hnot
  have hfound := hweight a
  unfold fuelFor
  rw [List.length_append, List.length_reverse, List.length_cons]
  omega

include hdomain

/-- With fuel for every element, the search stops, at the first verdict of the order. -/
theorem seek_eq (verdict : α → Option ρ) {fuel : Nat} {visited pending : List α}
    (hpending : pending ⊆ domain) (hfuel : fuelFor domain weight visited pending ≤ fuel) :
    seek verdict next (fuel + 1) visited pending =
      some ((preorder next fuel visited pending).findSome? verdict) := by
  induction fuel generalizing visited pending with
  | zero =>
    have hempty : pending = [] := by
      unfold fuelFor at hfuel
      exact List.length_eq_zero_iff.mp (by omega)
    rw [hempty]
    rfl
  | succ fuel ih =>
    cases pending with
    | nil => rfl
    | cons a pending =>
      obtain ⟨hmem, hrest⟩ := List.cons_subset.mp hpending
      rw [seek, preorder]
      by_cases ha : a ∈ visited
      · rw [if_pos ha, if_pos ha]
        refine ih hrest ?_
        unfold fuelFor at hfuel ⊢
        rw [List.length_cons] at hfuel
        omega
      · rw [if_neg ha, if_neg ha, List.findSome?_cons]
        have hless := @fuelFor_visit _ _ _ _ _ hweight visited pending a hmem ha
        cases verdict a with
        | some r => rfl
        | none =>
          refine ih (List.append_subset.mpr ⟨fun b hb => ?_, hrest⟩) (by omega)
          exact hdomain a (List.mem_reverse.mp hb)

/-- What the search has come to at its end leads nowhere else. -/
theorem preorder_closed {fuel : Nat} {visited pending : List α} (hpending : pending ⊆ domain)
    (hfuel : fuelFor domain weight visited pending ≤ fuel)
    (hvisited : ∀ a ∈ visited, ∀ b ∈ next a, b ∈ visited ∨ b ∈ pending) :
    (∀ a ∈ pending, a ∈ visited ∨ a ∈ preorder next fuel visited pending) ∧
    ∀ a, a ∈ visited ∨ a ∈ preorder next fuel visited pending →
      ∀ b ∈ next a, b ∈ visited ∨ b ∈ preorder next fuel visited pending := by
  induction fuel generalizing visited pending with
  | zero =>
    have hempty : pending = [] := by
      unfold fuelFor at hfuel
      exact List.length_eq_zero_iff.mp (by omega)
    subst hempty
    simpa [preorder] using hvisited
  | succ fuel ih =>
    cases pending with
    | nil => simpa [preorder] using hvisited
    | cons c pending =>
      obtain ⟨hmem, hrest⟩ := List.cons_subset.mp hpending
      rw [preorder]
      by_cases hc : c ∈ visited
      · rw [if_pos hc]
        have henough : fuelFor domain weight visited pending ≤ fuel := by
          unfold fuelFor at hfuel ⊢
          rw [List.length_cons] at hfuel
          omega
        obtain ⟨hin, hout⟩ := ih hrest henough fun a ha b hb => by
          rcases hvisited a ha b hb with hseen | hb
          · exact Or.inl hseen
          · rcases List.mem_cons.mp hb with rfl | hb
            · exact Or.inl hc
            · exact Or.inr hb
        refine ⟨fun a ha => ?_, hout⟩
        rcases List.mem_cons.mp ha with rfl | ha
        · exact Or.inl hc
        · exact hin a ha
      · rw [if_neg hc]
        have hless := @fuelFor_visit _ _ _ _ _ hweight visited pending c hmem hc
        have hmore : (next c).reverse ++ pending ⊆ domain :=
          List.append_subset.mpr ⟨fun b hb => hdomain c (List.mem_reverse.mp hb), hrest⟩
        obtain ⟨hin, hout⟩ := @ih (c :: visited) _ hmore (by omega) fun a ha b hb => by
          rcases List.mem_cons.mp ha with rfl | ha
          · exact Or.inr (List.mem_append_left _ (List.mem_reverse.mpr hb))
          · rcases hvisited a ha b hb with hseen | hb
            · exact Or.inl (List.mem_cons_of_mem c hseen)
            · rcases List.mem_cons.mp hb with rfl | hb
              · exact Or.inl List.mem_cons_self
              · exact Or.inr (List.mem_append_right _ hb)
        simp only [List.mem_cons] at hin hout ⊢
        refine ⟨fun a ha => ?_, fun a ha b hb => ?_⟩
        · rcases ha with rfl | ha
          · exact Or.inr (Or.inl rfl)
          · rcases hin a (List.mem_append_right _ ha) with (rfl | hseen) | horder
            · exact Or.inr (Or.inl rfl)
            · exact Or.inl hseen
            · exact Or.inr (Or.inr horder)
        · have hreached := hout a (by tauto) b hb
          tauto

/-- The order lists what can be reached, and nothing else. -/
theorem mem_preorder_iff {fuel : Nat} {pending : List α} (hpending : pending ⊆ domain)
    (hfuel : fuelFor domain weight [] pending ≤ fuel) {a : α} :
    a ∈ preorder next fuel [] pending ↔
      ∃ start ∈ pending, Relation.ReflTransGen (fun a b => b ∈ next a) start a := by
  refine ⟨reachable_of_mem_preorder, ?_⟩
  rintro ⟨start, hstart, hpath⟩
  obtain ⟨hin, hout⟩ := preorder_closed hweight hdomain hpending hfuel (by simp)
  simp only [List.not_mem_nil, false_or] at hin hout
  induction hpath with
  | refl => exact hin start hstart
  | tail _ hstep ih => exact hout _ ih _ hstep

end Visit

end SafeMigrate.Worklist
