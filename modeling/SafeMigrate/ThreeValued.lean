import Mathlib.Data.List.Basic

/-! Three-valued logic: a condition is true, false or unknown. -/

namespace ThreeValued

/-- `none` is unknown. -/
abbrev Truth := Option Bool

def negate (x : Truth) : Truth := x.map (!·)

def both : Truth → Truth → Truth
  | some false, _ => some false
  | _, some false => some false
  | some true, some true => some true
  | _, _ => none

def either : Truth → Truth → Truth
  | some true, _ => some true
  | _, some true => some true
  | some false, some false => some false
  | _, _ => none

def all (xs : List Truth) : Truth := xs.foldr both (some true)

def any (xs : List Truth) : Truth := xs.foldr either (some false)

@[simp]
theorem negate_eq_true {x : Truth} : negate x = some true ↔ x = some false := by
  cases x with
  | none => simp [negate]
  | some x => cases x <;> simp [negate]

theorem both_eq_true {x y : Truth} : both x y = some true ↔ x = some true ∧ y = some true := by
  rcases x with _ | _ | _ <;> rcases y with _ | _ | _ <;> decide

theorem both_eq_false {x y : Truth} : both x y = some false ↔ x = some false ∨ y = some false := by
  rcases x with _ | _ | _ <;> rcases y with _ | _ | _ <;> decide

theorem either_eq_true {x y : Truth} : either x y = some true ↔ x = some true ∨ y = some true := by
  rcases x with _ | _ | _ <;> rcases y with _ | _ | _ <;> decide

theorem either_eq_false {x y : Truth} :
    either x y = some false ↔ x = some false ∧ y = some false := by
  rcases x with _ | _ | _ <;> rcases y with _ | _ | _ <;> decide

@[simp]
theorem both_true_left (x : Truth) : both (some true) x = x := by
  rcases x with _ | _ | _ <;> rfl

@[simp]
theorem both_true_right (x : Truth) : both x (some true) = x := by
  rcases x with _ | _ | _ <;> rfl

@[simp]
theorem both_false_left (x : Truth) : both (some false) x = some false := rfl

@[simp]
theorem either_true_left (x : Truth) : either (some true) x = some true := rfl

@[simp]
theorem either_false_left (x : Truth) : either (some false) x = x := by
  rcases x with _ | _ | _ <;> rfl

@[simp]
theorem all_eq_true {xs : List Truth} : all xs = some true ↔ ∀ x ∈ xs, x = some true := by
  induction xs with
  | nil => simp [all]
  | cons x xs ih => rw [all, List.foldr_cons, both_eq_true, ← all, ih, List.forall_mem_cons]

@[simp]
theorem all_eq_false {xs : List Truth} : all xs = some false ↔ ∃ x ∈ xs, x = some false := by
  induction xs with
  | nil => simp [all]
  | cons x xs ih => rw [all, List.foldr_cons, both_eq_false, ← all, ih, List.exists_mem_cons_iff]

@[simp]
theorem any_eq_true {xs : List Truth} : any xs = some true ↔ ∃ x ∈ xs, x = some true := by
  induction xs with
  | nil => simp [any]
  | cons x xs ih => rw [any, List.foldr_cons, either_eq_true, ← any, ih, List.exists_mem_cons_iff]

@[simp]
theorem any_eq_false {xs : List Truth} : any xs = some false ↔ ∀ x ∈ xs, x = some false := by
  induction xs with
  | nil => simp [any]
  | cons x xs ih => rw [any, List.foldr_cons, either_eq_false, ← any, ih, List.forall_mem_cons]

/-- Conditions that are never unknown are never unknown together. -/
theorem all_ne_none {xs : List Truth} (h : ∀ x ∈ xs, x ≠ none) : all xs ≠ none := by
  intro hnone
  have htrue : ¬∀ x ∈ xs, x = some true := by
    rw [← all_eq_true, hnone]
    simp
  have hfalse : ¬∃ x ∈ xs, x = some false := by
    rw [← all_eq_false, hnone]
    simp
  refine htrue fun x hx => ?_
  cases hvalue : x with
  | none => exact absurd hvalue (h x hx)
  | some value =>
    cases value with
    | true => rfl
    | false => exact absurd ⟨x, hx, hvalue⟩ hfalse

theorem any_ne_none {xs : List Truth} (h : ∀ x ∈ xs, x ≠ none) : any xs ≠ none := by
  intro hnone
  have htrue : ¬∃ x ∈ xs, x = some true := by
    rw [← any_eq_true, hnone]
    simp
  have hfalse : ¬∀ x ∈ xs, x = some false := by
    rw [← any_eq_false, hnone]
    simp
  refine hfalse fun x hx => ?_
  cases hvalue : x with
  | none => exact absurd hvalue (h x hx)
  | some value =>
    cases value with
    | true => exact absurd ⟨x, hx, hvalue⟩ htrue
    | false => rfl

/-- A conjunction is unknown when a part is, and no part is false. -/
theorem all_eq_none {xs : List Truth} :
    all xs = none ↔ none ∈ xs ∧ ∀ x ∈ xs, x ≠ some false := by
  constructor
  · intro hnone
    refine ⟨?_, fun x hx hfalse => ?_⟩
    · by_contra hnot
      exact all_ne_none (fun x hx heq => hnot (heq ▸ hx)) hnone
    · rw [all_eq_false.mpr ⟨x, hx, hfalse⟩] at hnone
      cases hnone
  · rintro ⟨hmem, hnot⟩
    cases hall : all xs with
    | none => rfl
    | some value =>
      cases value with
      | true => cases all_eq_true.mp hall none hmem
      | false =>
        obtain ⟨x, hx, hfalse⟩ := all_eq_false.mp hall
        exact absurd hfalse (hnot x hx)

theorem any_eq_none {xs : List Truth} :
    any xs = none ↔ none ∈ xs ∧ ∀ x ∈ xs, x ≠ some true := by
  constructor
  · intro hnone
    refine ⟨?_, fun x hx htrue => ?_⟩
    · by_contra hnot
      exact any_ne_none (fun x hx heq => hnot (heq ▸ hx)) hnone
    · rw [any_eq_true.mpr ⟨x, hx, htrue⟩] at hnone
      cases hnone
  · rintro ⟨hmem, hnot⟩
    cases hany : any xs with
    | none => rfl
    | some value =>
      cases value with
      | true =>
        obtain ⟨x, hx, htrue⟩ := any_eq_true.mp hany
        exact absurd htrue (hnot x hx)
      | false => cases any_eq_false.mp hany none hmem

end ThreeValued
