import Mathlib.Data.Finset.Card

/-! Rounds of steps that are repeated until a round changes nothing. Each step
raises a flag when it changes something, and the flag decides whether there is
another round. -/

namespace Saturation

section Flags

variable {σ α : Type} {step : σ × Bool → α → σ × Bool}

/-- A step that leaves the flag down has changed nothing. -/
def Flags (step : σ × Bool → α → σ × Bool) : Prop :=
  ∀ acc x, (step acc x).2 = false → step acc x = acc

theorem Flags.foldl (h : Flags step) (xs : List α) {acc : σ × Bool}
    (hdown : (xs.foldl step acc).2 = false) :
    xs.foldl step acc = acc ∧ ∀ x ∈ xs, step acc x = acc := by
  induction xs generalizing acc with
  | nil => exact ⟨rfl, by simp⟩
  | cons x xs ih =>
    rw [List.foldl_cons] at hdown ⊢
    obtain ⟨hrest, hfixed⟩ := ih hdown
    rw [hrest] at hdown ⊢
    have hx := h acc x hdown
    rw [hx] at hfixed
    refine ⟨hx, fun y hy => ?_⟩
    rcases List.mem_cons.mp hy with rfl | hy
    · exact hx
    · exact hfixed y hy

/-- A step never shrinks the state, and raises the flag only if it grew. -/
def Grows (size : σ → Nat) (step : σ × Bool → α → σ × Bool) : Prop :=
  ∀ acc x, size acc.1 ≤ size (step acc x).1 ∧
    ((step acc x).2 = true → acc.2 = true ∨ size acc.1 < size (step acc x).1)

theorem Grows.foldl {size : σ → Nat} (h : Grows size step) (xs : List α) (acc : σ × Bool) :
    size acc.1 ≤ size (xs.foldl step acc).1 ∧
      ((xs.foldl step acc).2 = true → acc.2 = true ∨ size acc.1 < size (xs.foldl step acc).1) := by
  induction xs generalizing acc with
  | nil => exact ⟨Nat.le_refl _, Or.inl⟩
  | cons x xs ih =>
    rw [List.foldl_cons]
    obtain ⟨hle, hup⟩ := ih (step acc x)
    have hstep := h acc x
    refine ⟨by omega, fun hflag => ?_⟩
    rcases hup hflag with hmid | hlt
    · rcases hstep.2 hmid with hacc | hlt
      · exact Or.inl hacc
      · exact Or.inr (by omega)
    · exact Or.inr (by omega)

end Flags

section Rounds

variable {σ : Type} {round : Nat → σ → σ × Bool}

/-- Repeats rounds until one leaves the flag down. -/
def saturate (round : Nat → σ → σ × Bool) : Nat → Nat → σ → Option σ
  | 0, _, _ => none
  | fuel + 1, n, s =>
    if (round n s).2 then saturate round fuel (n + 1) (round n s).1 else some (round n s).1

/-- Rounds that grow within a bound come to an end, at the result of a round
that left the flag down. -/
theorem saturate_spec {I : σ → Prop} {size : σ → Nat} {bound : Nat}
    (hkeep : ∀ n s, I s → I (round n s).1)
    (hgrow : ∀ n s, (round n s).2 = true → size s < size (round n s).1)
    (hbound : ∀ s, I s → size s ≤ bound) {fuel n : Nat} {s : σ} (hs : I s)
    (hfuel : bound < fuel + size s) :
    ∃ t, saturate round fuel n s = some t ∧ I t ∧ ∃ k u, I u ∧ round k u = (t, false) := by
  induction fuel generalizing n s with
  | zero =>
    have hle := hbound s hs
    omega
  | succ fuel ih =>
    rw [saturate]
    cases hflag : (round n s).2 with
    | true =>
      have hlt := hgrow n s hflag
      rw [if_pos rfl]
      exact ih (hkeep n s hs) (by omega)
    | false =>
      rw [if_neg Bool.false_ne_true]
      exact ⟨_, rfl, hkeep n s hs, n, s, hs, Prod.ext rfl hflag⟩

end Rounds

end Saturation
