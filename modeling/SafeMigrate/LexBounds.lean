import Mathlib.Data.List.Lex
import Mathlib.Order.WithBot

/-! Lexicographic bounds on tuples, with values below and above all others, and
their form as a disjunction over the first place that differs. -/

namespace LexBounds

/-- A value, or what is below or above every value. -/
abbrev Bound (α : Type) := WithBot (WithTop α)

def point {α : Type} (a : α) : Bound α := ((a : WithTop α) : Bound α)

theorem point_inj {α : Type} {a b : α} : point a = point b ↔ a = b := by simp [point]

theorem map_point_inj {α : Type} {us vs : List α} : us.map point = vs.map point ↔ us = vs :=
  (List.map_injective_iff.mpr fun _ _ h => point_inj.mp h).eq_iff

/-- Some place differs by `op`, or the last by `last`, and all before it agree. -/
def Beyond {α : Type} (op last : α → α → Prop) : List (α × α) → Prop
  | [] => False
  | [p] => last p.1 p.2
  | p :: q :: rest => op p.1 p.2 ∨ p.1 = p.2 ∧ Beyond op last (q :: rest)

/-- From above, it is the bound that lies beyond. -/
theorem beyond_swap {α : Type} {op last : α → α → Prop} (us vs : List α) :
    Beyond (fun u v => op v u) (fun u v => last v u) (us.zip vs) ↔ Beyond op last (vs.zip us) := by
  induction us generalizing vs with
  | nil => cases vs <;> exact Iff.rfl
  | cons u us ih =>
    cases vs with
    | nil => exact Iff.rfl
    | cons v vs =>
      have hrest := ih vs
      cases us with
      | nil => cases vs <;> exact Iff.rfl
      | cons u' us =>
        cases vs with
        | nil => exact Iff.rfl
        | cons v' vs => exact or_congr Iff.rfl (and_congr eq_comm hrest)

variable {α : Type} [LinearOrder α]

theorem point_lt_point {a b : α} : point a < point b ↔ a < b := by simp [point]

theorem bot_lt_point (a : α) : (⊥ : Bound α) < point a := WithBot.bot_lt_coe _

theorem point_lt_top (a : α) : point a < (⊤ : Bound α) :=
  WithBot.coe_lt_coe.mpr (WithTop.coe_lt_top a)

section Prefixes

variable {β : Type} [LinearOrder β]

theorem append_lt_append_iff {us vs : List β} (hlength : us.length = vs.length) (ws rest : List β) :
    us ++ ws < vs ++ rest ↔ us < vs ∨ us = vs ∧ ws < rest := by
  induction us generalizing vs with
  | nil =>
    cases vs with
    | nil => simp
    | cons v vs => simp at hlength
  | cons u us ih =>
    cases vs with
    | nil => simp at hlength
    | cons v vs =>
      rw [List.cons_append, List.cons_append, List.cons_lt_cons_iff, List.cons_lt_cons_iff,
        ih (Nat.succ.inj hlength), List.cons.injEq]
      tauto

end Prefixes

theorem beyond_lt_iff {us vs : List α} (hlength : us.length = vs.length) :
    Beyond (· < ·) (· < ·) (us.zip vs) ↔ us < vs := by
  induction us generalizing vs with
  | nil =>
    cases vs with
    | nil => simp [Beyond]
    | cons v vs => simp at hlength
  | cons u us ih =>
    cases vs with
    | nil => simp at hlength
    | cons v vs =>
      have hrest := ih (Nat.succ.inj hlength)
      rw [List.cons_lt_cons_iff, ← hrest]
      cases us with
      | nil => simp [Beyond]
      | cons u' us =>
        cases vs with
        | nil => simp at hlength
        | cons v' vs => rfl

theorem beyond_le_iff {us vs : List α} (hlength : us.length = vs.length) (hne : us ≠ []) :
    Beyond (· < ·) (· ≤ ·) (us.zip vs) ↔ us < vs ∨ us = vs := by
  induction us generalizing vs with
  | nil => exact absurd rfl hne
  | cons u us ih =>
    cases vs with
    | nil => simp at hlength
    | cons v vs =>
      rw [List.cons_lt_cons_iff, List.cons.injEq, or_assoc, ← and_or_left]
      cases us with
      | nil =>
        have hnil : vs = [] := by simpa using hlength
        simp [hnil, Beyond, le_iff_lt_or_eq]
      | cons u' us =>
        rw [← ih (Nat.succ.inj hlength) (List.cons_ne_nil _ _)]
        cases vs with
        | nil => simp at hlength
        | cons v' vs => rfl

section Bounds

theorem map_point_lt {us vs : List α} : us.map point < vs.map point ↔ us < vs := by
  induction us generalizing vs with
  | nil => cases vs <;> simp
  | cons u us ih =>
    cases vs with
    | nil => simp
    | cons v vs =>
      rw [List.map_cons, List.map_cons, List.cons_lt_cons_iff, List.cons_lt_cons_iff, ih,
        point_lt_point, point_inj]

variable {us vs ws : List α} {rest : List (Bound α)}

theorem map_point_lt_append (hlength : us.length = vs.length) :
    (us ++ ws).map point < vs.map point ++ rest ↔ us < vs ∨ us = vs ∧ ws.map point < rest := by
  rw [List.map_append, append_lt_append_iff (by simpa using hlength), map_point_lt, map_point_inj]

/-- The tuples from a lower bound up to an upper bound. -/
def Within (lower upper : List (Bound α)) (ts : List α) : Prop :=
  lower ≤ ts.map point ∧ ts.map point < upper

theorem lt_or_eq_iff_not_lt : vs < us ∨ vs = us ↔ ¬us < vs := by
  rw [← le_iff_lt_or_eq, not_lt]

end Bounds

/-- Two half-open ranges over the same values have the same ends, if neither is empty. -/
theorem ends_eq {β : Type} [LinearOrder β] {P : β → Prop} {low low' high high' : β}
    (hlow : P low) (hlow' : P low') (hhigh : P high) (hhigh' : P high') (hlt : low < high)
    (h : ∀ x, P x → (low' ≤ x ∧ x < high' ↔ low ≤ x ∧ x < high)) : low' = low ∧ high' = high := by
  obtain ⟨hle, hlt'⟩ := (h low hlow).mpr ⟨le_rfl, hlt⟩
  have hne' : low' < high' := hle.trans_lt hlt'
  have hlows : low' = low := hle.antisymm ((h low' hlow').mp ⟨le_rfl, hne'⟩).1
  refine ⟨hlows, le_antisymm ?_ ?_⟩
  · by_contra hlonger
    exact lt_irrefl _ ((h high hhigh).mp ⟨hlows ▸ hlt.le, not_le.mp hlonger⟩).2
  · by_contra hshorter
    exact lt_irrefl _ ((h high' hhigh').mpr ⟨hlows ▸ hne'.le, not_le.mp hshorter⟩).2

end LexBounds
