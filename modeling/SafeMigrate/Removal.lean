import Mathlib.Data.List.AList

/-! Removal of the keys that a predicate picks from a partial map. Removals
compose to one removal, and two of them agree on a map exactly when their
predicates agree on its keys. -/

namespace Removal

variable {α β : Type}

/-- The partial map without the keys that `p` picks. -/
def without (p : α → Bool) (f : α → Option β) : α → Option β := fun k => if p k then none else f k

section Without

variable {p q : α → Bool} {f : α → Option β}

theorem without_none : without (fun _ => false) f = f := rfl

theorem without_without : without q (without p f) = without (fun k => p k || q k) f := by
  funext k
  cases hp : p k <;> cases hq : q k <;> simp [without, hp, hq]

theorem without_congr (h : ∀ k v, f k = some v → p k = q k) : without p f = without q f := by
  funext k
  cases hk : f k with
  | none => simp [without, hk]
  | some v => simp only [without, h k v hk]

theorem without_eq_without_iff :
    without p f = without q f ↔ ∀ k v, f k = some v → p k = q k := by
  refine ⟨fun h k v hk => ?_, without_congr⟩
  have hkey := congrFun h k
  cases hp : p k <;> cases hq : q k
  · rfl
  · simp [without, hp, hq, hk] at hkey
  · simp [without, hp, hq, hk] at hkey
  · rfl

end Without

section Filter

variable {p q : α → Bool} {l : List α}

theorem filter_eq_filter_iff : l.filter p = l.filter q ↔ ∀ a ∈ l, p a = q a := by
  refine ⟨fun h a ha => ?_, List.filter_congr⟩
  have hmem : a ∈ l.filter p ↔ a ∈ l.filter q := by rw [h]
  simp only [List.mem_filter, ha, true_and] at hmem
  exact Bool.eq_iff_iff.mpr hmem

end Filter

section Insert

variable [DecidableEq α] {γ : Type}

/-- A loop that overwrites every listed key with one value. -/
theorem lookup_foldl_insert_const (v : γ) (ids : List α) (m : AList fun _ : α => γ) (k : α) :
    (ids.foldl (fun m id => m.insert id v) m).lookup k =
      if k ∈ ids then some v else m.lookup k := by
  induction ids generalizing m with
  | nil => simp
  | cons id ids ih =>
    rw [List.foldl_cons, ih]
    by_cases hk : k = id
    · subst hk
      simp
    · simp [hk, AList.lookup_insert_ne hk]

end Insert

end Removal
