import Mathlib.Data.List.Nodup

/-! Lists that keep the elements without a key, and of those with one key the
first. -/

namespace FirstOfKey

variable {α κ : Type*} [DecidableEq κ] (key : α → Option κ)

/-- The keys in `seen` are taken already. -/
def firsts : List κ → List α → List α
  | _, [] => []
  | seen, x :: xs =>
    match key x with
    | none => x :: firsts seen xs
    | some k => if k ∈ seen then firsts seen xs else x :: firsts (k :: seen) xs

variable {key} {seen seen' : List κ} {l l' : List α} {x : α} {k : κ}

theorem firsts_cons_none (h : key x = none) :
    firsts key seen (x :: l) = x :: firsts key seen l := by
  simp [firsts, h]

theorem firsts_cons_seen (h : key x = some k) (hk : k ∈ seen) :
    firsts key seen (x :: l) = firsts key seen l := by
  simp [firsts, h, hk]

theorem firsts_cons_new (h : key x = some k) (hk : k ∉ seen) :
    firsts key seen (x :: l) = x :: firsts key (k :: seen) l := by
  simp [firsts, h, hk]

/-- Of the taken keys only their set counts. -/
theorem firsts_congr (h : ∀ k, k ∈ seen ↔ k ∈ seen') :
    firsts key seen l = firsts key seen' l := by
  induction l generalizing seen seen' with
  | nil => rfl
  | cons x l ih =>
    cases hx : key x with
    | none => rw [firsts_cons_none hx, firsts_cons_none hx, ih h]
    | some k =>
      by_cases hk : k ∈ seen
      · rw [firsts_cons_seen hx hk, firsts_cons_seen hx ((h k).mp hk), ih h]
      · rw [firsts_cons_new hx hk, firsts_cons_new hx (mt (h k).mpr hk)]
        have hcons (j : κ) : j ∈ k :: seen ↔ j ∈ k :: seen' := by simp [h j]
        rw [ih hcons]

theorem firsts_append :
    firsts key seen (l ++ l') = firsts key seen l ++ firsts key (seen ++ l.filterMap key) l' := by
  induction l generalizing seen with
  | nil => simp [firsts]
  | cons x l ih =>
    rw [List.cons_append]
    cases hx : key x with
    | none => simp [firsts_cons_none hx, ih, hx]
    | some k =>
      by_cases hk : k ∈ seen
      · rw [firsts_cons_seen hx hk, firsts_cons_seen hx hk, ih]
        congr 1
        apply firsts_congr
        intro j
        simp only [List.filterMap_cons, hx, List.mem_append, List.mem_cons]
        constructor
        · tauto
        · rintro (hj | rfl | hj)
          · exact Or.inl hj
          · exact Or.inl hk
          · exact Or.inr hj
      · rw [firsts_cons_new hx hk, firsts_cons_new hx hk, ih, List.cons_append]
        congr 2
        apply firsts_congr
        intro j
        simp only [List.filterMap_cons, hx, List.mem_append, List.mem_cons]
        tauto

theorem firsts_concat_none (h : key x = none) :
    firsts key seen (l ++ [x]) = firsts key seen l ++ [x] := by
  rw [firsts_append, firsts_cons_none h]
  rfl

theorem firsts_concat_seen (h : key x = some k) (hk : k ∈ seen ++ l.filterMap key) :
    firsts key seen (l ++ [x]) = firsts key seen l := by
  rw [firsts_append, firsts_cons_seen h hk]
  simp [firsts]

theorem firsts_concat_new (h : key x = some k) (hk : k ∉ seen ++ l.filterMap key) :
    firsts key seen (l ++ [x]) = firsts key seen l ++ [x] := by
  rw [firsts_append, firsts_cons_new h hk]
  rfl

/-- No kept element has a taken key. -/
theorem notMem_seen (h : x ∈ firsts key seen l) (hx : key x = some k) : k ∉ seen := by
  induction l generalizing seen with
  | nil => cases h
  | cons y l ih =>
    cases hy : key y with
    | none =>
      rw [firsts_cons_none hy] at h
      rcases List.mem_cons.mp h with rfl | h
      · rw [hx] at hy
        cases hy
      · exact ih h
    | some j =>
      by_cases hj : j ∈ seen
      · rw [firsts_cons_seen hy hj] at h
        exact ih h
      · rw [firsts_cons_new hy hj] at h
        rcases List.mem_cons.mp h with rfl | h
        · rw [hx] at hy
          obtain rfl := Option.some.inj hy
          exact hj
        · exact fun hk => ih h (List.mem_cons_of_mem j hk)

theorem nodup_keys_firsts : ((firsts key seen l).filterMap key).Nodup := by
  induction l generalizing seen with
  | nil => exact List.nodup_nil
  | cons x l ih =>
    cases hx : key x with
    | none => simpa [firsts_cons_none hx, hx] using ih
    | some k =>
      by_cases hk : k ∈ seen
      · simpa [firsts_cons_seen hx hk] using ih
      · rw [firsts_cons_new hx hk, List.filterMap_cons, hx]
        apply List.nodup_cons.mpr
        refine ⟨fun hmem => ?_, ih⟩
        obtain ⟨y, hy, hkey⟩ := List.mem_filterMap.mp hmem
        exact notMem_seen hy hkey List.mem_cons_self

/-- An element is kept, or an earlier one of its key is. -/
theorem kept_or_seen (h : x ∈ l) :
    x ∈ firsts key seen l ∨
      ∃ k, key x = some k ∧ (k ∈ seen ∨ ∃ y ∈ firsts key seen l, key y = some k) := by
  induction l generalizing seen with
  | nil => cases h
  | cons y l ih =>
    cases hy : key y with
    | none =>
      rw [firsts_cons_none hy]
      rcases List.mem_cons.mp h with rfl | h
      · exact Or.inl List.mem_cons_self
      · rcases ih h with hkept | ⟨k, hk, htaken | ⟨z, hz, hzk⟩⟩
        · exact Or.inl (List.mem_cons_of_mem y hkept)
        · exact Or.inr ⟨k, hk, Or.inl htaken⟩
        · exact Or.inr ⟨k, hk, Or.inr ⟨z, List.mem_cons_of_mem y hz, hzk⟩⟩
    | some j =>
      by_cases hj : j ∈ seen
      · rw [firsts_cons_seen hy hj]
        rcases List.mem_cons.mp h with rfl | h
        · exact Or.inr ⟨j, hy, Or.inl hj⟩
        · exact ih h
      · rw [firsts_cons_new hy hj]
        rcases List.mem_cons.mp h with rfl | h
        · exact Or.inl List.mem_cons_self
        · rcases ih h with hkept | ⟨k, hk, htaken | ⟨z, hz, hzk⟩⟩
          · exact Or.inl (List.mem_cons_of_mem y hkept)
          · rcases List.mem_cons.mp htaken with rfl | htaken
            · exact Or.inr ⟨k, hk, Or.inr ⟨y, List.mem_cons_self, hy⟩⟩
            · exact Or.inr ⟨k, hk, Or.inl htaken⟩
          · exact Or.inr ⟨k, hk, Or.inr ⟨z, List.mem_cons_of_mem y hz, hzk⟩⟩

end FirstOfKey
