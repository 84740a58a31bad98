import Mathlib.Data.List.Nodup

/-! Lists whose elements have keys, no two of them the same: what the removal
of keys leaves, and that it undoes an addition. -/

namespace SafeMigrate.KeyedList

variable {α κ : Type} {key : α → κ}

def Distinct (key : α → κ) (l : List α) : Prop := (l.map key).Nodup

theorem Distinct.left {l m : List α} (h : Distinct key (l ++ m)) : Distinct key l := by
  rw [Distinct, List.map_append] at h
  exact h.of_append_left

theorem Distinct.append {l m : List α} (hl : Distinct key l) (hm : Distinct key m)
    (h : ∀ a ∈ m, key a ∉ l.map key) : Distinct key (l ++ m) := by
  rw [Distinct, List.map_append]
  refine List.nodup_append'.mpr ⟨hl, hm, fun k hk hk' => ?_⟩
  obtain ⟨a, ha, rfl⟩ := List.mem_map.mp hk'
  exact h a ha hk

theorem Distinct.concat {l : List α} {a : α} (h : Distinct key l) (ha : key a ∉ l.map key) :
    Distinct key (l ++ [a]) :=
  h.append (List.nodup_singleton _) fun _ hb => List.mem_singleton.mp hb ▸ ha

theorem Distinct.filter {l : List α} (h : Distinct key l) (p : α → Bool) :
    Distinct key (l.filter p) :=
  h.sublist ((List.filter_sublist).map key)

/-- Distinct elements have distinct images under what determines the key. -/
theorem Distinct.filterMap {β : Type} {f : α → Option β} {l : List α} (h : Distinct key l)
    (hf : ∀ a ∈ l, ∀ b ∈ l, ∀ c, f a = some c → f b = some c → key a = key b) :
    (l.filterMap f).Nodup := by
  induction l with
  | nil => exact List.nodup_nil
  | cons a l ih =>
    have hn := List.nodup_cons.mp h
    have hrest := ih hn.2 fun b hb c hc =>
      hf b (List.mem_cons_of_mem a hb) c (List.mem_cons_of_mem a hc)
    cases ha : f a with
    | none => rwa [List.filterMap_cons_none ha]
    | some c =>
      rw [List.filterMap_cons_some ha]
      refine List.nodup_cons.mpr ⟨fun hc => ?_, hrest⟩
      obtain ⟨b, hb, hfb⟩ := List.mem_filterMap.mp hc
      have hkey := hf a List.mem_cons_self b (List.mem_cons_of_mem a hb) c ha hfb
      exact hn.1 (hkey ▸ List.mem_map_of_mem hb)

variable [DecidableEq κ]

/-- The list without the first element of this key. -/
def remove (key : α → κ) (l : List α) (k : κ) : List α := l.eraseP fun a => key a == k

theorem mem_keys_remove {l : List α} {k k' : κ} (h : k ∈ l.map key) (hne : k ≠ k') :
    k ∈ (remove key l k').map key := by
  obtain ⟨a, ha, rfl⟩ := List.mem_map.mp h
  exact List.mem_map_of_mem ((List.mem_eraseP_of_neg (by simpa using hne)).mpr ha)

theorem remove_eq_filter {l : List α} (h : Distinct key l) (k : κ) :
    remove key l k = l.filter fun a => decide (key a ≠ k) := by
  induction l with
  | nil => rfl
  | cons a l ih =>
    have hn := List.nodup_cons.mp h
    by_cases ha : key a = k
    · have hrest : ∀ b ∈ l, decide (key b ≠ k) = true := by
        intro b hb
        have hne : key b ≠ k := fun he => hn.1 (by rw [ha, ← he]; exact List.mem_map_of_mem hb)
        exact decide_eq_true hne
      rw [remove, List.eraseP_cons_of_pos (by simpa using ha), List.filter_cons_of_neg (by simp [ha]),
        List.filter_eq_self.mpr hrest]
    · rw [remove, List.eraseP_cons_of_neg (by simpa using ha),
        List.filter_cons_of_pos (by simpa using ha)]
      exact congrArg (a :: ·) (ih hn.2)

theorem foldl_remove_eq_filter {l : List α} (h : Distinct key l) (ks : List κ) :
    ks.foldl (remove key) l = l.filter fun a => decide (key a ∉ ks) := by
  induction ks generalizing l with
  | nil => simp
  | cons k ks ih =>
    rw [List.foldl_cons, remove_eq_filter h, ih (h.filter _), List.filter_filter]
    refine List.filter_congr fun a _ => ?_
    by_cases ha : key a = k <;> simp [ha]

/-- Adding elements under fresh keys and removing their keys is no change. -/
theorem filter_added {l m : List α} (h : Distinct key (l ++ m)) :
    ((l ++ m).filter fun a => decide (key a ∉ m.map key)) = l := by
  have hdisjoint : List.Disjoint (l.map key) (m.map key) := by
    rw [Distinct, List.map_append] at h
    exact (List.nodup_append'.mp h).2.2
  have hl : (l.filter fun a => decide (key a ∉ m.map key)) = l :=
    List.filter_eq_self.mpr fun a ha =>
      decide_eq_true fun hm => hdisjoint (List.mem_map_of_mem ha) hm
  have hm : (m.filter fun a => decide (key a ∉ m.map key)) = [] :=
    List.filter_eq_nil_iff.mpr fun a ha => by simpa using ⟨a, ha, rfl⟩
  rw [List.filter_append, hl, hm, List.append_nil]

end SafeMigrate.KeyedList
