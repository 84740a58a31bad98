import Mathlib.Data.List.AList

/-! Keyed maps rebuilt by inserting rewritten entries in iteration order. Keys
that the rewriting merges make the result depend on that order, unless their
rewritten values are equal. -/

namespace MapRebuild

variable {α β : Type} [DecidableEq α]

abbrev Map (α β : Type) := AList (fun _ : α => β)

/-- A loop that inserts every entry under its new key. -/
def rebuild (f : α → α) (g : β → β) (m : Map α β) : Map α β :=
  m.entries.foldl (fun acc e => acc.insert (f e.1) (g e.2)) ∅

/-- Values rewritten in place. -/
def mapValues (g : β → β) (m : Map α β) : Map α β :=
  ⟨m.entries.map fun e => ⟨e.1, g e.2⟩, List.NodupKeys.map₂ (fun _ => g) m.entries m.nodupKeys⟩

/-- Keys that `f` merges carry values that `g` makes equal. -/
def Consistent (f : α → α) (g : β → β) (m : Map α β) : Prop :=
  ∀ k v k' v', m.lookup k = some v → m.lookup k' = some v' → f k = f k' → g v = g v'

/-- The same map in another iteration order. -/
def Reordered (m m' : Map α β) : Prop := m'.entries.Perm m.entries

/-- `m'` is the image of `m` under a substitution of its keys and values. -/
structure IsImage (f : α → α) (g : β → β) (m m' : Map α β) : Prop where
  lookup_eq : ∀ k v, m.lookup k = some v → m'.lookup (f k) = some (g v)
  exists_source : ∀ k' v', m'.lookup k' = some v' → ∃ k v, m.lookup k = some v ∧ f k = k' ∧ g v = v'

variable {f : α → α} {g h : β → β} {m m' : Map α β}

theorem dedupKeys_sublist (l : List (Sigma fun _ : α => β)) : l.dedupKeys.Sublist l := by
  induction l with
  | nil => exact List.Sublist.refl _
  | cons e l ih =>
    rw [List.dedupKeys_cons, List.kinsert_def]
    exact ((List.kerase_sublist _ _).trans ih).cons_cons _

theorem dedupKeys_of_nodupKeys {l : List (Sigma fun _ : α => β)} (hl : l.NodupKeys) :
    l.dedupKeys = l := by
  induction l with
  | nil => rfl
  | cons e l ih =>
    obtain ⟨hnew, hrest⟩ := List.nodupKeys_cons.mp hl
    rw [List.dedupKeys_cons, ih hrest, List.kinsert_def, List.kerase_of_notMem_keys hnew]

theorem toAList_map_of_eq_self {φ : (Sigma fun _ : α => β) → Sigma fun _ : α => β}
    (hφ : ∀ e ∈ m.entries, φ e = e) : (m.entries.map φ).toAList = m := by
  refine AList.ext ?_
  have hmap : m.entries.map φ = m.entries := by
    rw [List.map_congr_left hφ, List.map_id']
  rw [AList.entries_toAList, hmap, dedupKeys_of_nodupKeys m.nodupKeys]

theorem mem_of_mem_toAList {l : List (Sigma fun _ : α => β)} {e : Sigma fun _ : α => β}
    (he : e ∈ l.toAList.entries) : e ∈ l := (dedupKeys_sublist l).subset he

theorem mem_entries_iff {k : α} {v : β} : ⟨k, v⟩ ∈ m.entries ↔ m.lookup k = some v :=
  AList.mem_lookup_iff.symm

theorem Reordered.lookup_eq (hm : Reordered m m') (k : α) : m'.lookup k = m.lookup k :=
  AList.perm_lookup hm

theorem lookup_mapValues (k : α) : (mapValues g m).lookup k = (m.lookup k).map g := by
  cases hk : m.lookup k with
  | none =>
    rw [AList.lookup_eq_none] at hk
    rw [Option.map_none, AList.lookup_eq_none]
    simpa [mapValues, AList.mem_keys, AList.keys, List.keys] using hk
  | some v =>
    have he : ⟨k, g v⟩ ∈ (mapValues g m).entries :=
      List.mem_map.mpr ⟨⟨k, v⟩, mem_entries_iff.mpr hk, rfl⟩
    rw [Option.map_some]
    exact mem_entries_iff.mp he

/-- The last entry that lands on a key wins. -/
theorem lookup_foldl_insert (l : List (Sigma fun _ : α => β)) (acc : Map α β) (k : α) :
    (l.foldl (fun acc e => acc.insert (f e.1) (g e.2)) acc).lookup k =
      ((l.reverse.find? fun e => f e.1 = k).map fun e => g e.2).or (acc.lookup k) := by
  induction l generalizing acc with
  | nil => rfl
  | cons e l ih =>
    rw [List.foldl_cons, ih, List.reverse_cons, List.find?_append]
    cases hfind : l.reverse.find? fun e => f e.1 = k with
    | some x => simp
    | none =>
      by_cases hk : f e.1 = k
      · subst hk
        simp
      · have hne : k ≠ f e.1 := fun hke => hk hke.symm
        simp [hk, AList.lookup_insert_ne hne]

theorem lookup_rebuild (k : α) : (rebuild f g m).lookup k =
    (m.entries.reverse.find? fun e => f e.1 = k).map fun e => g e.2 := by
  rw [rebuild, lookup_foldl_insert]
  simp

theorem exists_of_lookup_rebuild {k : α} {v : β} (hk : (rebuild f g m).lookup k = some v) :
    ∃ k' v', m.lookup k' = some v' ∧ f k' = k ∧ g v' = v := by
  rw [lookup_rebuild] at hk
  obtain ⟨e, he, rfl⟩ := Option.map_eq_some_iff.mp hk
  have hmem := List.mem_of_find?_eq_some he
  have hkey := List.find?_some he
  rw [List.mem_reverse] at hmem
  exact ⟨e.1, e.2, mem_entries_iff.mp hmem, by simpa using hkey, rfl⟩

theorem Consistent.lookup_rebuild (hc : Consistent f g m) {k : α} {v : β}
    (hk : m.lookup k = some v) : (rebuild f g m).lookup (f k) = some (g v) := by
  cases hr : (rebuild f g m).lookup (f k) with
  | none =>
    rw [MapRebuild.lookup_rebuild, Option.map_eq_none_iff, List.find?_eq_none] at hr
    have hmem : (⟨k, v⟩ : Sigma fun _ : α => β) ∈ m.entries.reverse :=
      List.mem_reverse.mpr (mem_entries_iff.mpr hk)
    exact absurd (decide_eq_true rfl) (hr ⟨k, v⟩ hmem)
  | some w =>
    obtain ⟨k', v', hk', hf, rfl⟩ := exists_of_lookup_rebuild hr
    rw [hc k' v' k v hk' hk hf]

/-- An iteration order that ends with a given entry. -/
theorem exists_reordered_last {k : α} {v : β} (hk : m.lookup k = some v) (f : α → α) (g : β → β) :
    ∃ m', Reordered m m' ∧ (rebuild f g m').lookup (f k) = some (g v) := by
  let e : Sigma fun _ : α => β := ⟨k, v⟩
  have hmem : e ∈ m.entries := mem_entries_iff.mpr hk
  obtain ⟨front, back, hsplit⟩ := List.append_of_mem hmem
  have hperm : (front ++ back ++ [e]).Perm m.entries := by
    rw [hsplit, List.append_assoc]
    exact List.Perm.append_left front (List.perm_append_singleton _ back)
  refine ⟨⟨front ++ back ++ [e], (List.perm_nodupKeys hperm).mpr m.nodupKeys⟩, hperm, ?_⟩
  rw [MapRebuild.lookup_rebuild]
  simp [e]

theorem Consistent.reordered (hc : Consistent f g m) (hm : Reordered m m') : Consistent f g m' := by
  intro k v k' v' hk hk'
  rw [hm.lookup_eq] at hk hk'
  exact hc k v k' v' hk hk'

/-- The rebuilt map does not depend on the order exactly when no merged keys
disagree. -/
theorem rebuild_order_iff : (∀ m', Reordered m m' → ∀ k,
    (rebuild f g m').lookup k = (rebuild f g m).lookup k) ↔ Consistent f g m := by
  constructor
  · intro horder k v k' v' hk hk' hf
    obtain ⟨m₁, hm₁, hlast₁⟩ := exists_reordered_last hk f g
    obtain ⟨m₂, hm₂, hlast₂⟩ := exists_reordered_last hk' f g
    rw [horder m₁ hm₁, hf, ← horder m₂ hm₂, hlast₂] at hlast₁
    exact (Option.some.inj hlast₁).symm
  · intro hc m' hm k
    cases hr : (rebuild f g m').lookup k with
    | some v =>
      obtain ⟨k', v', hk', rfl, rfl⟩ := exists_of_lookup_rebuild hr
      rw [hm.lookup_eq] at hk'
      exact (hc.lookup_rebuild hk').symm
    | none =>
      cases hr' : (rebuild f g m).lookup k with
      | none => rfl
      | some v =>
        obtain ⟨k', v', hk', rfl, rfl⟩ := exists_of_lookup_rebuild hr'
        rw [← hm.lookup_eq] at hk'
        rw [(hc.reordered hm).lookup_rebuild hk'] at hr
        cases hr

/-- A loop that rewrites values with `g` yields the image under `h` in every
order exactly when `g` agrees with `h` and no merged keys disagree. -/
theorem rebuild_isImage_iff : (∀ m', Reordered m m' → IsImage f h m (rebuild f g m')) ↔
    Consistent f h m ∧ ∀ k v, m.lookup k = some v → g v = h v := by
  constructor
  · intro himage
    have hvalues : ∀ k v, m.lookup k = some v → g v = h v := by
      intro k v hk
      obtain ⟨m', hm, hlast⟩ := exists_reordered_last hk f g
      rw [(himage m' hm).lookup_eq k v hk] at hlast
      exact (Option.some.inj hlast).symm
    refine ⟨?_, hvalues⟩
    intro k v k' v' hk hk' hf
    have hself := himage m (List.Perm.refl _)
    have hv := hself.lookup_eq k v hk
    rw [hf, hself.lookup_eq k' v' hk'] at hv
    exact (Option.some.inj hv).symm
  · rintro ⟨hc, hvalues⟩ m' hm
    have hcg : Consistent f g m' := by
      intro k v k' v' hk hk' hf
      rw [hm.lookup_eq] at hk hk'
      rw [hvalues k v hk, hvalues k' v' hk']
      exact hc k v k' v' hk hk' hf
    refine ⟨?_, ?_⟩
    · intro k v hk
      rw [← hvalues k v hk]
      rw [← hm.lookup_eq] at hk
      exact hcg.lookup_rebuild hk
    · intro k' v' hk'
      obtain ⟨k, v, hk, hf, hv⟩ := exists_of_lookup_rebuild hk'
      rw [hm.lookup_eq] at hk
      exact ⟨k, v, hk, hf, hvalues k v hk ▸ hv⟩

theorem mapValues_isImage : IsImage id g m (mapValues g m) where
  lookup_eq k v hk := by simp [lookup_mapValues, hk]
  exists_source k v hk := by
    rw [lookup_mapValues] at hk
    obtain ⟨w, hw, rfl⟩ := Option.map_eq_some_iff.mp hk
    exact ⟨k, w, hw, rfl, rfl⟩

/-- No two keys are merged. -/
theorem consistent_of_nodup (h : (m.keys.map f).Nodup) : Consistent f g m := by
  intro k v k' v' hk hk' hf
  have hkey : k ∈ m.keys := AList.lookup_isSome.mp (by rw [hk]; rfl)
  have hkey' : k' ∈ m.keys := AList.lookup_isSome.mp (by rw [hk']; rfl)
  obtain rfl := List.inj_on_of_nodup_map h hkey hkey' hf
  exact congrArg g (Option.some.inj (hk.symm.trans hk'))

theorem lookup_insert_empty {k k' : α} {v v' : β}
    (hk : ((∅ : Map α β).insert k v).lookup k' = some v') : k' = k ∧ v' = v := by
  by_cases he : k' = k
  · subst he
    rw [AList.lookup_insert] at hk
    exact ⟨rfl, (Option.some.inj hk).symm⟩
  · rw [AList.lookup_insert_ne he] at hk
    cases hk

end MapRebuild
