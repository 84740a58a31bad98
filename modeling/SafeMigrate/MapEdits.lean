import SafeMigrate.MapRebuild

/-! Keyed maps edited in place: entries are rewritten or given up where their
key asks for it, and the iteration order of the others stays. -/

namespace MapEdits

open MapRebuild

variable {α β : Type}

/-- One entry, rewritten or given up where its key is selected. -/
def editEntry (p : α → Bool) (f : β → Option β) (e : Sigma fun _ : α => β) :
    Option (Sigma fun _ : α => β) :=
  if p e.1 then (f e.2).map fun v => ⟨e.1, v⟩ else some e

theorem editEntry_key {p : α → Bool} {f : β → Option β} {e e' : Sigma fun _ : α => β}
    (h : editEntry p f e = some e') : e'.1 = e.1 := by
  unfold editEntry at h
  split at h
  · obtain ⟨v, -, rfl⟩ := Option.map_eq_some_iff.mp h
    rfl
  · cases h
    rfl

theorem keys_edit_sublist (p : α → Bool) (f : β → Option β) (l : List (Sigma fun _ : α => β)) :
    (l.filterMap (editEntry p f)).keys.Sublist l.keys := by
  induction l with
  | nil => exact List.Sublist.refl _
  | cons e l ih =>
    cases he : editEntry p f e with
    | none =>
      rw [List.filterMap_cons_none he]
      exact ih.cons _
    | some e' =>
      rw [List.filterMap_cons_some he, List.keys_cons, List.keys_cons, editEntry_key he]
      exact ih.cons_cons _

/-- The map with the selected entries rewritten by `f`, or without them. -/
def edit (p : α → Bool) (f : β → Option β) (m : Map α β) : Map α β :=
  ⟨m.entries.filterMap (editEntry p f), (keys_edit_sublist p f m.entries).nodup m.nodupKeys⟩

/-- `get_mut` on one key, after which the entry may be removed. -/
def editAt [DecidableEq α] (k : α) (f : β → Option β) (m : Map α β) : Map α β := edit (fun k' => decide (k' = k)) f m

/-- The map without the selected keys. -/
def discard (p : α → Bool) (m : Map α β) : Map α β := edit p (fun _ => none) m

section Lookup

variable [DecidableEq α] (p : α → Bool) (f : β → Option β) (m : Map α β) (k k' : α)

theorem lookup_edit : (edit p f m).lookup k = if p k then (m.lookup k).bind f else m.lookup k := by
  refine Option.ext fun v => ?_
  rw [← mem_entries_iff, edit]
  simp only [List.mem_filterMap]
  constructor
  · rintro ⟨⟨k', v'⟩, he, hedit⟩
    have hkey : k = k' := editEntry_key hedit
    subst hkey
    have hlookup := mem_entries_iff.mp he
    unfold editEntry at hedit
    by_cases hp : p k = true
    · rw [if_pos hp] at hedit ⊢
      obtain ⟨w, hw, hsame⟩ := Option.map_eq_some_iff.mp hedit
      cases hsame
      rw [hlookup]
      exact hw
    · rw [if_neg hp] at hedit ⊢
      cases hedit
      exact hlookup
  · intro h
    by_cases hp : p k = true
    · rw [if_pos hp] at h
      obtain ⟨w, hw, hv⟩ := Option.bind_eq_some_iff.mp h
      refine ⟨⟨k, w⟩, mem_entries_iff.mpr hw, ?_⟩
      rw [editEntry, if_pos hp, hv]
      rfl
    · rw [if_neg hp] at h
      refine ⟨⟨k, v⟩, mem_entries_iff.mpr h, ?_⟩
      rw [editEntry, if_neg hp]

theorem lookup_editAt :
    (editAt k f m).lookup k' = if k' = k then (m.lookup k').bind f else m.lookup k' := by
  rw [editAt, lookup_edit]
  simp only [decide_eq_true_eq]

theorem lookup_discard :
    (discard p m).lookup k = if p k then none else m.lookup k := by
  rw [discard, lookup_edit]
  split
  · cases m.lookup k <;> rfl
  · rfl

end Lookup

/-- The keys keep their order, and lose none but given up ones. -/
theorem keys_edit (p : α → Bool) (f : β → Option β) (m : Map α β) :
    (edit p f m).keys.Sublist m.keys := keys_edit_sublist p f m.entries

/-- What the values weigh, together. -/
def weight (w : β → Nat) (m : Map α β) : Nat := m.entries.foldr (fun e n => w e.2 + n) 0

section Weight

variable {p : α → Bool} {f : β → Option β} {w : β → Nat}

theorem weight_editEntry_le (hf : ∀ v, (f v).elim 0 w ≤ w v) (l : List (Sigma fun _ : α => β)) :
    (l.filterMap (editEntry p f)).foldr (fun e n => w e.2 + n) 0 ≤
      l.foldr (fun e n => w e.2 + n) 0 := by
  induction l with
  | nil => exact Nat.le_refl _
  | cons e l ih =>
    have he : (editEntry p f e).elim 0 (fun e => w e.2) ≤ w e.2 := by
      have hvalue := hf e.2
      unfold editEntry
      split
      · cases hfe : f e.2 with
        | none => exact Nat.zero_le _
        | some v => simpa [hfe] using hvalue
      · exact Nat.le_refl _
    cases hedit : editEntry p f e with
    | none =>
      rw [List.filterMap_cons_none hedit, List.foldr_cons]
      omega
    | some e' =>
      rw [hedit, Option.elim_some] at he
      rw [List.filterMap_cons_some hedit, List.foldr_cons, List.foldr_cons]
      omega

theorem weight_editEntry_lt (hf : ∀ v, (f v).elim 0 w ≤ w v) {k : α} {v : β} (hp : p k = true)
    (hless : (f v).elim 0 w < w v) {l : List (Sigma fun _ : α => β)} (hmem : ⟨k, v⟩ ∈ l) :
    (l.filterMap (editEntry p f)).foldr (fun e n => w e.2 + n) 0 <
      l.foldr (fun e n => w e.2 + n) 0 := by
  induction l with
  | nil => cases hmem
  | cons e l ih =>
    rcases List.mem_cons.mp hmem with rfl | hmem
    · have hrest := weight_editEntry_le (p := p) hf l
      cases hfv : f v with
      | none =>
        have hedit : editEntry p f ⟨k, v⟩ = none := by simp [editEntry, hp, hfv]
        rw [hfv, Option.elim_none] at hless
        rw [List.filterMap_cons_none hedit, List.foldr_cons]
        show _ < w v + _
        omega
      | some v' =>
        have hedit : editEntry p f ⟨k, v⟩ = some ⟨k, v'⟩ := by simp [editEntry, hp, hfv]
        rw [hfv, Option.elim_some] at hless
        rw [List.filterMap_cons_some hedit, List.foldr_cons, List.foldr_cons]
        show w v' + _ < w v + _
        omega
    · have hlt := ih hmem
      have he := weight_editEntry_le (p := p) hf [e]
      cases hedit : editEntry p f e with
      | none =>
        rw [List.filterMap_cons_none hedit, List.foldr_cons]
        omega
      | some e' =>
        rw [List.filterMap_cons_some hedit] at he ⊢
        simp only [List.filterMap_nil, List.foldr_cons, List.foldr_nil, Nat.add_zero] at he ⊢
        omega

theorem weight_editAt_lt [DecidableEq α] (hf : ∀ v, (f v).elim 0 w ≤ w v) {m : Map α β} {k : α} {v : β}
    (hlookup : m.lookup k = some v) (hless : (f v).elim 0 w < w v) :
    weight w (editAt k f m) < weight w m := by
  have hmem : (⟨k, v⟩ : Sigma fun _ : α => β) ∈ m.entries := mem_entries_iff.mpr hlookup
  exact weight_editEntry_lt (p := fun k' => decide (k' = k)) hf (decide_eq_true rfl) hless hmem

end Weight

end MapEdits
