import SafeMigrate.MapRebuild

/-! Entries of a keyed map moved to new keys one after the other. Nothing is
lost or moved twice as long as no entry lands on the key of a later one. -/

namespace MapMoves

open MapRebuild

variable {α β : Type}

/-- One move; `change` is what becomes of the entry, which may leave the map. -/
structure Move (α β : Type) where
  source : α
  target : α
  change : β → Option β

/-- Moves that do not interfere with each other. -/
structure Independent (moves : List (Move α β)) : Prop where
  sources : (moves.map Move.source).Nodup
  targets : (moves.map Move.target).Nodup
  unchained : ∀ mv ∈ moves, ∀ mv' ∈ moves, mv.target = mv'.source → mv.source = mv'.source

section Interference

variable {moves : List (Move α β)}

theorem Independent.tail {mv : Move α β} (h : Independent (mv :: moves)) : Independent moves where
  sources := (List.nodup_cons.mp h.sources).2
  targets := (List.nodup_cons.mp h.targets).2
  unchained mv₁ h₁ mv₂ h₂ := h.unchained mv₁ (List.mem_cons_of_mem _ h₁) mv₂
    (List.mem_cons_of_mem _ h₂)

theorem Independent.head_source {mv mv' : Move α β} (h : Independent (mv :: moves))
    (hmv : mv' ∈ moves) : mv'.source ≠ mv.source := by
  have hnew := (List.nodup_cons.mp h.sources).1
  intro he
  exact hnew (he ▸ List.mem_map_of_mem hmv)

theorem Independent.head_target {mv mv' : Move α β} (h : Independent (mv :: moves))
    (hmv : mv' ∈ moves) : mv'.target ≠ mv.target := by
  have hnew := (List.nodup_cons.mp h.targets).1
  intro he
  exact hnew (he ▸ List.mem_map_of_mem hmv)

/-- The target of the first move is none of the later sources. -/
theorem Independent.head_unchained {mv mv' : Move α β} (h : Independent (mv :: moves))
    (hmv : mv' ∈ moves) : mv.target ≠ mv'.source := by
  intro he
  have hsame := h.unchained mv List.mem_cons_self mv' (List.mem_cons_of_mem _ hmv) he
  exact h.head_source hmv hsame.symm

end Interference

/-! Iteration orders that begin or end with chosen entries. -/

theorem exists_reordered_first {m : Map α β} {first : List (Sigma fun _ : α => β)}
    (h : first.Subperm m.entries) : ∃ m' rest, Reordered m m' ∧ m'.entries = first ++ rest := by
  obtain ⟨first', hperm, hsub⟩ := h
  obtain ⟨rest, hrest⟩ := hsub.exists_perm_append
  have hall : (first ++ rest).Perm m.entries :=
    (hperm.symm.append_right rest).trans hrest.symm
  exact ⟨⟨first ++ rest, (List.perm_nodupKeys hall).mpr m.nodupKeys⟩, rest, hall, rfl⟩

theorem exists_reordered_last_entry {m : Map α β} {e : Sigma fun _ : α => β}
    (h : e ∈ m.entries) : ∃ m' front, Reordered m m' ∧ m'.entries = front ++ [e] := by
  obtain ⟨front, back, hsplit⟩ := List.append_of_mem h
  have hperm : (front ++ back ++ [e]).Perm m.entries := by
    rw [hsplit, List.append_assoc]
    exact List.Perm.append_left front (List.perm_append_singleton _ back)
  exact ⟨⟨front ++ back ++ [e], (List.perm_nodupKeys hperm).mpr m.nodupKeys⟩, _, hperm, rfl⟩

variable [DecidableEq α]

def Move.apply (mv : Move α β) (m : Map α β) : Map α β :=
  match (m.lookup mv.source).bind mv.change with
  | some v => (m.erase mv.source).insert mv.target v
  | none => m.erase mv.source

def run (moves : List (Move α β)) (m : Map α β) : Map α β :=
  moves.foldl (fun m mv => mv.apply m) m

/-- The key under which a reference to `k` ends after all moves. -/
def follow (moves : List (Move α β)) (k : α) : α :=
  moves.foldl (fun k mv => if k = mv.source then mv.target else k) k

section Step

variable {mv : Move α β} {m : Map α β} {k : α}

theorem Move.lookup_apply_target {v v' : β} (hk : m.lookup mv.source = some v)
    (hv : mv.change v = some v') : (mv.apply m).lookup mv.target = some v' := by
  have hbind : (m.lookup mv.source).bind mv.change = some v' := by rw [hk, Option.bind_some, hv]
  rw [Move.apply, hbind]
  exact AList.lookup_insert _

theorem Move.lookup_apply_ne (hs : k ≠ mv.source) (ht : k ≠ mv.target) :
    (mv.apply m).lookup k = m.lookup k := by
  cases hbind : (m.lookup mv.source).bind mv.change with
  | some v =>
    rw [Move.apply, hbind]
    show ((m.erase mv.source).insert mv.target v).lookup k = m.lookup k
    rw [AList.lookup_insert_ne ht, AList.lookup_erase_ne hs]
  | none =>
    rw [Move.apply, hbind]
    exact AList.lookup_erase_ne hs

theorem Move.lookup_apply_source (ht : mv.source ≠ mv.target) :
    (mv.apply m).lookup mv.source = none := by
  cases hbind : (m.lookup mv.source).bind mv.change with
  | some v =>
    rw [Move.apply, hbind]
    show ((m.erase mv.source).insert mv.target v).lookup mv.source = none
    rw [AList.lookup_insert_ne ht]
    exact AList.lookup_erase _ _
  | none =>
    rw [Move.apply, hbind]
    exact AList.lookup_erase _ _

end Step

section Run

variable {moves : List (Move α β)} {m : Map α β} {k : α}

theorem lookup_run_untouched (hs : ∀ mv ∈ moves, k ≠ mv.source)
    (ht : ∀ mv ∈ moves, k ≠ mv.target) : (run moves m).lookup k = m.lookup k := by
  induction moves generalizing m with
  | nil => rfl
  | cons mv moves ih =>
    have hrest := ih (m := mv.apply m) (fun mv' h => hs mv' (List.mem_cons_of_mem _ h))
      (fun mv' h => ht mv' (List.mem_cons_of_mem _ h))
    have hhead : (mv.apply m).lookup k = m.lookup k :=
      Move.lookup_apply_ne (hs mv List.mem_cons_self) (ht mv List.mem_cons_self)
    exact hrest.trans hhead

theorem lookup_run_target (h : Independent moves) {mv : Move α β} (hmv : mv ∈ moves) {v v' : β}
    (hk : m.lookup mv.source = some v) (hv : mv.change v = some v') :
    (run moves m).lookup mv.target = some v' := by
  induction moves generalizing m with
  | nil => cases hmv
  | cons mv₀ moves ih =>
    rcases List.mem_cons.mp hmv with rfl | hmem
    · have hkeep : (run moves (mv.apply m)).lookup mv.target = (mv.apply m).lookup mv.target :=
        lookup_run_untouched (fun mv' h' => h.head_unchained h')
          (fun mv' h' he => h.head_target h' he.symm)
      exact hkeep.trans (Move.lookup_apply_target hk hv)
    · refine ih h.tail hmem ?_
      have hne : mv.source ≠ mv₀.target := fun he => h.head_unchained hmem he.symm
      rw [Move.lookup_apply_ne (h.head_source hmem) hne]
      exact hk

theorem lookup_run_source (h : Independent moves) {mv : Move α β} (hmv : mv ∈ moves)
    (hne : mv.source ≠ mv.target) : (run moves m).lookup mv.source = none := by
  have hfree : ∀ mv' ∈ moves, mv.source ≠ mv'.target := by
    intro mv' hmv' he
    have hsame := h.unchained mv' hmv' mv hmv he.symm
    exact hne (he.trans (List.inj_on_of_nodup_map h.sources hmv' hmv hsame ▸ rfl))
  induction moves generalizing m with
  | nil => cases hmv
  | cons mv₀ moves ih =>
    rcases List.mem_cons.mp hmv with rfl | hmem
    · have hkeep : (run moves (mv.apply m)).lookup mv.source = (mv.apply m).lookup mv.source :=
        lookup_run_untouched (fun mv' h' he => h.head_source h' he.symm)
          (fun mv' h' => hfree mv' (List.mem_cons_of_mem _ h'))
      exact hkeep.trans (Move.lookup_apply_source hne)
    · exact ih h.tail hmem fun mv' h' => hfree mv' (List.mem_cons_of_mem _ h')

/-- Every key after the run is a target or a key that no move touched. -/
theorem lookup_run_cases (h : Independent moves) {v : β}
    (hk : (run moves m).lookup k = some v) :
    (∃ mv ∈ moves, mv.target = k) ∨ (∀ mv ∈ moves, k ≠ mv.source) ∧ m.lookup k = some v := by
  by_cases ht : ∃ mv ∈ moves, mv.target = k
  · exact Or.inl ht
  · have hnot : ∀ mv ∈ moves, k ≠ mv.target := fun mv hmv he => ht ⟨mv, hmv, he.symm⟩
    have hs : ∀ mv ∈ moves, k ≠ mv.source := by
      rintro mv hmv rfl
      rw [lookup_run_source h hmv (hnot mv hmv)] at hk
      cases hk
    rw [lookup_run_untouched hs hnot] at hk
    exact Or.inr ⟨hs, hk⟩

theorem run_append (front back : List (Move α β)) (m : Map α β) :
    run (front ++ back) m = run back (run front m) := List.foldl_append

/-- The key that the last move leaves is empty. -/
theorem lookup_run_last (front : List (Move α β)) {mv : Move α β} (hne : mv.source ≠ mv.target) :
    (run (front ++ [mv]) m).lookup mv.source = none := by
  rw [run_append]
  exact Move.lookup_apply_source hne

theorem follow_of_not_source (hs : ∀ mv ∈ moves, k ≠ mv.source) : follow moves k = k := by
  induction moves with
  | nil => rfl
  | cons mv moves ih =>
    have hrest := ih fun mv' h => hs mv' (List.mem_cons_of_mem _ h)
    have hstep : (if k = mv.source then mv.target else k) = k := if_neg (hs mv List.mem_cons_self)
    rw [follow, List.foldl_cons, hstep]
    exact hrest

theorem Independent.follow_source (h : Independent moves) {mv : Move α β} (hmv : mv ∈ moves) :
    follow moves mv.source = mv.target := by
  induction moves with
  | nil => cases hmv
  | cons mv₀ moves ih =>
    rcases List.mem_cons.mp hmv with rfl | hmem
    · rw [follow, List.foldl_cons, if_pos rfl]
      exact follow_of_not_source fun mv' h' => h.head_unchained h'
    · rw [follow, List.foldl_cons, if_neg (h.head_source hmem)]
      exact ih h.tail hmem

end Run

end MapMoves
