import SafeMigrate.MapRebuild

/-! A map and a list brought up to date in place. What is left over from before
is refreshed only where it differs, so the result is the source exactly where
the comparison that decides this sees every difference. -/

namespace MapSync

open MapRebuild

variable {α β γ : Type}

/-- One entry under the same key, with a new value or given up. -/
def retainEntry (f : α → β → Option β) (e : Sigma fun _ : α => β) :
    Option (Sigma fun _ : α => β) := (f e.1 e.2).map fun v => ⟨e.1, v⟩

theorem keys_retain_sublist (f : α → β → Option β) (l : List (Sigma fun _ : α => β)) :
    (l.filterMap (retainEntry f)).keys.Sublist l.keys := by
  induction l with
  | nil => exact List.Sublist.refl _
  | cons e l ih =>
    cases he : f e.1 e.2 with
    | none =>
      rw [List.filterMap_cons_none (by simp [retainEntry, he])]
      exact ih.cons _
    | some v =>
      rw [List.filterMap_cons_some (b := ⟨e.1, v⟩) (by simp [retainEntry, he]), List.keys_cons,
        List.keys_cons]
      exact ih.cons_cons _

/-- `HashMap::retain`, which may also write the value. -/
def retain (f : α → β → Option β) (m : Map α β) : Map α β :=
  ⟨m.entries.filterMap (retainEntry f), (keys_retain_sublist f m.entries).nodup m.nodupKeys⟩

section Maps

variable [DecidableEq α]

theorem lookup_retain (f : α → β → Option β) (m : Map α β) (k : α) :
    (retain f m).lookup k = (m.lookup k).bind (f k) := by
  refine Option.ext fun v => ?_
  rw [← mem_entries_iff, retain, List.mem_filterMap]
  constructor
  · rintro ⟨⟨k', v'⟩, he, hv⟩
    obtain ⟨w, hw, hsame⟩ := Option.map_eq_some_iff.mp hv
    cases hsame
    rw [mem_entries_iff.mp he]
    exact hw
  · intro h
    obtain ⟨w, hw, hv⟩ := Option.bind_eq_some_iff.mp h
    exact ⟨⟨k, w⟩, mem_entries_iff.mpr hw, by simp [retainEntry, hv]⟩

/-- An entry of the source whose key the target does not have yet. -/
def insertMissing (present : α → γ → Option β) (target : Map α β) (e : Sigma fun _ : α => γ) :
    Map α β :=
  if (target.lookup e.1).isSome then target
  else match present e.1 e.2 with
    | some value => target.insert e.1 value
    | none => target

theorem lookup_insertMissing (present : α → γ → Option β) (target : Map α β)
    (e : Sigma fun _ : α => γ) (k : α) :
    (insertMissing present target e).lookup k =
      (target.lookup k).or (if k = e.1 then present e.1 e.2 else none) := by
  unfold insertMissing
  by_cases hk : k = e.1
  · subst hk
    rw [if_pos rfl]
    cases ht : target.lookup e.1 with
    | some v => simp [ht]
    | none => cases hp : present e.1 e.2 <;> simp [ht]
  · rw [if_neg hk]
    split
    · simp
    · split
      · simp [AList.lookup_insert_ne hk]
      · simp

theorem lookup_foldl_insertMissing (present : α → γ → Option β)
    (l : List (Sigma fun _ : α => γ)) (target : Map α β) (k : α) (hl : l.NodupKeys) :
    (l.foldl (insertMissing present) target).lookup k =
      (target.lookup k).or ((l.dlookup k).bind (present k)) := by
  induction l generalizing target with
  | nil => simp
  | cons e l ih =>
    obtain ⟨hnew, hrest⟩ := List.nodupKeys_cons.mp hl
    rw [List.foldl_cons, ih _ hrest, lookup_insertMissing, Option.or_assoc]
    congr 1
    by_cases hk : k = e.1
    · subst hk
      rw [if_pos rfl, List.dlookup_cons_eq, List.dlookup_eq_none.mpr hnew]
      simp
    · rw [if_neg hk, List.dlookup_cons_ne l e hk]
      simp

/-- A left over value is given up without a current one, and else updated to it. -/
def syncMap (present : α → γ → Option β) (update : β → β → β) (target : Map α β)
    (source : Map α γ) : Map α β :=
  source.entries.foldl (insertMissing present)
    (retain (fun k value => ((source.lookup k).bind (present k)).map (update value)) target)

/-- A key holds the current value where it is new, and else what the left over one is updated
to. -/
theorem lookup_syncMap (present : α → γ → Option β) (update : β → β → β) (target : Map α β)
    (source : Map α γ) (k : α) :
    (syncMap present update target source).lookup k =
      ((source.lookup k).bind (present k)).map fun current =>
        ((target.lookup k).map fun value => update value current).getD current := by
  rw [syncMap, lookup_foldl_insertMissing present _ _ _ source.nodupKeys, lookup_retain]
  change Option.or _ ((source.lookup k).bind (present k)) = _
  cases (source.lookup k).bind (present k) with
  | none => cases target.lookup k <;> rfl
  | some current => cases target.lookup k <;> rfl

/-- The result is the one from an empty target exactly if no left over value survives that
differs from the current one. -/
theorem lookup_syncMap_eq_fresh_iff {present : α → γ → Option β} {update : β → β → β}
    {target : Map α β} {source : Map α γ} {k : α} :
    (syncMap present update target source).lookup k =
        (syncMap present update ∅ source).lookup k ↔
      ∀ value ∈ target.lookup k, ∀ current ∈ (source.lookup k).bind (present k),
        update value current = current := by
  rw [lookup_syncMap, lookup_syncMap]
  cases (source.lookup k).bind (present k) with
  | none => simp
  | some current => cases target.lookup k <;> simp

end Maps

section Lists

variable [BEq α]

/-- One round over the source: the element in its place is replaced if it
differs, and behind the end one is pushed. -/
def syncStep (acc : List α × Nat) (a : α) : List α × Nat :=
  (match acc.1[acc.2]? with
    | some existing => if existing != a then acc.1.set acc.2 a else acc.1
    | none => acc.1 ++ [a],
    acc.2 + 1)

def syncList (target source : List α) : List α :=
  let acc := source.foldl syncStep (target, 0)
  acc.1.take acc.2

/-- The source, with what is left over in its place where that is equal. -/
def refreshInPlace : List α → List α → List α
  | existing :: target, a :: source =>
    (if existing != a then a else existing) :: refreshInPlace target source
  | _, source => source

theorem refreshInPlace_nil (target : List α) : refreshInPlace target [] = [] := by
  cases target <;> rfl

theorem length_refreshInPlace (target source : List α) :
    (refreshInPlace target source).length = source.length := by
  induction source generalizing target with
  | nil => rw [refreshInPlace_nil]
  | cons a source ih =>
    cases target with
    | nil => rfl
    | cons existing target => simp [refreshInPlace, ih]

theorem foldl_syncStep (done target source : List α) :
    source.foldl syncStep (done ++ target, done.length) =
      (done ++ refreshInPlace target source ++ target.drop source.length,
        done.length + source.length) := by
  induction source generalizing done target with
  | nil => simp [refreshInPlace_nil]
  | cons a source ih =>
    cases target with
    | nil =>
      have hstep : syncStep (done ++ [], done.length) a =
          ((done ++ [a]) ++ [], (done ++ [a]).length) := by
        simp [syncStep]
      rw [List.foldl_cons, hstep, ih]
      simp [refreshInPlace, Nat.add_comm 1, Nat.add_assoc]
    | cons existing target =>
      have hstep : syncStep (done ++ existing :: target, done.length) a =
          ((done ++ [if existing != a then a else existing]) ++ target,
            (done ++ [if existing != a then a else existing]).length) := by
        cases hne : existing != a <;> simp [syncStep, hne]
      rw [List.foldl_cons, hstep, ih]
      simp [refreshInPlace, Nat.add_comm 1, Nat.add_assoc]

theorem syncList_eq_refreshInPlace (target source : List α) :
    syncList target source = refreshInPlace target source := by
  have hrun := foldl_syncStep [] target source
  rw [List.nil_append, List.length_nil] at hrun
  rw [syncList, hrun]
  simp only [List.nil_append, Nat.zero_add]
  rw [← length_refreshInPlace target source, List.take_left]

/-- What the comparison sees is that of the source. -/
theorem map_syncList {f : α → γ} (h : ∀ x y, (x == y) = true → f x = f y) (target source : List α) :
    (syncList target source).map f = source.map f := by
  rw [syncList_eq_refreshInPlace]
  induction source generalizing target with
  | nil => rw [refreshInPlace_nil]
  | cons a source ih =>
    cases target with
    | nil => rfl
    | cons existing target =>
      rw [refreshInPlace, List.map_cons, List.map_cons, ih]
      cases hsame : existing == a with
      | true => simp [bne, hsame, h existing a hsame]
      | false => simp [bne, hsame]

/-- The list is the source exactly if what is left over in a place is not merely equal to what
belongs there. -/
theorem syncList_eq_iff {target source : List α} :
    syncList target source = source ↔
      ∀ pair ∈ target.zip source, (pair.1 == pair.2) = true → pair.1 = pair.2 := by
  rw [syncList_eq_refreshInPlace]
  induction source generalizing target with
  | nil => simp [refreshInPlace_nil]
  | cons a source ih =>
    cases target with
    | nil => simp [refreshInPlace]
    | cons existing target =>
      rw [refreshInPlace, List.cons.injEq, ih, List.zip_cons_cons, List.forall_mem_cons]
      refine and_congr_left' ?_
      cases hsame : existing == a <;> simp [bne, hsame]

end Lists

end MapSync
