import Mathlib.Data.Finset.Card
import Mathlib.Data.Finset.Image
import Mathlib.Data.List.Nodup

/-! Lists without repeats in the order in which their elements were first
inserted, against a record of the insertion times. -/

namespace InsertionOrder

variable {α : Type} [DecidableEq α]

/-- Elements, each with the time at which it was inserted. -/
abbrev History (α : Type) := Finset (Nat × α)

namespace History

variable (h : History α)

def Earliest (entry : Nat × α) : Prop := ∀ other ∈ h, other.2 = entry.2 → entry.1 ≤ other.1

instance (entry : Nat × α) : Decidable (h.Earliest entry) :=
  inferInstanceAs (Decidable (∀ other ∈ h, other.2 = entry.2 → entry.1 ≤ other.1))

/-- Of the entries of one element only the earliest. -/
def earliest : History α := h.filter h.Earliest

def record (now : Nat) (a : α) : History α :=
  if ∃ entry ∈ h, entry.2 = a then h else insert (now, a) h

def retain (keep : α → Bool) : History α := h.filter fun entry => keep entry.2 = true

/-- The entries that fewer than `n` others are earlier than. -/
def keepFirst (n : Nat) : History α :=
  h.filter fun entry => (h.filter fun other => other.1 < entry.1).card < n

/-- Elements that become equal have been there since the earliest of them. -/
def rewrite (f : Nat × α → α) : History α :=
  earliest (h.image fun entry => (entry.1, f entry))

/-- The elements of a list are inserted one after the other. -/
def inserted (now : Nat) (l : List α) : History α :=
  earliest ((l.zipIdx now).map fun entry => (entry.2, entry.1)).toFinset

end History

/-- Entries in order of time, all of them before now. -/
structure Timed (now : Nat) (entries : List (Nat × α)) : Prop where
  sorted : entries.Pairwise fun a b => a.1 < b.1
  before : ∀ entry ∈ entries, entry.1 < now

/-- The list has the elements of the history, by the times of their insertion. -/
def Lists (h : History α) (now : Nat) (l : List α) : Prop :=
  ∃ entries : List (Nat × α), Timed now entries ∧ entries.toFinset = h ∧ entries.map Prod.snd = l

theorem lists_empty : Lists (∅ : History α) 0 ([] : List α) :=
  ⟨[], ⟨List.Pairwise.nil, by simp⟩, rfl, rfl⟩

omit [DecidableEq α] in
theorem Timed.sublist {now : Nat} {entries entries' : List (Nat × α)} (h : Timed now entries)
    (hsub : entries'.Sublist entries) : Timed now entries' :=
  ⟨h.sorted.sublist hsub, fun entry hentry => h.before entry (hsub.mem hentry)⟩

omit [DecidableEq α] in
theorem Timed.map {now : Nat} {entries : List (Nat × α)} (h : Timed now entries)
    (f : Nat × α → α) : Timed now (entries.map fun entry => (entry.1, f entry)) := by
  constructor
  · exact List.pairwise_map.mpr h.sorted
  · intro entry hentry
    obtain ⟨other, hother, rfl⟩ := List.mem_map.mp hentry
    exact h.before other hother

/-- In order of time, the earliest entries are the first occurrences. -/
theorem eraseDups_of_sorted {entries : List (Nat × α)}
    (h : entries.Pairwise fun a b => a.1 < b.1) :
    (entries.filter fun entry => decide (History.Earliest entries.toFinset entry)).map Prod.snd =
      (entries.map Prod.snd).eraseDups := by
  induction hn : entries.length using Nat.strongRecOn generalizing entries with
  | ind n ih =>
    cases entries with
    | nil => rfl
    | cons first entries =>
      obtain ⟨hfirst, hsorted⟩ := List.pairwise_cons.mp h
      have hhead : History.Earliest (first :: entries).toFinset first := by
        intro other hother _
        rcases List.mem_cons.mp (List.mem_toFinset.mp hother) with rfl | hother
        · exact le_refl _
        · exact (hfirst other hother).le
      have htail : entries.filter (fun entry =>
            decide (History.Earliest (first :: entries).toFinset entry)) =
          (entries.filter fun entry => !entry.2 == first.2).filter (fun entry =>
            decide (History.Earliest (entries.filter fun entry => !entry.2 == first.2).toFinset
              entry)) := by
        rw [List.filter_filter]
        refine List.filter_congr fun entry hentry => ?_
        rw [Bool.eq_iff_iff]
        simp only [decide_eq_true_eq, Bool.and_eq_true, Bool.not_eq_true', beq_eq_false_iff_ne]
        constructor
        · intro hearliest
          refine ⟨fun other hother heq => hearliest other ?_ heq, fun heq => ?_⟩
          · have hmem := List.mem_of_mem_filter (List.mem_toFinset.mp hother)
            exact List.mem_toFinset.mpr (List.mem_cons_of_mem first hmem)
          · have hle := hearliest first (by simp) heq.symm
            have hlt := hfirst entry hentry
            omega
        · rintro ⟨hearliest, hne⟩ other hother heq
          rcases List.mem_cons.mp (List.mem_toFinset.mp hother) with rfl | hother
          · exact absurd heq.symm hne
          · refine hearliest other (List.mem_toFinset.mpr (List.mem_filter.mpr ⟨hother, ?_⟩)) heq
            simpa [heq] using hne
      have hlength : (entries.filter fun entry => !entry.2 == first.2).length < n := by
        have hle := List.length_filter_le (fun entry => !entry.2 == first.2) entries
        rw [List.length_cons] at hn
        omega
      have hrest := ih _ hlength (hsorted.sublist List.filter_sublist) rfl
      rw [List.filter_cons_of_pos (by simpa using hhead), List.map_cons, List.map_cons,
        List.eraseDups_cons, htail, hrest, List.filter_map]
      rfl

/-- Of a list with times, the first occurrences are the earliest entries. -/
theorem lists_earliest {now : Nat} {entries : List (Nat × α)} (h : Timed now entries) :
    Lists (History.earliest entries.toFinset) now (entries.map Prod.snd).eraseDups := by
  refine ⟨entries.filter fun entry => decide (History.Earliest entries.toFinset entry),
    h.sublist List.filter_sublist, ?_, eraseDups_of_sorted h.sorted⟩
  ext entry
  simp [History.earliest]

section Steps

variable {h : History α} {now : Nat} {l : List α} (hl : Lists h now l)

include hl

theorem Lists.mem_iff {a : α} : a ∈ l ↔ ∃ entry ∈ h, entry.2 = a := by
  obtain ⟨entries, -, rfl, rfl⟩ := hl
  simp

theorem Lists.record_new {a : α} (ha : a ∉ l) : Lists (h.record now a) (now + 1) (l ++ [a]) := by
  have hnew : ¬∃ entry ∈ h, entry.2 = a := fun hex => ha (hl.mem_iff.mpr hex)
  obtain ⟨entries, htimed, rfl, rfl⟩ := hl
  refine ⟨entries ++ [(now, a)], ⟨?_, ?_⟩, ?_, by simp⟩
  · refine List.pairwise_append.mpr ⟨htimed.sorted, List.pairwise_singleton _ _, ?_⟩
    intro entry hentry other hother
    rw [List.mem_singleton.mp hother]
    exact htimed.before entry hentry
  · intro entry hentry
    rcases List.mem_append.mp hentry with hentry | hentry
    · exact Nat.lt_succ_of_lt (htimed.before entry hentry)
    · rw [List.mem_singleton.mp hentry]
      exact Nat.lt_succ_self now
  · rw [History.record, if_neg hnew]
    ext entry
    simp [or_comm]

theorem Lists.record_present {a : α} (ha : a ∈ l) : Lists (h.record now a) (now + 1) l := by
  rw [History.record, if_pos (hl.mem_iff.mp ha)]
  obtain ⟨entries, htimed, hh, hmap⟩ := hl
  exact ⟨entries, ⟨htimed.sorted, fun entry hentry =>
    Nat.lt_succ_of_lt (htimed.before entry hentry)⟩, hh, hmap⟩

theorem Lists.retain (keep : α → Bool) : Lists (h.retain keep) now (l.filter keep) := by
  obtain ⟨entries, htimed, rfl, rfl⟩ := hl
  refine ⟨entries.filter fun entry => keep entry.2, htimed.sublist List.filter_sublist, ?_, ?_⟩
  · ext entry
    simp [History.retain]
  · rw [List.filter_map]
    rfl

theorem Lists.keepFirst (n : Nat) : Lists (h.keepFirst n) now (l.take n) := by
  obtain ⟨entries, htimed, rfl, rfl⟩ := hl
  refine ⟨entries.take n, htimed.sublist (List.take_sublist n entries), ?_, List.map_take⟩
  have hsorted := htimed.sorted
  clear htimed
  ext entry
  simp only [History.keepFirst, List.mem_toFinset, Finset.mem_filter]
  -- the entries before one in the list are those with an earlier time
  induction entries generalizing n with
  | nil => simp
  | cons first entries ih =>
    obtain ⟨hfirst, hsorted⟩ := List.pairwise_cons.mp hsorted
    cases n with
    | zero => simp
    | succ n =>
      rw [List.take_succ_cons, List.mem_cons, List.mem_cons, ih n hsorted]
      by_cases hentry : entry = first
      · subst hentry
        have hnone : ((entry :: entries).toFinset.filter fun other => other.1 < entry.1) = ∅ := by
          rw [Finset.filter_eq_empty_iff]
          intro other hother
          rcases List.mem_cons.mp (List.mem_toFinset.mp hother) with rfl | hother
          · exact lt_irrefl _
          · exact (hfirst other hother).not_gt
        rw [hnone]
        simp
      · have hcount (hmem : entry ∈ entries) :
            ((first :: entries).toFinset.filter fun other => other.1 < entry.1).card =
              (entries.toFinset.filter fun other => other.1 < entry.1).card + 1 := by
          have hnot : first ∉ entries.toFinset.filter fun other => other.1 < entry.1 := by
            intro hin
            have hfalse := hfirst first (List.mem_toFinset.mp (Finset.mem_filter.mp hin).1)
            exact lt_irrefl _ hfalse
          rw [List.toFinset_cons, Finset.filter_insert, if_pos (hfirst entry hmem),
            Finset.card_insert_of_notMem hnot]
        simp only [hentry, false_or]
        refine and_congr_right fun hmem => ?_
        rw [hcount hmem]
        omega

/-- A rewrite of every element in place, with the repeats removed. -/
theorem Lists.rewrite {f : Nat × α → α} {g : List α → List α}
    (hg : ∀ entries : List (Nat × α), entries.toFinset = h → (entries.Pairwise fun a b => a.1 < b.1) →
      g (entries.map Prod.snd) = entries.map f) :
    Lists (h.rewrite f) now (g l).eraseDups := by
  obtain ⟨entries, htimed, hh, rfl⟩ := hl
  have hlists := lists_earliest (htimed.map f)
  have himage : (entries.map fun entry => (entry.1, f entry)).toFinset =
      h.image fun entry => (entry.1, f entry) := by
    rw [← hh]
    ext entry
    simp
  rw [himage, List.map_map] at hlists
  rw [hg entries hh htimed.sorted]
  exact hlists

end Steps

theorem lists_inserted (now : Nat) (l : List α) :
    Lists (History.inserted now l) (now + l.length) l.eraseDups := by
  have htimed : Timed (now + l.length) ((l.zipIdx now).map fun entry => (entry.2, entry.1)) := by
    constructor
    · rw [List.pairwise_map]
      have hsorted : ((l.zipIdx now).map Prod.snd).Pairwise (· < ·) := by
        rw [List.zipIdx_map_snd]
        exact List.pairwise_lt_range'
      exact List.pairwise_map.mp hsorted
    · intro entry hentry
      obtain ⟨other, hother, rfl⟩ := List.mem_map.mp hentry
      have hrange : other.2 ∈ (l.zipIdx now).map Prod.snd := List.mem_map_of_mem hother
      rw [List.zipIdx_map_snd, List.mem_range'_1] at hrange
      exact hrange.2
  have hlists := lists_earliest htimed
  have hmap : ((l.zipIdx now).map fun entry => (entry.2, entry.1)).map Prod.snd = l := by
    rw [List.map_map]
    exact List.zipIdx_map_fst now l
  rw [hmap] at hlists
  exact hlists

end InsertionOrder
