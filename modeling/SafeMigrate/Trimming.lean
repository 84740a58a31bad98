import Mathlib.Data.List.Forall2
import Mathlib.Data.List.TakeWhile

/-! Lists without the blanks around them, for any notion of a blank. -/

namespace Trimming

variable {α : Type} (blank : α → Bool) {left right text : List α}

/-- What is left between the blanks at both ends. -/
def trim (text : List α) : List α :=
  ((text.dropWhile blank).reverse.dropWhile blank).reverse

/-- Neither end is a blank. -/
structure Trimmed (text : List α) : Prop where
  head : ∀ c ∈ text.head?, blank c = false
  last : ∀ c ∈ text.getLast?, blank c = false

variable {blank}

theorem dropWhile_of_head (h : ∀ c ∈ text.head?, blank c = false) :
    text.dropWhile blank = text := by
  cases text with
  | nil => rfl
  | cons c text =>
    have hc : blank c = false := h c (by simp)
    simp [hc]

theorem trim_of_trimmed (h : Trimmed blank text) : trim blank text = text := by
  have hreverse : text.reverse.dropWhile blank = text.reverse := by
    apply dropWhile_of_head
    simpa using h.last
  simp [trim, dropWhile_of_head h.head, hreverse]

theorem trim_append_left (h : ∀ c ∈ left, blank c = true) :
    trim blank (left ++ text) = trim blank text := by
  simp [trim, List.dropWhile_append_of_pos h]

theorem trim_blanks (h : ∀ c ∈ text, blank c = true) : trim blank text = [] := by
  have hnil : trim blank (text ++ []) = trim blank [] := trim_append_left h
  simpa [trim] using hnil

theorem trim_append_right (h : ∀ c ∈ right, blank c = true) :
    trim blank (text ++ right) = trim blank text := by
  have hreverse : ∀ c ∈ right.reverse, blank c = true := by simpa using h
  cases hdrop : text.dropWhile blank with
  | nil =>
    have hall : ∀ c ∈ text, blank c = true := List.dropWhile_eq_nil_iff.mp hdrop
    rw [trim_append_left hall, trim_blanks h, trim_blanks hall]
  | cons c rest =>
    simp [trim, List.dropWhile_append, hdrop, List.dropWhile_append_of_pos hreverse]

/-- Blanks around a text without blanks at its ends are what trimming takes away. -/
theorem trim_surrounded (hleft : ∀ c ∈ left, blank c = true) (hright : ∀ c ∈ right, blank c = true)
    (h : Trimmed blank text) : trim blank (left ++ text ++ right) = text := by
  rw [trim_append_right hright, trim_append_left hleft, trim_of_trimmed h]

theorem trimmed_trim (text : List α) : Trimmed blank (trim blank text) where
  head c hc := by
    cases hdrop : text.dropWhile blank with
    | nil => simp [trim, hdrop] at hc
    | cons d rest =>
      have hd : blank d = false := by
        have hhead := List.head?_dropWhile_not blank text
        simpa [hdrop] using hhead
      have hsplit : (d :: rest).reverse.dropWhile blank =
          (rest.reverse.dropWhile blank) ++ [d] ∨
          (d :: rest).reverse.dropWhile blank = [d] := by
        rw [List.reverse_cons, List.dropWhile_append]
        split
        · exact Or.inr (by simp [hd])
        · exact Or.inl rfl
      have hc' : d = c := by
        rcases hsplit with hsplit | hsplit
        · rw [trim, hdrop, hsplit, List.reverse_append] at hc
          exact Option.some_inj.mp hc
        · rw [trim, hdrop, hsplit] at hc
          exact Option.some_inj.mp hc
      exact hc' ▸ hd
  last c hc := by
    have hhead := List.head?_dropWhile_not blank (text.dropWhile blank).reverse
    rw [trim, List.getLast?_reverse] at hc
    rw [Option.mem_def.mp hc] at hhead
    exact hhead

/-- Whether there are blanks at the ends is seen from where the blanks are. -/
theorem trimmed_of_forall₂ {other : List α}
    (h : List.Forall₂ (fun c d => blank c = blank d) text other) (hother : Trimmed blank other) :
    Trimmed blank text := by
  have hhead {text other : List α} (h : List.Forall₂ (fun c d => blank c = blank d) text other)
      (hother : ∀ d ∈ other.head?, blank d = false) : ∀ c ∈ text.head?, blank c = false := by
    intro c hc
    cases h with
    | nil => cases hc
    | cons hsame _ =>
      obtain rfl := Option.some_inj.mp hc
      exact hsame.trans (hother _ rfl)
  refine ⟨hhead h hother.head, ?_⟩
  have hreverse := hhead (List.forall₂_reverse_iff.mpr h) (by simpa using hother.last)
  simpa using hreverse

theorem mem_of_mem_trim {c : α} (h : c ∈ trim blank text) : c ∈ text := by
  have h' : c ∈ (text.dropWhile blank).reverse.dropWhile blank := by simpa [trim] using h
  have hdrop := (List.dropWhile_sublist blank).mem h'
  exact (List.dropWhile_sublist blank).mem (List.mem_reverse.mp hdrop)

end Trimming
