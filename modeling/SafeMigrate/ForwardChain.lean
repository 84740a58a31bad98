import Mathlib.Data.Finset.Card
import Mathlib.Logic.Relation

/-! Chains of forwarding pointers. A search follows them with a visited list
and answers with the end of the chain, or with its start when there is none. -/

namespace ForwardChain

variable {α : Type} (next : α → Option α)

def Leads (a b : α) : Prop := next a = some b

abbrev Reaches : α → α → Prop := Relation.ReflTransGen (Leads next)

/-- No node on the chain from `a` is its last. -/
def Endless (a : α) : Prop := ∀ x, Reaches next a x → next x ≠ none

variable {next}

theorem leads_rightUnique : Relator.RightUnique (Leads next) := by
  intro a b c hb hc
  exact Option.some.inj (hb.symm.trans hc)

theorem Reaches.next_ne_none {a b : α} (h : Relation.TransGen (Leads next) a b) :
    next a ≠ none := by
  obtain ⟨c, hc, -⟩ := Relation.TransGen.head'_iff.mp h
  rw [show next a = some c from hc]
  exact Option.some_ne_none c

/-- What a node on a cycle leads to lies on the cycle as well. -/
theorem cycle_of_reaches {a b : α} (ha : Relation.TransGen (Leads next) a a)
    (h : Reaches next a b) : Relation.TransGen (Leads next) b b := by
  induction h with
  | refl => exact ha
  | tail _ hbc ih =>
    obtain ⟨c', hc', hback⟩ := Relation.TransGen.head'_iff.mp ih
    obtain rfl := leads_rightUnique hbc hc'
    exact Relation.TransGen.tail' hback hbc

theorem endless_of_cycle {a b : α} (hab : Reaches next a b)
    (hb : Relation.TransGen (Leads next) b b) : Endless next a := by
  intro x hx
  rcases Relation.ReflTransGen.total_of_right_unique leads_rightUnique hab hx with h | h
  · exact Reaches.next_ne_none (cycle_of_reaches hb h)
  · exact Reaches.next_ne_none (Relation.TransGen.trans_right h hb)

/-- A chain has at most one end. -/
theorem end_unique {a b c : α} (hab : Reaches next a b) (hb : next b = none)
    (hac : Reaches next a c) (hc : next c = none) : b = c := by
  have stuck {x y : α} (h : Reaches next x y) (hx : next x = none) : x = y := by
    rcases Relation.ReflTransGen.cases_head h with rfl | ⟨z, hz, -⟩
    · rfl
    · exact absurd (hx.symm.trans hz) (by simp)
  rcases Relation.ReflTransGen.total_of_right_unique leads_rightUnique hab hac with h | h
  · exact stuck h hb
  · exact (stuck h hc).symm

section Extend

variable {next' : α → Option α}

/-- A chain is what its own nodes lead to. -/
theorem Endless.of_agree {a : α} (h : Endless next a)
    (hagree : ∀ x, Reaches next a x → next' x = next x) : Endless next' a := by
  have hreach {x : α} (hx : Reaches next' a x) : Reaches next a x := by
    induction hx with
    | refl => exact Relation.ReflTransGen.refl
    | tail _ hbc ih => exact ih.tail ((hagree _ ih).symm.trans hbc)
  intro x hx
  rw [hagree x (hreach hx)]
  exact h x (hreach hx)

variable (hext : ∀ a b, next a = some b → next' a = some b)
include hext

theorem Reaches.extend {a b : α} (h : Reaches next a b) : Reaches next' a b :=
  Relation.ReflTransGen.mono hext _ _ h

theorem Endless.extend {a : α} (h : Endless next a) : Endless next' a := by
  refine h.of_agree fun x hx => ?_
  obtain ⟨y, hy⟩ := Option.ne_none_iff_exists'.mp (h x hx)
  rw [hy, hext x y hy]

end Extend

section Chase

variable [DecidableEq α]

def chase (next : α → Option α) (start : α) : Nat → List α → α → α
  | 0, _, _ => start
  | fuel + 1, visited, current =>
    if current ∈ visited then start
    else match next current with
      | some x => chase next start fuel (current :: visited) x
      | none => current

/-- The search answers with the end of the chain, if it has one. -/
theorem chase_spec {sources : Finset α} (hsources : ∀ x, next x ≠ none → x ∈ sources)
    {start : α} {fuel : Nat} {visited : List α} {current : α} (hn : visited.Nodup)
    (hv : ∀ x ∈ visited, Relation.TransGen (Leads next) x current)
    (hstart : Reaches next start current) (hfuel : sources.card < fuel + visited.length) :
    let answer := chase next start fuel visited current
    next answer = none ∧ Reaches next start answer ∨ answer = start ∧ Endless next start := by
  induction fuel generalizing visited current with
  | zero =>
    have hsub : visited ⊆ sources.toList := fun x hx =>
      Finset.mem_toList.mpr (hsources x (Reaches.next_ne_none (hv x hx)))
    have hlen := (List.subperm_of_subset hn hsub).length_le
    rw [Finset.length_toList] at hlen
    omega
  | succ fuel ih =>
    unfold chase
    split
    · rename_i hmem
      exact Or.inr ⟨rfl, endless_of_cycle hstart (hv current hmem)⟩
    · rename_i hmem
      split
      · rename_i x hx
        refine ih (List.nodup_cons.mpr ⟨hmem, hn⟩) ?_ (hstart.tail hx) ?_
        · intro y hy
          rcases List.mem_cons.mp hy with rfl | hy
          · exact Relation.TransGen.single hx
          · exact (hv y hy).tail hx
        · simp only [List.length_cons]
          omega
      · rename_i hx
        exact Or.inl ⟨hx, hstart⟩

theorem chase_eq_iff {sources : Finset α} (hsources : ∀ x, next x ≠ none → x ∈ sources)
    {start answer : α} {fuel : Nat} (hfuel : sources.card < fuel) :
    chase next start fuel [] start = answer ↔
      next answer = none ∧ Reaches next start answer ∨ answer = start ∧ Endless next start := by
  have hspec := chase_spec hsources List.nodup_nil (by simp)
    (Relation.ReflTransGen.refl : Reaches next start start) (by simpa using hfuel)
  constructor
  · rintro rfl
    exact hspec
  · rintro (⟨hnone, hreach⟩ | ⟨rfl, hendless⟩)
    · rcases hspec with ⟨h, hr⟩ | ⟨-, hendless⟩
      · exact end_unique hr h hreach hnone
      · exact absurd hnone (hendless answer hreach)
    · rcases hspec with ⟨h, hr⟩ | ⟨h, -⟩
      · exact absurd h (hendless _ hr)
      · exact h

theorem chase_eq_start_iff {sources : Finset α} (hsources : ∀ x, next x ≠ none → x ∈ sources)
    {start : α} {fuel : Nat} (hfuel : sources.card < fuel) :
    chase next start fuel [] start = start ↔ next start = none ∨ Endless next start := by
  rw [chase_eq_iff hsources hfuel]
  constructor
  · rintro (⟨h, -⟩ | ⟨-, h⟩)
    · exact Or.inl h
    · exact Or.inr h
  · rintro (h | h)
    · exact Or.inl ⟨h, Relation.ReflTransGen.refl⟩
    · exact Or.inr ⟨rfl, h⟩

end Chase

section Climb

/-- The chain from `a` runs into a cycle. -/
def RunsIntoCycle (next : α → Option α) (a : α) : Prop :=
  ∃ b, Reaches next a b ∧ Relation.TransGen (Leads next) b b

theorem transGen_head {target a b : α} (h : next a = some b) :
    Relation.TransGen (Leads next) a target ↔
      b = target ∨ Relation.TransGen (Leads next) b target := by
  constructor
  · intro htarget
    obtain ⟨c, hc, hrest⟩ := Relation.TransGen.head'_iff.mp htarget
    have heq : b = c := leads_rightUnique h hc
    rw [← heq] at hrest
    rcases Relation.reflTransGen_iff_eq_or_transGen.mp hrest with hend | hlater
    · exact Or.inl hend.symm
    · exact Or.inr hlater
  · rintro (rfl | hlater)
    · exact .single h
    · exact .head h hlater

theorem runsIntoCycle_head {a b : α} (h : next a = some b) :
    RunsIntoCycle next b → RunsIntoCycle next a := by
  rintro ⟨c, hreach, hcycle⟩
  exact ⟨c, .head h hreach, hcycle⟩

variable [DecidableEq α]

/-- Whether the chain comes to `target` after its start, or turns back into itself. -/
def climb (next : α → Option α) (target : α) : Nat → List α → α → Bool
  | 0, _, _ => true
  | fuel + 1, visited, current =>
    if current ∈ visited then true
    else match next current with
      | some x => if x = target then true else climb next target fuel (current :: visited) x
      | none => false

/-- A climb that ends has met neither the target nor a node twice. -/
theorem climb_spec {sources : Finset α} (hsources : ∀ x, next x ≠ none → x ∈ sources) {target : α}
    {fuel : Nat} {visited : List α} {current : α} (hn : visited.Nodup)
    (hv : ∀ x ∈ visited, Relation.TransGen (Leads next) x current)
    (hfuel : sources.card < fuel + visited.length) :
    if climb next target fuel visited current = true then
      Relation.TransGen (Leads next) current target ∨ RunsIntoCycle next current
    else ¬Relation.TransGen (Leads next) current target ∧ ¬Endless next current := by
  induction fuel generalizing visited current with
  | zero =>
    have hsub : visited ⊆ sources.toList := fun x hx =>
      Finset.mem_toList.mpr (hsources x (Reaches.next_ne_none (hv x hx)))
    have hlen := (List.subperm_of_subset hn hsub).length_le
    rw [Finset.length_toList] at hlen
    omega
  | succ fuel ih =>
    rw [climb]
    by_cases hmem : current ∈ visited
    · rw [if_pos hmem, if_pos rfl]
      exact Or.inr ⟨current, .refl, hv current hmem⟩
    · rw [if_neg hmem]
      cases hx : next current with
      | none =>
        rw [if_neg Bool.false_ne_true]
        refine ⟨fun htarget => Reaches.next_ne_none htarget hx, fun hendless => ?_⟩
        exact hendless current .refl hx
      | some x =>
        by_cases htarget : x = target
        · have hstep : Relation.TransGen (Leads next) current target := htarget ▸ .single hx
          simpa [htarget] using Or.inl hstep
        · have hlater := @ih _ x (List.nodup_cons.mpr ⟨hmem, hn⟩)
            (fun y hy => by
              rcases List.mem_cons.mp hy with rfl | hy
              · exact Relation.TransGen.single hx
              · exact (hv y hy).tail hx)
            (by rw [List.length_cons]; omega)
          simp only [if_neg htarget]
          split
          · rename_i hclimb
            rw [if_pos hclimb] at hlater
            rcases hlater with hlater | hcycle
            · exact Or.inl ((transGen_head hx).mpr (Or.inr hlater))
            · exact Or.inr (runsIntoCycle_head hx hcycle)
          · rename_i hclimb
            rw [if_neg hclimb] at hlater
            obtain ⟨hnot, hends⟩ := hlater
            refine ⟨fun h => ?_, fun hendless => hends fun y hy => hendless y (.head hx hy)⟩
            rcases (transGen_head hx).mp h with heq | hafter
            · exact htarget heq
            · exact hnot hafter

theorem climb_eq_true_iff {sources : Finset α} (hsources : ∀ x, next x ≠ none → x ∈ sources)
    {target start : α} {fuel : Nat} (hfuel : sources.card < fuel) :
    climb next target fuel [] start = true ↔
      Relation.TransGen (Leads next) start target ∨ RunsIntoCycle next start := by
  have hspec := @climb_spec _ _ _ sources hsources target fuel [] start List.nodup_nil (by simp)
    (by simpa using hfuel)
  cases hclimb : climb next target fuel [] start with
  | true => simpa [hclimb] using hspec
  | false =>
    rw [hclimb, if_neg Bool.false_ne_true] at hspec
    obtain ⟨hnot, hends⟩ := hspec
    refine ⟨fun h => absurd h Bool.false_ne_true, ?_⟩
    rintro (htarget | ⟨b, hreach, hcycle⟩)
    · exact absurd htarget hnot
    · exact absurd (endless_of_cycle hreach hcycle) hends

end Climb

end ForwardChain
