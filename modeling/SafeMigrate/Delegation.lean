import Mathlib.Data.ENat.Basic
import Mathlib.Tactic.ByContra
import Mathlib.Tactic.Tauto

/-! Grants that may be passed on. Who grants needs an option, an option goes with
its last grantor, and who lost it loses what it granted. Withdrawals in any order
are compared with those who lose their option at all. -/

namespace Delegation

variable {α : Type}

/-- Who granted to whom, who granted the option to whom, and whose option is on
record or fixed. -/
structure Ledger (α : Type) where
  grants : α → α → Prop
  options : α → α → Prop
  held : α → Prop
  fixed : α → Prop

namespace Ledger

variable (L : Ledger α)

def holds (a : α) : Prop := L.fixed a ∨ L.held a

/-- Some grants taken back. An option goes if it has no grantor left. -/
def strike (K : α → α → Prop) : Ledger α where
  grants g a := L.grants g a ∧ ¬K g a
  options g a := L.options g a ∧ ¬K g a
  held a := L.held a ∧ ∃ g, L.options g a ∧ ¬K g a
  fixed := L.fixed

/-- All that some have granted, taken back. -/
def without (Q : α → Prop) : Ledger α := L.strike fun g a => Q g ∧ L.grants g a

/-- Each option on record has a grantor on record. -/
def Recorded : Prop := ∀ a, L.held a → ∃ g, L.options g a

variable {L} {K K' : α → α → Prop} {Q : α → Prop} {a g : α}

theorem recorded_strike : (L.strike K).Recorded := by
  rintro a ⟨-, g, hoption, hkept⟩
  exact ⟨g, hoption, hkept⟩

theorem strike_strike : (L.strike K).strike K' = L.strike fun g a => K g a ∨ K' g a := by
  unfold strike
  congr 1
  · funext g a
    simp only [not_or, and_assoc]
  · funext g a
    simp only [not_or, and_assoc]
  · funext a
    simp only [not_or, and_assoc, eq_iff_iff]
    constructor
    · rintro ⟨hheld, -, hleft⟩
      exact ⟨hheld, hleft⟩
    · rintro ⟨hheld, g, hoption, hkept, hkept'⟩
      exact ⟨hheld, ⟨g, hoption, hkept⟩, g, hoption, hkept, hkept'⟩

theorem strike_congr (hK : ∀ g a, L.grants g a ∨ L.options g a → (K g a ↔ K' g a)) :
    L.strike K = L.strike K' := by
  unfold strike
  congr 1
  · funext g a
    exact propext (and_congr_right fun h => not_congr (hK g a (.inl h)))
  · funext g a
    exact propext (and_congr_right fun h => not_congr (hK g a (.inr h)))
  · funext a
    exact propext (and_congr_right fun _ => exists_congr fun g =>
      and_congr_right fun h => not_congr (hK g a (.inr h)))

theorem strike_none (h : L.Recorded) (hK : ∀ g a, ¬K g a) : L.strike K = L := by
  have hkept (p : Prop) (g a : α) : p ∧ ¬K g a ↔ p := and_iff_left (hK g a)
  unfold strike
  simp only [hkept]
  congr 1
  funext a
  exact propext (and_iff_left_of_imp (h a))

theorem without_none (h : L.Recorded) : L.without (fun _ => False) = L :=
  strike_none h fun _ _ hstruck => hstruck.1

/-- One more loses what it granted. -/
theorem without_without :
    (L.without Q).strike (fun g b => g = a ∧ (L.without Q).grants g b) =
      L.without fun g => g = a ∨ Q g := by
  unfold without
  rw [strike_strike]
  refine strike_congr fun g b _ => ?_
  show (Q g ∧ L.grants g b) ∨ (g = a ∧ L.grants g b ∧ ¬(Q g ∧ L.grants g b)) ↔ _
  tauto

theorem grants_without : (L.without Q).grants g a ↔ L.grants g a ∧ ¬Q g := by
  show L.grants g a ∧ ¬(Q g ∧ L.grants g a) ↔ _
  tauto

end Ledger

open Ledger

variable {L : Ledger α} {start : α → Prop}

/-- Who loses its option, in the end, when those in `start` have been struck and
those in `spared` keep theirs. -/
inductive Lost (L : Ledger α) (start spared : α → Prop) : α → Prop
  | start {a : α} : start a → ¬L.holds a → ¬spared a → Lost L start spared a
  | unheld {a b : α} : Lost L start spared b → L.grants b a → ¬L.holds a → ¬spared a →
      Lost L start spared a
  | exhausted {a c : α} : L.options c a → ¬L.fixed a → (∀ c, L.options c a → L.grants c a) →
      (∀ c, L.options c a → Lost L start spared c) → ¬spared a → Lost L start spared a

theorem Lost.mono {spared spared' : α → Prop} (hspared : ∀ a, spared' a → spared a) {a : α}
    (h : Lost L start spared a) : Lost L start spared' a := by
  induction h with
  | start hstart hholds hnot => exact .start hstart hholds fun h => hnot (hspared _ h)
  | unheld _ hgrant hholds hnot ih => exact .unheld ih hgrant hholds fun h => hnot (hspared _ h)
  | exhausted hoption hfixed hgrants _ hnot ih =>
    exact .exhausted hoption hfixed hgrants ih fun h => hnot (hspared _ h)

theorem Lost.not_spared {spared : α → Prop} {a : α} (h : Lost L start spared a) : ¬spared a := by
  cases h with
  | start _ _ hnot => exact hnot
  | unheld _ _ _ hnot => exact hnot
  | exhausted _ _ _ _ hnot => exact hnot

/-- Those who lose an option they have granted by are on record as grantors, and
lose all its grantors together: no grantor is lost while one is spared. -/
structure Orderly (L : Ledger α) (start exempt : α → Prop) : Prop where
  recorded : ∀ a b, Lost L start (fun _ => False) a → ¬exempt a → L.options a b → L.grants a b
  together : ∀ a b c d, Lost L start (fun _ => False) a → ¬exempt a → L.holds a → L.grants a d →
    L.options c a → L.grants b a → ¬Lost L start (fun x => x = c) b

/-- Where an option has one grantor, and no other grant beside it, there is
nothing to put in order. -/
theorem orderly_of_unique {exempt : α → Prop} (hrecorded : ∀ a b, L.options a b → L.grants a b)
    (hunique : ∀ a b c, L.options c a → L.grants b a → b = c) : Orderly L start exempt where
  recorded a b _ _ hoption := hrecorded a b hoption
  together a b c d _ _ _ _ hoption hgrant hlost := by
    exact hlost.not_spared (hunique a b c hoption hgrant)

/-- What the walk over the withdrawn has done: `Q` have lost what they granted,
and all others that were visited held their option then. -/
structure Walked (L : Ledger α) (start : α → Prop) (visited pending : List α) (Q : α → Prop) :
    Prop where
  visited_of_gone : ∀ q, Q q → q ∈ visited
  reached : ∀ a ∈ pending, start a ∨ ∃ b, Q b ∧ L.grants b a
  starts : ∀ a, start a → a ∈ visited ∨ a ∈ pending
  touched : ∀ q a, Q q → L.grants q a → a ∈ visited ∨ a ∈ pending
  lost : ∀ q, Q q → ∀ spared : α → Prop, (∀ c, spared c → ¬Q c) → Lost L start spared q
  held : ∀ a ∈ visited, ¬Q a → L.holds a ∧ (L.fixed a ∨ start a ∨
    ∃ c, L.options c a ∧ (¬L.grants c a ∨ ∃ b, L.grants b a ∧ Lost L start (fun x => x = c) b))

namespace Walked

variable {visited pending : List α} {Q : α → Prop} {a : α}

theorem init (hstart : ∀ a, start a → a ∈ pending) (hpending : ∀ a ∈ pending, start a) :
    Walked L start [] pending fun _ => False where
  visited_of_gone _ hgone := hgone.elim
  reached a hmem := .inl (hpending a hmem)
  starts a ha := .inr (hstart a ha)
  touched _ _ hgone := hgone.elim
  lost _ hgone := hgone.elim
  held _ hmem := absurd hmem List.not_mem_nil

theorem skip (h : Walked L start visited (a :: pending) Q) (ha : a ∈ visited) :
    Walked L start visited pending Q where
  visited_of_gone := h.visited_of_gone
  reached b hmem := h.reached b (List.mem_cons_of_mem a hmem)
  starts b hb := by
    rcases h.starts b hb with hseen | hmem
    · exact .inl hseen
    · rcases List.mem_cons.mp hmem with rfl | hmem
      · exact .inl ha
      · exact .inr hmem
  touched q b hgone hgrant := by
    rcases h.touched q b hgone hgrant with hseen | hmem
    · exact .inl hseen
    · rcases List.mem_cons.mp hmem with rfl | hmem
      · exact .inl ha
      · exact .inr hmem
  lost := h.lost
  held := h.held

/-- One that still holds its option is left as it is. -/
theorem keep (h : Walked L start visited (a :: pending) Q) (hholds : (L.without Q).holds a) :
    Walked L start (a :: visited) pending Q where
  visited_of_gone q hgone := List.mem_cons_of_mem a (h.visited_of_gone q hgone)
  reached b hmem := h.reached b (List.mem_cons_of_mem a hmem)
  starts b hb := by
    rcases h.starts b hb with hseen | hmem
    · exact .inl (List.mem_cons_of_mem a hseen)
    · rcases List.mem_cons.mp hmem with rfl | hmem
      · exact .inl List.mem_cons_self
      · exact .inr hmem
  touched q b hgone hgrant := by
    rcases h.touched q b hgone hgrant with hseen | hmem
    · exact .inl (List.mem_cons_of_mem a hseen)
    · rcases List.mem_cons.mp hmem with rfl | hmem
      · exact .inl List.mem_cons_self
      · exact .inr hmem
  lost := h.lost
  held b hmem hkept := by
    rcases List.mem_cons.mp hmem with rfl | hmem
    · rcases hholds with hfixed | ⟨hheld, c, hoption, hleft⟩
      · exact ⟨.inl hfixed, .inl hfixed⟩
      · refine ⟨.inr hheld, .inr ?_⟩
        rcases h.reached b List.mem_cons_self with hstart | ⟨q, hgone, hgrant⟩
        · exact .inl hstart
        · -- the grantor is gone while `c` is not
          refine .inr ⟨c, hoption, ?_⟩
          by_cases hc : L.grants c b
          · refine .inr ⟨q, hgrant, h.lost q hgone _ ?_⟩
            rintro x rfl hx
            exact hleft ⟨hx, hc⟩
          · exact .inl hc
    · exact h.held b hmem hkept

/-- One that has lost its option loses what it granted. -/
theorem withdraw (h : Walked L start visited (a :: pending) Q) (hrecorded : L.Recorded)
    (hlost : ¬(L.without Q).holds a) {next : List α}
    (hnext : ∀ b, b ∈ next ↔ L.grants a b) :
    Walked L start (a :: visited) (next ++ pending) fun g => g = a ∨ Q g where
  visited_of_gone q hgone := by
    rcases hgone with rfl | hgone
    · exact List.mem_cons_self
    · exact List.mem_cons_of_mem a (h.visited_of_gone q hgone)
  reached b hmem := by
    rcases List.mem_append.mp hmem with hmem | hmem
    · exact .inr ⟨a, .inl rfl, (hnext b).mp hmem⟩
    · rcases h.reached b (List.mem_cons_of_mem a hmem) with hstart | ⟨q, hgone, hgrant⟩
      · exact .inl hstart
      · exact .inr ⟨q, .inr hgone, hgrant⟩
  starts b hb := by
    rcases h.starts b hb with hseen | hmem
    · exact .inl (List.mem_cons_of_mem a hseen)
    · rcases List.mem_cons.mp hmem with rfl | hmem
      · exact .inl List.mem_cons_self
      · exact .inr (List.mem_append_right _ hmem)
  touched q b hgone hgrant := by
    rcases hgone with rfl | hgone
    · exact .inr (List.mem_append_left _ ((hnext b).mpr hgrant))
    · rcases h.touched q b hgone hgrant with hseen | hmem
      · exact .inl (List.mem_cons_of_mem a hseen)
      · rcases List.mem_cons.mp hmem with rfl | hmem
        · exact .inl List.mem_cons_self
        · exact .inr (List.mem_append_right _ hmem)
  lost q hgone spared hspared := by
    have hbefore : ∀ c, spared c → ¬Q c := fun c hc hgone => hspared c hc (.inr hgone)
    rcases hgone with rfl | hgone
    · have hnot : ¬spared q := fun hq => hspared q hq (.inl rfl)
      by_cases hholds : L.holds q
      · have hfixed : ¬L.fixed q := fun hfixed => hlost (.inl hfixed)
        have hheld : L.held q := hholds.resolve_left hfixed
        have hall : ∀ c, L.options c q → Q c ∧ L.grants c q := by
          intro c hoption
          by_contra hleft
          exact hlost (.inr ⟨hheld, c, hoption, hleft⟩)
        obtain ⟨c, hoption⟩ := hrecorded q hheld
        exact .exhausted hoption hfixed (fun c hoption => (hall c hoption).2)
          (fun c hoption => h.lost c (hall c hoption).1 spared hbefore) hnot
      · rcases h.reached q List.mem_cons_self with hstart | ⟨b, hgone, hgrant⟩
        · exact .start hstart hholds hnot
        · exact .unheld (h.lost b hgone spared hbefore) hgrant hholds hnot
    · exact h.lost q hgone spared hbefore
  held b hmem hkept := by
    rcases List.mem_cons.mp hmem with rfl | hmem
    · exact absurd (.inl rfl) hkept
    · exact h.held b hmem fun hgone => hkept (.inr hgone)

/-- At the end of an orderly walk every grantor left holds its option. -/
theorem holds_of_orderly {exempt : α → Prop} (h : Walked L start visited [] Q)
    (hrecorded : L.Recorded) (horderly : Orderly L start exempt)
    (hstarts : ∀ a, start a → L.holds a → ¬Lost L start (fun _ => False) a)
    (hbefore : ∀ g a, L.grants g a ∨ L.options g a → ¬exempt g → L.holds g ∨ start g)
    {g a : α} (hexempt : ¬exempt g) (hleft : (L.without Q).grants g a ∨ (L.without Q).options g a) :
    (L.without Q).holds g := by
  have hgrantor : L.grants g a ∨ L.options g a := hleft.imp And.left And.left
  by_contra hnot
  have hgone : ¬Q g := by
    intro hgone
    rcases hleft with hleft | ⟨hoption, hkept⟩
    · exact (grants_without.mp hleft).2 hgone
    · have hlost := h.lost g hgone (fun _ => False) fun _ hc => hc.elim
      exact hkept ⟨hgone, horderly.recorded g a hlost hexempt hoption⟩
  by_cases hholds : L.holds g
  · -- it held its option, and lost all grantors of it
    have hfixed : ¬L.fixed g := fun hfixed => hnot (.inl hfixed)
    have hheld : L.held g := hholds.resolve_left hfixed
    have hall : ∀ c, L.options c g → Q c ∧ L.grants c g := by
      intro c hoption
      by_contra hkept
      exact hnot (.inr ⟨hheld, c, hoption, hkept⟩)
    obtain ⟨c, hoption⟩ := hrecorded g hheld
    have hlost : Lost L start (fun _ => False) g :=
      .exhausted hoption hfixed (fun c hoption => (hall c hoption).2)
        (fun c hoption => h.lost c (hall c hoption).1 _ fun _ hc => hc.elim) id
    have hseen : g ∈ visited := by
      rcases h.touched c g (hall c hoption).1 (hall c hoption).2 with hseen | hmem
      · exact hseen
      · exact absurd hmem List.not_mem_nil
    have hgrants : L.grants g a := by
      rcases hgrantor with hgrant | hoption
      · exact hgrant
      · exact horderly.recorded g a hlost hexempt hoption
    rcases (h.held g hseen hgone).2 with hfixed' | hstart | ⟨c, hoption, hc⟩
    · exact hfixed hfixed'
    · exact hstarts g hstart hholds hlost
    · rcases hc with hc | ⟨b, hgrant, hb⟩
      · exact hc (hall c hoption).2
      · exact horderly.together g b c a hlost hexempt hholds hgrants hoption hgrant hb
  · have hstart : start g := (hbefore g a hgrantor hexempt).resolve_left hholds
    rcases h.starts g hstart with hseen | hmem
    · exact hholds (h.held g hseen hgone).1
    · exact absurd hmem List.not_mem_nil

/-- If every grantor left holds its option, whoever lost it lost what it
granted. -/
theorem gone_of_lost {exempt : α → Prop} (h : Walked L start visited [] Q)
    (hgrounded : ∀ g a, ¬exempt g → (L.without Q).grants g a ∨ (L.without Q).options g a →
      (L.without Q).holds g)
    (hexempt : ∀ g, exempt g → ¬L.holds g) (hlost : Lost L start (fun _ => False) a) :
    ¬(L.without Q).holds a ∧ ∀ b, L.grants a b → Q a := by
  -- without an option from the start, a visit finds none
  have hunheld (a : α) (hholds : ¬L.holds a) (hseen : a ∈ visited ∨ a ∈ []) :
      ¬(L.without Q).holds a ∧ ∀ b, L.grants a b → Q a := by
    refine ⟨fun hleft => hholds (hleft.imp id And.left), fun b _ => ?_⟩
    rcases hseen with hseen | hmem
    · by_contra hkept
      exact hholds (h.held a hseen hkept).1
    · exact absurd hmem List.not_mem_nil
  induction hlost with
  | start hstart hholds _ => exact hunheld _ hholds (h.starts _ hstart)
  | unheld _ hgrant hholds _ ih => exact hunheld _ hholds (h.touched _ _ (ih.2 _ hgrant) hgrant)
  | @exhausted a c hoption hfixed hgrants hlost _ ih =>
    have hgone (c : α) (hoption : L.options c a) : Q c := (ih c hoption).2 a (hgrants c hoption)
    have hnot : ¬(L.without Q).holds a := by
      rintro (hfix | ⟨-, c, hoption, hkept⟩)
      · exact hfixed hfix
      · exact hkept ⟨hgone c hoption, hgrants c hoption⟩
    refine ⟨hnot, fun b hgrant => ?_⟩
    by_cases ha : exempt a
    · exact (hunheld a (hexempt a ha)
        (h.touched c a (hgone c hoption) (hgrants c hoption))).2 b hgrant
    · by_contra hkept
      exact hnot (hgrounded a b ha (.inl (grants_without.mpr ⟨hgrant, hkept⟩)))

end Walked

section Distance

variable (R : α → Prop) (L : Ledger α) (a : α)

/-- A chain of grants to `a`, by grantors in `R`. -/
def Leads : Nat → α → Prop
  | 0, x => x = a
  | n + 1, x => R x ∧ ∃ y, L.grants x y ∧ Leads n y

open Classical in
/-- How many grants lie between someone and `a`. -/
noncomputable def distance (x : α) : ℕ∞ :=
  if h : ∃ n, Leads R L a n x then (Nat.find h : ℕ∞) else ⊤

variable {R L a} {x y : α} {n : Nat}

open Classical in
theorem distance_le (h : Leads R L a n x) : distance R L a x ≤ n := by
  unfold distance
  rw [dif_pos ⟨n, h⟩]
  exact_mod_cast Nat.find_min' _ h

open Classical in
theorem leads_of_distance (h : distance R L a x = n) : Leads R L a n x := by
  unfold distance at h
  split at h
  · rename_i hleads
    have hn : Nat.find hleads = n := by exact_mod_cast h
    exact hn ▸ Nat.find_spec hleads
  · exact absurd h.symm (ENat.natCast_ne_top n)

/-- The first of those granted to is one step nearer, and none is nearer yet. -/
theorem exists_next_of_distance (h : distance R L a x = (n + 1 : Nat)) :
    R x ∧ (∃ y, L.grants x y ∧ distance R L a y ≤ n) ∧
      ∀ y, L.grants x y → n ≤ distance R L a y := by
  obtain ⟨hx, y, hgrant, hleads⟩ := leads_of_distance h
  refine ⟨hx, ⟨y, hgrant, distance_le hleads⟩, fun y hgrant => ?_⟩
  cases hd : distance R L a y with
  | top => exact le_top
  | coe k =>
    have hstep : Leads R L a (k + 1) x := ⟨hx, y, hgrant, leads_of_distance hd⟩
    have hle := distance_le hstep
    rw [h] at hle
    have hle' : n + 1 ≤ k + 1 := by exact_mod_cast hle
    exact_mod_cast (by omega : n ≤ k)

theorem exists_start_leads {spared : α → Prop} (h : Lost L start spared x)
    (hleads : Leads (Lost L start spared) L a n x) :
    ∃ s k, start s ∧ ¬L.holds s ∧ Leads (Lost L start spared) L a k s := by
  induction h generalizing n with
  | start hstart hholds _ => exact ⟨_, n, hstart, hholds, hleads⟩
  | unheld hlost hgrant _ _ ih => exact ih (n := n + 1) ⟨hlost, _, hgrant, hleads⟩
  | exhausted hoption _ hgrants hlost _ ih =>
    exact ih _ hoption (n := n + 1) ⟨hlost _ hoption, _, hgrants _ hoption, hleads⟩

end Distance

end Delegation
