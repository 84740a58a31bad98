import Mathlib.Data.List.Dedup
import Mathlib.Logic.Relation

/-! A worklist that visits every element once: the fuel it needs, the invariant
rule for a run to the end, and a search that gives up on everything reachable. -/

namespace SafeMigrate.Worklist

variable {α β : Type} [DecidableEq α]

/-- Takes elements from the stack until it is empty. An element seen for the
first time puts what it leads to on the stack. -/
def drain (expand : β → α → List α × β) : Nat → List α → List α → β → List α × β
  | 0, visited, _, acc => (visited, acc)
  | _ + 1, visited, [], acc => (visited, acc)
  | fuel + 1, visited, a :: pending, acc =>
    if a ∈ visited then drain expand fuel visited pending acc
    else drain expand fuel (a :: visited) ((expand acc a).1.reverse ++ pending) (expand acc a).2

/-- Whether the search comes across the target. -/
def search (next : α → List α) (target : α) : Nat → List α → List α → Bool
  | 0, _, _ => false
  | _ + 1, _, [] => false
  | fuel + 1, visited, a :: pending =>
    if a = target then true
    else if a ∈ visited then search next target fuel visited pending
    else search next target fuel (a :: visited) ((next a).reverse ++ pending)

section Fuel

variable {domain : List α} {weight : α → Nat}

/-- What an element not yet visited can still put on the stack. -/
def remaining (weight : α → Nat) (visited : List α) (a : α) : Nat :=
  if a ∈ visited then 0 else weight a

def outstanding : List α → (α → Nat) → List α → Nat
  | [], _, _ => 0
  | a :: domain, weight, visited => remaining weight visited a + outstanding domain weight visited

/-- The steps left, at most. -/
def fuelFor (domain : List α) (weight : α → Nat) (visited pending : List α) : Nat :=
  pending.length + outstanding domain weight visited

theorem remaining_visit_le (weight : α → Nat) (visited : List α) (a b : α) :
    remaining weight (a :: visited) b ≤ remaining weight visited b := by
  by_cases hb : b ∈ visited
  · have hthen : remaining weight (a :: visited) b = 0 := if_pos (List.mem_cons_of_mem a hb)
    omega
  · have hnow : remaining weight visited b = weight b := if_neg hb
    rw [hnow]
    unfold remaining
    split <;> omega

theorem outstanding_visit_le (domain : List α) (weight : α → Nat) (visited : List α) (a : α) :
    outstanding domain weight (a :: visited) ≤ outstanding domain weight visited := by
  induction domain with
  | nil => exact Nat.le_refl _
  | cons b domain ih =>
    have hb := remaining_visit_le weight visited a b
    unfold outstanding
    omega

theorem outstanding_visit (domain : List α) (weight : α → Nat) {visited : List α} {a : α}
    (ha : a ∉ visited) (hdomain : a ∉ domain → weight a = 0) :
    outstanding domain weight (a :: visited) + weight a ≤ outstanding domain weight visited := by
  by_cases hmem : a ∈ domain
  · clear hdomain
    induction domain with
    | nil => cases hmem
    | cons b domain ih =>
      have hrest := outstanding_visit_le domain weight visited a
      unfold outstanding
      rcases List.mem_cons.mp hmem with rfl | hmem
      · have hnow : remaining weight visited a = weight a := if_neg ha
        have hthen : remaining weight (a :: visited) a = 0 := if_pos List.mem_cons_self
        omega
      · have hb := remaining_visit_le weight visited a b
        have hless := ih hmem
        omega
  · have hle := outstanding_visit_le domain weight visited a
    rw [hdomain hmem]
    omega

end Fuel

/-- What a round keeps, from the start to the empty stack. -/
theorem drain_run (domain : List α) (weight : α → Nat) (expand : β → α → List α × β)
    (visited pending : List α) (acc : β) {P : List α → List α → β → Prop}
    (hdomain : ∀ a, a ∉ domain → weight a = 0)
    (hweight : ∀ acc a, (expand acc a).1.length ≤ weight a)
    (hskip : ∀ visited a pending acc, a ∈ visited → P visited (a :: pending) acc →
      P visited pending acc)
    (hvisit : ∀ visited a pending acc, a ∉ visited → P visited (a :: pending) acc →
      P (a :: visited) ((expand acc a).1.reverse ++ pending) (expand acc a).2)
    {fuel : Nat} (hfuel : fuelFor domain weight visited pending ≤ fuel) (h : P visited pending acc) :
    P (drain expand fuel visited pending acc).1 [] (drain expand fuel visited pending acc).2 := by
  induction fuel generalizing visited pending acc with
  | zero =>
    have hempty : pending = [] := by
      unfold fuelFor at hfuel
      exact List.length_eq_zero_iff.mp (by omega)
    rw [hempty] at h ⊢
    exact h
  | succ fuel ih =>
    cases pending with
    | nil => exact h
    | cons a pending =>
      unfold fuelFor at hfuel
      rw [List.length_cons] at hfuel
      by_cases ha : a ∈ visited
      · rw [drain, if_pos ha]
        refine ih _ _ _ ?_ (hskip visited a pending acc ha h)
        unfold fuelFor
        omega
      · rw [drain, if_neg ha]
        refine ih _ _ _ ?_ (hvisit visited a pending acc ha h)
        have hless := outstanding_visit domain weight ha (hdomain a)
        have hfound := hweight acc a
        unfold fuelFor
        rw [List.length_append, List.length_reverse]
        omega

/-- The same, where what goes on the stack is paid for by the accumulator. -/
theorem drain_run_of_measure (cost : β → Nat) (expand : β → α → List α × β)
    (visited pending : List α) (acc : β) {P : List α → List α → β → Prop}
    (hskip : ∀ visited a pending acc, a ∈ visited → P visited (a :: pending) acc →
      P visited pending acc)
    (hvisit : ∀ visited a pending acc, a ∉ visited → P visited (a :: pending) acc →
      P (a :: visited) ((expand acc a).1.reverse ++ pending) (expand acc a).2 ∧
        (expand acc a).1.length + cost (expand acc a).2 ≤ cost acc)
    {fuel : Nat} (hfuel : pending.length + cost acc ≤ fuel) (h : P visited pending acc) :
    P (drain expand fuel visited pending acc).1 [] (drain expand fuel visited pending acc).2 := by
  induction fuel generalizing visited pending acc with
  | zero =>
    have hempty : pending = [] := List.length_eq_zero_iff.mp (by omega)
    rw [hempty] at h ⊢
    exact h
  | succ fuel ih =>
    cases pending with
    | nil => exact h
    | cons a pending =>
      rw [List.length_cons] at hfuel
      by_cases ha : a ∈ visited
      · rw [drain, if_pos ha]
        exact ih _ _ _ (by omega) (hskip visited a pending acc ha h)
      · obtain ⟨hnext, hpaid⟩ := hvisit visited a pending acc ha h
        rw [drain, if_neg ha]
        refine ih _ _ _ ?_ hnext
        rw [List.length_append, List.length_reverse]
        omega

/-- What every expansion keeps of the accumulator, however far the run gets. -/
theorem drain_acc {expand : β → α → List α × β} {I : β → Prop}
    (hexpand : ∀ acc a, I acc → I (expand acc a).2) (fuel : Nat) (visited pending : List α) {acc : β}
    (h : I acc) : I (drain expand fuel visited pending acc).2 := by
  induction fuel generalizing visited pending acc with
  | zero => exact h
  | succ fuel ih =>
    cases pending with
    | nil => exact h
    | cons a pending =>
      rw [drain]
      split
      · exact ih _ _ h
      · exact ih _ _ (hexpand acc a h)

/-- A failed search ends in a set that has the stack and all it leads to. -/
theorem exists_closed_of_search {domain : List α} {next : α → List α} {target : α}
    (hdomain : ∀ a, a ∉ domain → next a = []) {fuel : Nat} {visited pending : List α}
    (hfuel : fuelFor domain (fun a => (next a).length) visited pending ≤ fuel)
    (hvisited : target ∉ visited)
    (hclosed : ∀ a ∈ visited, ∀ b ∈ next a, b ∈ visited ∨ b ∈ pending)
    (h : search next target fuel visited pending = false) :
    ∃ seen : List α, target ∉ seen ∧ visited ⊆ seen ∧ pending ⊆ seen ∧
      ∀ a ∈ seen, ∀ b ∈ next a, b ∈ seen := by
  induction fuel generalizing visited pending with
  | zero =>
    have hempty : pending = [] := by
      unfold fuelFor at hfuel
      exact List.length_eq_zero_iff.mp (by omega)
    subst hempty
    exact ⟨visited, hvisited, fun _ hx => hx, List.nil_subset _, fun a ha b hb =>
      (hclosed a ha b hb).resolve_right List.not_mem_nil⟩
  | succ fuel ih =>
    cases pending with
    | nil =>
      exact ⟨visited, hvisited, fun _ hx => hx, List.nil_subset _, fun a ha b hb =>
        (hclosed a ha b hb).resolve_right List.not_mem_nil⟩
    | cons a pending =>
      unfold fuelFor at hfuel
      rw [List.length_cons] at hfuel
      rw [search] at h
      by_cases htarget : a = target
      · rw [if_pos htarget] at h
        cases h
      rw [if_neg htarget] at h
      by_cases ha : a ∈ visited
      · rw [if_pos ha] at h
        have hclosed' : ∀ c ∈ visited, ∀ b ∈ next c, b ∈ visited ∨ b ∈ pending := by
          intro c hc b hb
          rcases hclosed c hc b hb with hseen | hpending
          · exact Or.inl hseen
          · rcases List.mem_cons.mp hpending with rfl | hpending
            · exact Or.inl ha
            · exact Or.inr hpending
        obtain ⟨seen, hseen, hvis, hpending, hnext⟩ :=
          ih (by unfold fuelFor; omega) hvisited hclosed' h
        exact ⟨seen, hseen, hvis, List.cons_subset.mpr ⟨hvis ha, hpending⟩, hnext⟩
      · rw [if_neg ha] at h
        have hnew : target ∉ a :: visited := by
          simpa [hvisited] using fun heq => htarget heq.symm
        have hclosed' : ∀ c ∈ a :: visited, ∀ b ∈ next c,
            b ∈ a :: visited ∨ b ∈ (next a).reverse ++ pending := by
          intro c hc b hb
          rcases List.mem_cons.mp hc with rfl | hc
          · exact Or.inr (List.mem_append_left _ (List.mem_reverse.mpr hb))
          · rcases hclosed c hc b hb with hseen | hpending
            · exact Or.inl (List.mem_cons_of_mem a hseen)
            · rcases List.mem_cons.mp hpending with rfl | hpending
              · exact Or.inl List.mem_cons_self
              · exact Or.inr (List.mem_append_right _ hpending)
        have hless := outstanding_visit domain (fun a => (next a).length) ha
          fun hnot => by rw [hdomain a hnot]; rfl
        have henough : fuelFor domain (fun a => (next a).length) (a :: visited)
            ((next a).reverse ++ pending) ≤ fuel := by
          unfold fuelFor
          rw [List.length_append, List.length_reverse]
          omega
        obtain ⟨seen, hseen, hvis, hpending, hnext⟩ := ih henough hnew hclosed' h
        refine ⟨seen, hseen, (List.cons_subset.mp hvis).2, List.cons_subset.mpr ⟨?_, ?_⟩, hnext⟩
        · exact (List.cons_subset.mp hvis).1
        · exact fun b hb => hpending (List.mem_append_right _ hb)

/-- A target that the search does not come across is not reached. -/
theorem not_reached_of_search {domain : List α} {next : α → List α} {target start : α}
    (hdomain : ∀ a, a ∉ domain → next a = []) {fuel : Nat}
    (hfuel : fuelFor domain (fun a => (next a).length) [] [start] ≤ fuel)
    (h : search next target fuel [] [start] = false) :
    ¬Relation.ReflTransGen (fun a b => b ∈ next a) start target := by
  obtain ⟨seen, htarget, -, hstart, hnext⟩ :=
    exists_closed_of_search hdomain hfuel List.not_mem_nil (by simp) h
  intro hreach
  have hseen : ∀ b, Relation.ReflTransGen (fun a b => b ∈ next a) start b → b ∈ seen := by
    intro b hb
    induction hb with
    | refl => exact hstart List.mem_cons_self
    | tail _ hstep ih => exact hnext _ ih _ hstep
  exact htarget (hseen target hreach)

section Links

variable {ε : Type}

/-- Where the links that leave `a` lead. -/
def ahead (links : List ε) (source target : ε → α) (a : α) : List α :=
  (links.filter fun link => source link == a).map target

/-- Every link is taken at most once. -/
theorem outstanding_ahead_le (links : List ε) (source target : ε → α) {domain : List α}
    (hdomain : domain.Nodup) : outstanding domain (fun a => (ahead links source target a).length) [] ≤
      (links.filter fun link => decide (source link ∈ domain)).length := by
  induction domain with
  | nil => exact Nat.zero_le _
  | cons a domain ih =>
    obtain ⟨ha, hrest⟩ := List.nodup_cons.mp hdomain
    have hsplit : (links.filter fun link => source link == a).length +
        (links.filter fun link => decide (source link ∈ domain)).length ≤
          (links.filter fun link => decide (source link ∈ a :: domain)).length := by
      clear ih
      induction links with
      | nil => exact Nat.le_refl _
      | cons link links ihlinks =>
        by_cases hsource : source link = a
        · have hnot : source link ∉ domain := hsource ▸ ha
          simp only [hsource, List.filter_cons, beq_self_eq_true, if_true, List.length_cons, ha,
            decide_false, List.mem_cons_self, decide_true] at ihlinks ⊢
          simp only [Bool.false_eq_true, if_false]
          omega
        · by_cases hmem : source link ∈ domain <;>
            simp only [List.filter_cons, beq_iff_eq, hsource, hmem, if_false, if_true, decide_true,
              decide_false, List.mem_cons, or_true, or_false, List.length_cons,
              Bool.false_eq_true] at ihlinks ⊢ <;> omega
    have hhere : remaining (fun a => (ahead links source target a).length) [] a =
        (links.filter fun link => source link == a).length := by
      simp [remaining, ahead]
    have htail := ih hrest
    rw [outstanding, hhere]
    omega

/-- Draining the links from a start visits what they reach, and that only. -/
theorem mem_drain_ahead_iff (links : List ε) (source target : ε → α) {start a : α} {fuel : Nat}
    (hfuel : links.length + 1 ≤ fuel) :
    a ∈ (drain (fun (u : Unit) a => (ahead links source target a, u)) fuel [] [start] ()).1 ↔
      Relation.ReflTransGen (fun a b => b ∈ ahead links source target a) start a := by
  have hbudget : fuelFor (links.map source).dedup (fun a => (ahead links source target a).length)
      [] [start] ≤ fuel := by
    have hall := outstanding_ahead_le links source target (List.nodup_dedup (links.map source))
    have hsome := List.length_filter_le
      (fun link => decide (source link ∈ (links.map source).dedup)) links
    rw [fuelFor, List.length_singleton]
    omega
  have hrun := drain_run (links.map source).dedup (fun a => (ahead links source target a).length)
    (fun (u : Unit) a => (ahead links source target a, u)) [] [start] ()
    (P := fun visited pending _ =>
      (∀ x, x ∈ visited ∨ x ∈ pending →
        Relation.ReflTransGen (fun a b => b ∈ ahead links source target a) start x) ∧
      (start ∈ visited ∨ start ∈ pending) ∧
      ∀ x ∈ visited, ∀ y ∈ ahead links source target x, y ∈ visited ∨ y ∈ pending)
    ?_ (fun _ _ => Nat.le_refl _) ?_ ?_ hbudget ?_
  · obtain ⟨hreached, hstart, hclosed⟩ := hrun
    refine ⟨fun ha => hreached a (Or.inl ha), fun ha => ?_⟩
    induction ha with
    | refl => exact hstart.resolve_right List.not_mem_nil
    | tail _ hstep ih => exact (hclosed _ ih _ hstep).resolve_right List.not_mem_nil
  · intro x hx
    refine List.length_eq_zero_iff.mpr (List.map_eq_nil_iff.mpr (List.filter_eq_nil_iff.mpr ?_))
    intro link hlink hsource
    exact hx (List.mem_dedup.mpr (List.mem_map.mpr ⟨link, hlink, by simpa using hsource⟩))
  · rintro visited x pending _ hx ⟨hreached, hstart, hclosed⟩
    have hdrop (y : α) (h : y ∈ visited ∨ y ∈ x :: pending) : y ∈ visited ∨ y ∈ pending := by
      rcases h with h | h
      · exact Or.inl h
      · rcases List.mem_cons.mp h with rfl | h
        · exact Or.inl hx
        · exact Or.inr h
    exact ⟨fun y hy => hreached y (hy.imp_right (List.mem_cons_of_mem x)), hdrop start hstart,
      fun y hy z hz => hdrop z (hclosed y hy z hz)⟩
  · rintro visited x pending _ - ⟨hreached, hstart, hclosed⟩
    have hx := hreached x (Or.inr List.mem_cons_self)
    have hmove (y : α) (h : y ∈ visited ∨ y ∈ x :: pending) :
        y ∈ x :: visited ∨ y ∈ (ahead links source target x).reverse ++ pending := by
      rcases h with h | h
      · exact Or.inl (List.mem_cons_of_mem x h)
      · rcases List.mem_cons.mp h with rfl | h
        · exact Or.inl List.mem_cons_self
        · exact Or.inr (List.mem_append_right _ h)
    refine ⟨fun y hy => ?_, hmove start hstart, fun y hy z hz => ?_⟩
    · rcases hy with hy | hy
      · rcases List.mem_cons.mp hy with rfl | hy
        · exact hx
        · exact hreached y (Or.inl hy)
      · rcases List.mem_append.mp hy with hnext | hy
        · exact hx.tail (List.mem_reverse.mp hnext)
        · exact hreached y (Or.inr (List.mem_cons_of_mem x hy))
    · rcases List.mem_cons.mp hy with rfl | hy
      · exact Or.inr (List.mem_append_left _ (List.mem_reverse.mpr hz))
      · exact hmove z (hclosed y hy z hz)
  · exact ⟨fun x hx => by simp at hx; exact hx ▸ .refl, Or.inr List.mem_cons_self, by simp⟩

end Links

section Acyclic

variable {γ : Type} {R S : γ → γ → Prop} {m p : γ}

/-- A path that may use one more link goes without it, or to its start and on
from its end. -/
theorem transGen_extended (hR : ∀ a b, S a b → R a b ∨ a = m ∧ b = p) {a b : γ}
    (h : Relation.TransGen S a b) :
    Relation.TransGen R a b ∨ Relation.ReflTransGen R a m ∧ Relation.ReflTransGen R p b := by
  induction h with
  | single hstep =>
    rcases hR _ _ hstep with hold | ⟨rfl, rfl⟩
    · exact Or.inl (.single hold)
    · exact Or.inr ⟨.refl, .refl⟩
  | tail _ hstep ih =>
    rcases hR _ _ hstep with hold | ⟨rfl, rfl⟩
    · rcases ih with ih | ⟨hm, hp⟩
      · exact Or.inl (ih.tail hold)
      · exact Or.inr ⟨hm, hp.tail hold⟩
    · rcases ih with ih | ⟨hm, -⟩
      · exact Or.inr ⟨ih.to_reflTransGen, .refl⟩
      · exact Or.inr ⟨hm, .refl⟩

/-- A link whose end does not lead back to its start closes no cycle. -/
theorem acyclic_extended (hR : ∀ a b, S a b → R a b ∨ a = m ∧ b = p)
    (hacyclic : ∀ a, ¬Relation.TransGen R a a) (hfree : ¬Relation.ReflTransGen R p m) (a : γ) :
    ¬Relation.TransGen S a a := by
  intro h
  rcases transGen_extended hR h with hold | ⟨hm, hp⟩
  · exact hacyclic a hold
  · exact hfree (hp.trans hm)

end Acyclic

end SafeMigrate.Worklist
