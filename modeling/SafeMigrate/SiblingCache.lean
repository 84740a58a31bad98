import Mathlib.Data.List.Basic

/-! Values cached at members of an owner that aggregate what all members of
that owner contribute, and what keeps such caches current. -/

namespace SiblingCache

/-- Objects by identity, the values they cache, and the links from members to
their owners. -/
@[ext] structure Family (ι α π : Type) where
  shape : ι → Option α
  cache : ι → Option π
  links : List (ι × ι)

/-- What a member contributes to its owner, how the contributions combine, and
which members cache the result. -/
structure Scheme (α π : Type) where
  contribution : α → α → Option π
  combine : List π → Option π
  caches : α → Bool

variable {ι α π : Type}

/-- Every member has one owner. -/
def Family.OneOwner (F : Family ι α π) : Prop :=
  ∀ member owner owner', (member, owner) ∈ F.links → (member, owner') ∈ F.links → owner = owner'

namespace Scheme

variable (S : Scheme α π) (F G : Family ι α π)

def contributionOf (link : ι × ι) : Option π := do
  let owner ← F.shape link.2
  let member ← F.shape link.1
  S.contribution owner member

section Links

variable {S F G}

theorem contributionOf_congr {link : ι × ι} (howner : G.shape link.2 = F.shape link.2)
    (hmember : G.shape link.1 = F.shape link.1) :
    S.contributionOf G link = S.contributionOf F link := by
  rw [contributionOf, contributionOf, howner, hmember]

theorem contributionOf_of_absent {link : ι × ι} (h : F.shape link.2 = none) :
    S.contributionOf F link = none := by
  rw [contributionOf, h]
  rfl

end Links

variable [DecidableEq ι]

def contributions (owner : ι) : List π :=
  (F.links.filter (·.2 == owner)).filterMap (S.contributionOf F)

def aggregate (owner : ι) : Option π := S.combine (S.contributions F owner)

/-- What a member caches is what the members of its owner add up to. -/
def Current : Prop :=
  ∀ link ∈ F.links, (F.shape link.1).any S.caches = true → ∀ value, F.cache link.1 = some value →
    S.aggregate F link.2 = some value

variable {S F G}

/-- An owner that is absent has no contributions. -/
theorem contributions_of_absent {owner : ι} (h : F.shape owner = none) :
    S.contributions F owner = [] := by
  refine List.filterMap_eq_nil_iff.mpr fun link hlink => contributionOf_of_absent ?_
  have howner : link.2 = owner := by simpa using (List.mem_filter.mp hlink).2
  rw [howner, h]

/-- Links may go if they contributed nothing, and those that stay contribute
what they did. -/
theorem contributions_filter {owner : ι} {keep : ι × ι → Bool} (hlinks : G.links = F.links.filter keep)
    (hkept : ∀ link ∈ F.links, link.2 = owner → keep link = true →
      S.contributionOf G link = S.contributionOf F link)
    (hlost : ∀ link ∈ F.links, link.2 = owner → keep link = false →
      S.contributionOf F link = none) :
    S.contributions G owner = S.contributions F owner := by
  unfold contributions
  rw [hlinks]
  generalize F.links = links at hkept hlost
  induction links with
  | nil => rfl
  | cons link links ih =>
    have hrest := ih (fun l hl => hkept l (List.mem_cons_of_mem link hl))
      fun l hl => hlost l (List.mem_cons_of_mem link hl)
    by_cases howner : link.2 = owner
    · cases hk : keep link with
      | false =>
        have hnone := hlost link List.mem_cons_self howner hk
        simp only [List.filter_cons, hk, howner, beq_self_eq_true, if_true, Bool.false_eq_true,
          if_false, List.filterMap_cons, hnone, hrest]
      | true =>
        have hsame := hkept link List.mem_cons_self howner hk
        simp only [List.filter_cons, hk, howner, if_true, beq_self_eq_true, List.filterMap_cons,
          hsame, hrest]
    · have hother : (link.2 == owner) = false := by simpa using howner
      cases hk : keep link with
      | false =>
        simp only [List.filter_cons, hk, hother, Bool.false_eq_true, if_false, hrest]
      | true =>
        simp only [List.filter_cons, hk, hother, if_true, Bool.false_eq_true, if_false, hrest]

/-- New links change nothing for an owner to which they contribute nothing. -/
theorem contributions_append {owner : ι} {extra : List (ι × ι)} (hlinks : G.links = F.links ++ extra)
    (hold : ∀ link ∈ F.links, link.2 = owner → S.contributionOf G link = S.contributionOf F link)
    (hextra : ∀ link ∈ extra, link.2 = owner → S.contributionOf G link = none) :
    S.contributions G owner = S.contributions F owner := by
  have hnone : (extra.filter (·.2 == owner)).filterMap (S.contributionOf G) = [] := by
    refine List.filterMap_eq_nil_iff.mpr fun link hlink => ?_
    obtain ⟨hmem, howner⟩ := List.mem_filter.mp hlink
    exact hextra link hmem (by simpa using howner)
  unfold contributions
  rw [hlinks, List.filter_append, List.filterMap_append, hnone, List.append_nil]
  refine List.filterMap_congr fun link hlink => ?_
  obtain ⟨hmem, howner⟩ := List.mem_filter.mp hlink
  exact hold link hmem (by simpa using howner)

/-- The aggregate reads the shapes and the links only. -/
theorem aggregate_congr (hshape : G.shape = F.shape) (hlinks : G.links = F.links) (owner : ι) :
    S.aggregate G owner = S.aggregate F owner := by
  have hof : S.contributionOf G = S.contributionOf F := by
    funext link
    rw [contributionOf, contributionOf, hshape]
  rw [aggregate, aggregate, contributions, contributions, hlinks, hof]

/-- Caches stay current if each is refreshed, or held before and aggregates
the same. -/
theorem Current.of_step (h : S.Current F)
    (hstep : ∀ link ∈ G.links, (G.shape link.1).any S.caches = true →
      ∀ value, G.cache link.1 = some value → S.aggregate G link.2 = some value ∨
        (link ∈ F.links ∧ (F.shape link.1).any S.caches = true ∧ F.cache link.1 = some value) ∧
          (S.aggregate F link.2 = some value → S.contributions G link.2 = S.contributions F link.2)) :
    S.Current G := by
  intro link hlink hcaches value hvalue
  rcases hstep link hlink hcaches value hvalue with hnow | ⟨⟨hmem, hcached, hold⟩, hsame⟩
  · exact hnow
  · have hbefore := h link hmem hcached value hold
    rw [aggregate, hsame hbefore]
    exact hbefore

end Scheme

end SiblingCache
