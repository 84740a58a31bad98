import Mathlib.Data.List.Basic

/-! Objects that mirror the ones they are linked to: a relation that holds
along every link, and the changes of objects and links that keep it. -/

namespace MirroredLinks

/-- Objects under their keys, and links from an object to the one it mirrors. -/
structure Net (κ β : Type*) where
  objects : κ → Option β
  links : List (κ × κ)

variable {κ β : Type*} {R : β → β → Prop} {L M : Net κ β}

/-- Whatever two present objects a link joins, they stand in the relation. -/
def Mirrored (R : β → β → Prop) (L : Net κ β) : Prop :=
  ∀ link ∈ L.links, ∀ source mirror, L.objects link.2 = some source →
    L.objects link.1 = some mirror → R source mirror

/-- Both ends of every link are there. -/
def Placed (L : Net κ β) : Prop :=
  ∀ link ∈ L.links, (L.objects link.1).isSome = true ∧ (L.objects link.2).isSome = true

/-- No link leads into or out of the keys that `reach` selects. -/
def Closed (reach : κ → Prop) (L : Net κ β) : Prop :=
  ∀ link ∈ L.links, reach link.1 ↔ reach link.2

theorem Closed.mono {reach : κ → Prop} (h : Closed reach L) (hlinks : M.links ⊆ L.links) :
    Closed reach M :=
  fun link hlink => h link (hlinks hlink)

/-- Objects may go, and links, but no object changes. -/
structure Shrinks (L M : Net κ β) : Prop where
  objects : ∀ k b, M.objects k = some b → L.objects k = some b
  links : M.links ⊆ L.links
  placed : Placed L → Placed M

theorem Shrinks.refl (L : Net κ β) : Shrinks L L :=
  ⟨fun _ _ h => h, List.Subset.refl _, fun h => h⟩

theorem Shrinks.trans {N : Net κ β} (h : Shrinks L M) (h' : Shrinks M N) : Shrinks L N :=
  ⟨fun k b hb => h.objects k b (h'.objects k b hb), List.Subset.trans h'.links h.links,
    fun hplaced => h'.placed (h.placed hplaced)⟩

theorem Shrinks.of_objects (hobjects : M.objects = L.objects) (hlinks : M.links ⊆ L.links) :
    Shrinks L M := by
  refine ⟨fun k b hb => ?_, hlinks, fun hplaced link hlink => ?_⟩
  · rwa [hobjects] at hb
  · rw [hobjects]
    exact hplaced link (hlinks hlink)

theorem Mirrored.shrink (h : Mirrored R L) (hs : Shrinks L M) : Mirrored R M := by
  intro link hlink source mirror hsource hmirror
  exact h link (hs.links hlink) source mirror (hs.objects _ _ hsource) (hs.objects _ _ hmirror)

/-- A link between objects that are there and stand in the relation. -/
theorem Mirrored.link (h : Mirrored R L) {k parent : κ} (hobjects : M.objects = L.objects)
    (hlinks : ∀ link ∈ M.links, link ∈ L.links ∨ link = (k, parent))
    (hnew : ∀ source mirror, L.objects parent = some source → L.objects k = some mirror →
      R source mirror) : Mirrored R M := by
  intro link hlink source mirror hsource hmirror
  rw [hobjects] at hsource hmirror
  rcases hlinks link hlink with hold | rfl
  · exact h link hold source mirror hsource hmirror
  · exact hnew source mirror hsource hmirror

theorem Placed.link (h : Placed L) {k parent : κ} (hobjects : M.objects = L.objects)
    (hlinks : ∀ link ∈ M.links, link ∈ L.links ∨ link = (k, parent))
    (hk : (L.objects k).isSome = true) (hparent : (L.objects parent).isSome = true) :
    Placed M := by
  intro link hlink
  rw [hobjects]
  rcases hlinks link hlink with hold | rfl
  · exact h link hold
  · exact ⟨hk, hparent⟩

section Insert

variable {k : κ} {made : β}

theorem Placed.ne_of_absent (h : Placed L) (hfree : L.objects k = none) {link : κ × κ}
    (hlink : link ∈ L.links) : link.1 ≠ k ∧ link.2 ≠ k := by
  obtain ⟨hmirror, hsource⟩ := h link hlink
  constructor
  · intro heq
    rw [heq, hfree] at hmirror
    cases hmirror
  · intro heq
    rw [heq, hfree] at hsource
    cases hsource

/-- A new object may mirror one that is there. -/
theorem Mirrored.insert (h : Mirrored R L) (hplaced : Placed L) (hfree : L.objects k = none)
    (hmade : M.objects k = some made) (hothers : ∀ j, j ≠ k → M.objects j = L.objects j)
    (hlinks : ∀ link ∈ M.links, link ∈ L.links ∨ link.1 = k ∧
      ∀ source, M.objects link.2 = some source → R source made) : Mirrored R M := by
  intro link hlink source mirror hsource hmirror
  rcases hlinks link hlink with hold | ⟨hk, hnew⟩
  · obtain ⟨hne, hne'⟩ := hplaced.ne_of_absent hfree hold
    rw [hothers _ hne'] at hsource
    rw [hothers _ hne] at hmirror
    exact h link hold source mirror hsource hmirror
  · rw [hk, hmade] at hmirror
    cases hmirror
    exact hnew source hsource

theorem Placed.insert (h : Placed L) (hfree : L.objects k = none)
    (hmade : M.objects k = some made) (hothers : ∀ j, j ≠ k → M.objects j = L.objects j)
    (hlinks : ∀ link ∈ M.links, link ∈ L.links ∨ link.1 = k ∧
      (M.objects link.2).isSome = true) : Placed M := by
  intro link hlink
  rcases hlinks link hlink with hold | ⟨hk, hsource⟩
  · obtain ⟨hne, hne'⟩ := h.ne_of_absent hfree hold
    rw [hothers _ hne, hothers _ hne']
    exact h link hold
  · rw [hk, hmade]
    exact ⟨rfl, hsource⟩

end Insert

/-- A change of an object that no link touches. -/
theorem Mirrored.apart (h : Mirrored R L) {k : κ}
    (hapart : ∀ link ∈ L.links, link.1 ≠ k ∧ link.2 ≠ k)
    (hothers : ∀ j, j ≠ k → M.objects j = L.objects j) (hlinks : M.links ⊆ L.links) :
    Mirrored R M := by
  intro link hlink source mirror hsource hmirror
  have hold := hlinks hlink
  obtain ⟨hne, hne'⟩ := hapart link hold
  rw [hothers _ hne'] at hsource
  rw [hothers _ hne] at hmirror
  exact h link hold source mirror hsource hmirror

theorem Placed.apart (h : Placed L) {k : κ}
    (hapart : ∀ link ∈ L.links, link.1 ≠ k ∧ link.2 ≠ k)
    (hothers : ∀ j, j ≠ k → M.objects j = L.objects j) (hlinks : M.links ⊆ L.links) :
    Placed M := by
  intro link hlink
  have hold := hlinks hlink
  obtain ⟨hne, hne'⟩ := hapart link hold
  rw [hothers _ hne, hothers _ hne']
  exact h link hold

section Map

variable {reach : κ → Prop} {f : β → β}

/-- The objects within `reach` change by `f`, and the others do not. -/
structure Maps (reach : κ → Prop) (f : β → β) (L M : Net κ β) : Prop where
  inside : ∀ k, reach k → M.objects k = (L.objects k).map f
  outside : ∀ k, ¬ reach k → M.objects k = L.objects k
  links : M.links ⊆ L.links

/-- Two rounds of one change, over two sets of keys. -/
theorem Maps.trans {reach' : κ → Prop} {N : Net κ β} (h : Maps reach f L M)
    (h' : Maps reach' f M N) (hf : ∀ b, f (f b) = f b) :
    Maps (fun k => reach k ∨ reach' k) f L N where
  inside k hk := by
    by_cases hk' : reach' k
    · rw [h'.inside k hk']
      by_cases hfirst : reach k
      · rw [h.inside k hfirst, Option.map_map]
        exact congrArg (fun g => Option.map g (L.objects k)) (funext hf)
      · rw [h.outside k hfirst]
    · rw [h'.outside k hk', h.inside k (hk.resolve_right hk')]
  outside k hk := by
    rw [h'.outside k fun hin => hk (Or.inr hin), h.outside k fun hin => hk (Or.inl hin)]
  links := List.Subset.trans h'.links h.links

theorem Maps.of_same (hobjects : M.objects = L.objects) (hlinks : M.links ⊆ L.links) :
    Maps (fun _ => False) f L M :=
  ⟨fun _ h => h.elim, fun k _ => congrFun hobjects k, hlinks⟩

theorem Maps.congr {reach' : κ → Prop} (h : Maps reach f L M) (hiff : ∀ k, reach k ↔ reach' k) :
    Maps reach' f L M :=
  ⟨fun k hk => h.inside k ((hiff k).mpr hk), fun k hk => h.outside k fun hin => hk ((hiff k).mp hin),
    h.links⟩

theorem Maps.placed (hm : Maps reach f L M) (h : Placed L) : Placed M := by
  have hsome (k : κ) (hk : (L.objects k).isSome = true) : (M.objects k).isSome = true := by
    by_cases hreach : reach k
    · rw [hm.inside k hreach, Option.isSome_map]
      exact hk
    · rw [hm.outside k hreach]
      exact hk
  intro link hlink
  obtain ⟨hmirror, hsource⟩ := h link (hm.links hlink)
  exact ⟨hsome _ hmirror, hsome _ hsource⟩

/-- A change of both ends of every link, or of neither, that respects the
relation between objects of good shape. -/
theorem Mirrored.map {Good : β → Prop} (h : Mirrored R L) (hgood : ∀ k b, L.objects k = some b → Good b)
    (hR : ∀ source mirror, Good source → Good mirror → R source mirror → R (f source) (f mirror))
    (hclosed : Closed reach L) (hm : Maps reach f L M) : Mirrored R M := by
  intro link hlink source mirror hsource hmirror
  have hold := hm.links hlink
  by_cases hreach : reach link.1
  · rw [hm.inside _ ((hclosed link hold).mp hreach)] at hsource
    rw [hm.inside _ hreach] at hmirror
    obtain ⟨source', hsource', rfl⟩ := Option.map_eq_some_iff.mp hsource
    obtain ⟨mirror', hmirror', rfl⟩ := Option.map_eq_some_iff.mp hmirror
    exact hR _ _ (hgood _ _ hsource') (hgood _ _ hmirror') (h link hold _ _ hsource' hmirror')
  · have hreach' : ¬ reach link.2 := fun hin => hreach ((hclosed link hold).mpr hin)
    rw [hm.outside _ hreach'] at hsource
    rw [hm.outside _ hreach] at hmirror
    exact h link hold source mirror hsource hmirror

end Map

end MirroredLinks
