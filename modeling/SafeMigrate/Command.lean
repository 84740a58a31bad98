import Mathlib.Order.Defs.Unbundled

/-! Computations on a state that may end early with an answer, and the rules
for a relation between states that every step of such a computation keeps. -/

namespace SafeMigrate

/-- A computation on `σ`. The state reached so far survives an early end. -/
abbrev Command (ε σ α : Type) := ExceptT ε (StateM σ) α

namespace Command

variable {ε σ α β : Type}

/-- The answer of a computation that ends with one, early or not. -/
def outcome (c : Command ε σ ε) (s : σ) : ε × σ :=
  match c.run.run s with
  | (.ok answer, t) => (answer, t)
  | (.error answer, t) => (answer, t)

/-- The state a computation leaves. -/
def after (c : Command ε σ α) (s : σ) : σ := (c.run.run s).2

@[simp] theorem after_pure (a : α) (s : σ) : (pure a : Command ε σ α).after s = s := rfl

theorem outcome_snd (c : Command ε σ ε) (s : σ) : (c.outcome s).2 = c.after s := by
  unfold outcome after
  split
  · rename_i h
    rw [h]
  · rename_i h
    rw [h]

/-- A computation that does not end early runs each of its parts to its end. -/
theorem exists_run_of_bind {c : Command ε σ α} {k : α → Command ε σ β} {s t : σ} {b : β}
    (h : (c >>= k).run.run s = (.ok b, t)) :
    ∃ a u, c.run.run s = (.ok a, u) ∧ (k a).run.run u = (.ok b, t) := by
  rw [ExceptT.run_bind, StateT.run_bind] at h
  rcases hrun : c.run.run s with ⟨e | a, u⟩
  · rw [hrun] at h
    cases h
  · rw [hrun] at h
    exact ⟨a, u, rfl, h⟩

/-- What follows a computation runs in the state it left, unless it ended. -/
theorem run_bind (c : Command ε σ α) (k : α → Command ε σ β) (s : σ) :
    (c >>= k).run.run s =
      match c.run.run s with
      | (.ok a, t) => (k a).run.run t
      | (.error e, t) => (.error e, t) := by
  rw [ExceptT.run_bind, StateT.run_bind]
  rcases c.run.run s with ⟨_ | _, t⟩ <;> rfl

theorem run_bind_of_ok {c : Command ε σ α} {s t : σ} {a : α} (h : c.run.run s = (.ok a, t))
    (k : α → Command ε σ β) : (c >>= k).run.run s = (k a).run.run t := by
  rw [run_bind, h]

theorem outcome_of_run {c : Command ε σ ε} {s t : σ} {answer : ε}
    (h : c.run.run s = (.ok answer, t)) : c.outcome s = (answer, t) := by
  rw [outcome, h]

theorem after_bind (c : Command ε σ α) (k : α → Command ε σ β) (s : σ) :
    (c >>= k).after s =
      match c.run.run s with
      | (.ok a, t) => (k a).after t
      | (.error _, t) => t := by
  unfold after
  rw [run_bind]
  rcases c.run.run s with ⟨_ | _, t⟩ <;> rfl

theorem after_modify_bind (f : σ → σ) (k : PUnit → Command ε σ β) (s : σ) :
    ((modify f : Command ε σ PUnit) >>= k).after s = (k ⟨⟩).after (f s) := rfl

theorem after_bind_pure (c : Command ε σ α) (b : β) (s : σ) :
    (c >>= fun _ => pure b).after s = c.after s := by
  rw [after_bind]
  unfold after
  rcases c.run.run s with ⟨_ | _, t⟩ <;> rfl

/-- Every run of `c` relates the state it starts in to the one it leaves. -/
def Keeps (R : σ → σ → Prop) (c : Command ε σ α) : Prop := ∀ s, R s (c.after s)

section Rules

variable {R : σ → σ → Prop}

theorem Keeps.outcome {c : Command ε σ ε} (h : Keeps R c) (s : σ) : R s (c.outcome s).2 := by
  rw [outcome_snd]
  exact h s

theorem Keeps.ran {c : Command ε σ α} (h : Keeps R c) {s t : σ} {a : α}
    (hrun : c.run.run s = (.ok a, t)) : R s t := by
  have hafter := h s
  rwa [after, hrun] at hafter

theorem Keeps.modify {f : σ → σ} (h : ∀ s, R s (f s)) :
    Keeps R (modify f : Command ε σ PUnit) := h

theorem Keeps.mono {R' : σ → σ → Prop} {c : Command ε σ α} (h : Keeps R c)
    (hR : ∀ s t, R s t → R' s t) : Keeps R' c := fun s => hR _ _ (h s)

theorem Keeps.bind [IsTrans σ R] {c : Command ε σ α} {k : α → Command ε σ β} (hc : Keeps R c)
    (hk : ∀ a, Keeps R (k a)) : Keeps R (c >>= k) := by
  intro s
  have h : R s (c.run.run s).2 := hc s
  rw [after_bind]
  rcases hrun : c.run.run s with ⟨e | a, t⟩
  · rwa [hrun] at h
  · rw [hrun] at h
    exact IsTrans.trans _ _ _ h (hk a t)

/-- Where the rest of a computation needs to know how its start ended. -/
theorem Keeps.bind_of {c : Command ε σ α} {k : α → Command ε σ β} (hc : Keeps R c)
    (hk : ∀ s a t, c.run.run s = (.ok a, t) → R s ((k a).after t)) : Keeps R (c >>= k) := by
  intro s
  have h : R s (c.run.run s).2 := hc s
  rw [after_bind]
  rcases hrun : c.run.run s with ⟨e | a, t⟩
  · rwa [hrun] at h
  · exact hk s a t hrun

/-- A start that changes nothing of what the relation looks at. -/
theorem Keeps.bind_unread {γ : Type} {view : σ → γ} {P : γ → γ → Prop} (hrefl : ∀ x, P x x)
    {c : Command ε σ α} {k : α → Command ε σ β} (hc : Keeps (fun s t => view t = view s) c)
    (hk : ∀ a, Keeps (fun s t => P (view s) (view t)) (k a)) :
    Keeps (fun s t => P (view s) (view t)) (c >>= k) := by
  refine Keeps.bind_of (fun s => ?_) fun s a t hrun => ?_
  · rw [hc s]
    exact hrefl _
  · have hview : view t = view s := by
      have h := hc s
      rwa [after, hrun] at h
    rw [← hview]
    exact hk a t

theorem Keeps.ite {p : Prop} [Decidable p] {c d : Command ε σ α} (hc : p → Keeps R c)
    (hd : ¬p → Keeps R d) : Keeps R (if p then c else d) := by
  by_cases hp : p
  · simpa [hp] using hc hp
  · simpa [hp] using hd hp

/-- Either branch of an update may be taken. -/
theorem keeps_ite {p : Prop} [Decidable p] {s t u : σ} (ht : p → R s t) (hu : ¬p → R s u) :
    R s (if p then t else u) := by
  by_cases hp : p
  · simpa [hp] using ht hp
  · simpa [hp] using hu hp

variable [Std.Refl R]

/-- A loop of plain updates, on a state that `state` reads off the accumulator. -/
theorem keeps_foldl_of [IsTrans σ R] (state : β → σ) (l : List α) {f : β → α → β}
    (hf : ∀ a ∈ l, ∀ b, R (state b) (state (f b a))) (b : β) : R (state b) (state (l.foldl f b)) := by
  induction l generalizing b with
  | nil => exact Std.Refl.refl _
  | cons a l ih =>
    exact IsTrans.trans _ _ _ (hf a (by simp) b) (ih (fun c hc => hf c (by simp [hc])) _)

/-- Where a step keeps `R` only under an invariant that `R` hands on. -/
theorem keeps_foldl_inv [IsTrans σ R] (state : β → σ) {I : σ → Prop}
    (hI : ∀ s t, R s t → I s → I t) (l : List α) {f : β → α → β}
    (hf : ∀ a b, I (state b) → R (state b) (state (f b a))) (b : β) (h : I (state b)) :
    R (state b) (state (l.foldl f b)) := by
  induction l generalizing b with
  | nil => exact Std.Refl.refl _
  | cons a l ih =>
    have hstep := hf a b h
    exact IsTrans.trans _ _ _ hstep (ih (f b a) (hI _ _ hstep h))

theorem keeps_foldl [IsTrans σ R] (l : List α) {f : σ → α → σ} (hf : ∀ a ∈ l, ∀ s, R s (f s a))
    (s : σ) : R s (l.foldl f s) :=
  keeps_foldl_of (fun s => s) l hf s

theorem Keeps.pure (a : α) : Keeps R (Pure.pure a : Command ε σ α) := fun s => Std.Refl.refl s

theorem Keeps.throw (e : ε) : Keeps R (throw e : Command ε σ α) := fun s => Std.Refl.refl s

theorem Keeps.get : Keeps R (get : Command ε σ σ) := fun s => Std.Refl.refl s

variable [IsTrans σ R]

/-- A loop keeps what each of its rounds keeps. -/
theorem Keeps.foldlM (l : List α) (b : β) {f : β → α → Command ε σ β}
    (hf : ∀ b a, Keeps R (f b a)) : Keeps R (l.foldlM f b) := by
  induction l generalizing b with
  | nil => exact Keeps.pure b
  | cons a l ih =>
    rw [List.foldlM_cons]
    exact Keeps.bind (hf b a) ih

theorem Keeps.forM (l : List α) {f : α → Command ε σ PUnit} (hf : ∀ a, Keeps R (f a)) :
    Keeps R (l.forM f) := by
  induction l with
  | nil => exact Keeps.pure _
  | cons a l ih => exact Keeps.bind (hf a) fun _ => ih

theorem Keeps.mapM (l : List α) {f : α → Command ε σ β} (hf : ∀ a, Keeps R (f a)) :
    Keeps R (l.mapM f) := by
  induction l with
  | nil => exact Keeps.pure _
  | cons a l ih =>
    rw [List.mapM_cons]
    exact Keeps.bind (hf a) fun _ => Keeps.bind ih fun _ => Keeps.pure _

end Rules

/-- What a computation returns, where it does not end early. -/
def Returns (P : α → Prop) (c : Command ε σ α) : Prop := ∀ s a t, c.run.run s = (.ok a, t) → P a

section Returns

variable {P : α → Prop} {Q : β → Prop}

theorem Returns.pure {a : α} (h : P a) : Returns P (Pure.pure a : Command ε σ α) := by
  rintro s b t ⟨⟩
  exact h

theorem Returns.bind {c : Command ε σ β} {k : β → Command ε σ α} (hc : Returns Q c)
    (hk : ∀ b, Q b → Returns P (k b)) : Returns P (c >>= k) := by
  intro s a t h
  rw [run_bind] at h
  rcases hrun : c.run.run s with ⟨e | b, u⟩
  · rw [hrun] at h
    cases h
  · rw [hrun] at h
    exact hk b (hc s b u hrun) u a t h

theorem Returns.of_forall {c : Command ε σ α} (h : ∀ a, P a) : Returns P c := fun _ a _ _ => h a

/-- What each round of a loop hands on. -/
theorem Returns.foldlM (l : List β) {f : α → β → Command ε σ α}
    (hf : ∀ a b, P a → Returns P (f a b)) {a : α} (h : P a) : Returns P (l.foldlM f a) := by
  induction l generalizing a with
  | nil => exact Returns.pure h
  | cons b l ih =>
    rw [List.foldlM_cons]
    exact Returns.bind (hf a b h) fun a ha => ih ha

end Returns

/-- From a state with `I` a run keeps it, and what it returns has `P`. -/
def Yields (I : σ → Prop) (P : α → Prop) (c : Command ε σ α) : Prop :=
  ∀ s a t, I s → c.run.run s = (.ok a, t) → I t ∧ P a

section Yields

variable {I : σ → Prop} {P : α → Prop} {Q : β → Prop}

theorem Yields.of {c : Command ε σ α} (hc : Keeps (fun s t => I s → I t) c) (h : Returns P c) :
    Yields I P c := by
  intro s a t hs hrun
  have ht := hc s hs
  rw [after, hrun] at ht
  exact ⟨ht, h s a t hrun⟩

theorem Yields.pure {a : α} (h : P a) : Yields I P (Pure.pure a : Command ε σ α) := by
  rintro s b t hs ⟨⟩
  exact ⟨hs, h⟩

theorem Yields.get : Yields I I (MonadState.get : Command ε σ σ) := by
  rintro s b t hs ⟨⟩
  exact ⟨hs, hs⟩

theorem Yields.bind {c : Command ε σ β} {k : β → Command ε σ α} (hc : Yields I Q c)
    (hk : ∀ b, Q b → Yields I P (k b)) : Yields I P (c >>= k) := by
  intro s a t hs h
  obtain ⟨b, u, hrun, hrest⟩ := exists_run_of_bind h
  obtain ⟨hu, hb⟩ := hc s b u hs hrun
  exact hk b hb u a t hu hrest

/-- A start that is only known to keep `I`. -/
theorem Yields.then {c : Command ε σ β} {k : β → Command ε σ α}
    (hc : Keeps (fun s t => I s → I t) c) (hk : ∀ b, Yields I P (k b)) : Yields I P (c >>= k) :=
  Yields.bind (Yields.of hc (Returns.of_forall fun _ => trivial)) fun b _ => hk b

theorem Yields.ite {p : Prop} [Decidable p] {c d : Command ε σ α} (hc : p → Yields I P c)
    (hd : ¬p → Yields I P d) : Yields I P (if p then c else d) := by
  by_cases hp : p
  · simpa [hp] using hc hp
  · simpa [hp] using hd hp

theorem Yields.foldlM (l : List β) {f : α → β → Command ε σ α}
    (hf : ∀ a b, P a → Yields I P (f a b)) {a : α} (h : P a) : Yields I P (l.foldlM f a) := by
  induction l generalizing a with
  | nil => exact Yields.pure h
  | cons b l ih =>
    rw [List.foldlM_cons]
    exact Yields.bind (hf a b h) fun a ha => ih ha

end Yields

/-- A computation that leaves the state alone unless it ends early. -/
def IsCheck (c : Command ε σ α) : Prop := ∀ s a t, c.run.run s = (.ok a, t) → t = s

section Checks

theorem IsCheck.pure (a : α) : IsCheck (Pure.pure a : Command ε σ α) := by
  rintro s b t ⟨⟩
  rfl

theorem IsCheck.get : IsCheck (MonadState.get : Command ε σ σ) := by
  rintro s b t ⟨⟩
  rfl

theorem IsCheck.throw (e : ε) : IsCheck (MonadExcept.throw e : Command ε σ α) := by
  rintro s b t ⟨⟩

theorem IsCheck.bind {c : Command ε σ α} {k : α → Command ε σ β} (hc : IsCheck c)
    (hk : ∀ a, IsCheck (k a)) : IsCheck (c >>= k) := by
  intro s b t h
  rw [run_bind] at h
  rcases hrun : c.run.run s with ⟨e | a, u⟩
  · rw [hrun] at h
    cases h
  · rw [hrun] at h
    obtain rfl := hc s a u hrun
    exact hk a u b t h

theorem IsCheck.ite {p : Prop} [Decidable p] {c d : Command ε σ α} (hc : p → IsCheck c)
    (hd : ¬p → IsCheck d) : IsCheck (if p then c else d) := by
  by_cases hp : p
  · simpa [hp] using hc hp
  · simpa [hp] using hd hp

/-- After a check, the rest runs in the same state, or not at all. -/
theorem IsCheck.outcome_bind {c : Command ε σ α} (hc : IsCheck c) (k : α → Command ε σ ε)
    (s : σ) :
    (∃ a, (c >>= k).outcome s = (k a).outcome s) ∨
      ∃ e, (c >>= k).outcome s = (e, c.after s) := by
  unfold outcome after
  rw [run_bind]
  rcases hrun : c.run.run s with ⟨e | a, t⟩
  · exact Or.inr ⟨e, rfl⟩
  · obtain rfl := hc s a t hrun
    exact Or.inl ⟨a, rfl⟩

end Checks

/-- The answers a computation may end early with. -/
def Throws (P : ε → Prop) (c : Command ε σ α) : Prop := ∀ s e t, c.run.run s = (.error e, t) → P e

section Throws

variable {P : ε → Prop}

theorem Throws.pure (a : α) : Throws P (Pure.pure a : Command ε σ α) := by
  rintro s e t ⟨⟩

theorem Throws.get : Throws P (MonadState.get : Command ε σ σ) := by
  rintro s e t ⟨⟩

theorem Throws.modify (f : σ → σ) : Throws P (modify f : Command ε σ PUnit) := by
  rintro s e t ⟨⟩

theorem Throws.throw {e : ε} (h : P e) : Throws P (MonadExcept.throw e : Command ε σ α) := by
  rintro s e' t ⟨⟩
  exact h

theorem Throws.bind {c : Command ε σ α} {k : α → Command ε σ β} (hc : Throws P c)
    (hk : ∀ a, Throws P (k a)) : Throws P (c >>= k) := by
  intro s e t h
  rw [run_bind] at h
  rcases hrun : c.run.run s with ⟨e' | a, u⟩
  · rw [hrun] at h
    cases h
    exact hc s _ _ hrun
  · rw [hrun] at h
    exact hk a u e t h

theorem Throws.ite {p : Prop} [Decidable p] {c d : Command ε σ α} (hc : p → Throws P c)
    (hd : ¬p → Throws P d) : Throws P (if p then c else d) := by
  by_cases hp : p
  · simpa [hp] using hc hp
  · simpa [hp] using hd hp

theorem Throws.foldlM (l : List α) (b : β) {f : β → α → Command ε σ β}
    (hf : ∀ b a, Throws P (f b a)) : Throws P (l.foldlM f b) := by
  induction l generalizing b with
  | nil => exact Throws.pure b
  | cons a l ih =>
    rw [List.foldlM_cons]
    exact Throws.bind (hf b a) ih

theorem Throws.forM (l : List α) {f : α → Command ε σ PUnit} (hf : ∀ a, Throws P (f a)) :
    Throws P (l.forM f) := by
  induction l with
  | nil => exact Throws.pure _
  | cons a l ih => exact Throws.bind (hf a) fun _ => ih

theorem Throws.mapM (l : List α) {f : α → Command ε σ β} (hf : ∀ a, Throws P (f a)) :
    Throws P (l.mapM f) := by
  induction l with
  | nil => exact Throws.pure _
  | cons a l ih =>
    rw [List.mapM_cons]
    exact Throws.bind (hf a) fun _ => Throws.bind ih fun _ => Throws.pure _

/-- An answer that no early end gives comes from a run to the end. -/
theorem ran_of_outcome {c : Command ε σ ε} {answer : ε} (hc : Throws (· ≠ answer) c) {s t : σ}
    (h : c.outcome s = (answer, t)) : c.run.run s = (.ok answer, t) := by
  unfold outcome at h
  rcases hrun : c.run.run s with ⟨e | a, u⟩
  · rw [hrun] at h
    cases h
    exact absurd rfl (hc s _ _ hrun)
  · rw [hrun] at h
    cases h
    rfl

end Throws

end Command

end SafeMigrate
