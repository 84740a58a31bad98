import Mathlib.Data.List.Nodup

/-! Checks of documents that stop at the first error: what a whole check accepts
is what all its parts accept. -/

namespace Validation

variable {ε α κ : Type}

def ensure (p : Prop) [Decidable p] (error : ε) : Except ε Unit := if p then .ok () else .error error

@[simp] theorem ensure_ok {p : Prop} [Decidable p] {error : ε} : ensure p error = .ok () ↔ p := by
  unfold ensure
  split <;> simp_all

@[simp] theorem bind_ok {x y : Except ε Unit} :
    (do x; y) = .ok () ↔ x = .ok () ∧ y = .ok () := by
  cases x with
  | error e => simp [bind, Except.bind]
  | ok u => simp [bind, Except.bind]

theorem exceptBind_ok {β : Type} {x : Except ε α} {f : α → Except ε β} {b : β} :
    (x >>= f) = .ok b ↔ ∃ a, x = .ok a ∧ f a = .ok b := by
  cases x with
  | error e => simp [bind, Except.bind]
  | ok a => simp [bind, Except.bind]

theorem ensure_bind_ok {p : Prop} [Decidable p] {error : ε} {x : Except ε α} {a : α} :
    (do ensure p error; x) = .ok a ↔ p ∧ x = .ok a := by
  rw [exceptBind_ok]
  constructor
  · rintro ⟨⟨⟩, hp, hx⟩
    exact ⟨ensure_ok.mp hp, hx⟩
  · rintro ⟨hp, hx⟩
    exact ⟨(), ensure_ok.mpr hp, hx⟩

def validateAll (check : α → Except ε Unit) : List α → Except ε Unit
  | [] => .ok ()
  | x :: l => do
    check x
    validateAll check l

@[simp] theorem validateAll_ok {check : α → Except ε Unit} {l : List α} :
    validateAll check l = .ok () ↔ ∀ x ∈ l, check x = .ok () := by
  induction l with
  | nil => simp [validateAll]
  | cons x l ih => rw [validateAll, bind_ok, ih, List.forall_mem_cons]

variable [DecidableEq κ]

/-- Every element passes its own check, and none has the key of an earlier one. -/
def validateOnce (check : α → Except ε Unit) (key : α → κ) (duplicate : α → ε) :
    List κ → List α → Except ε Unit
  | _, [] => .ok ()
  | seen, x :: l => do
    check x
    ensure (key x ∉ seen) (duplicate x)
    validateOnce check key duplicate (key x :: seen) l

theorem validateOnce_ok {check : α → Except ε Unit} {key : α → κ} {duplicate : α → ε}
    {seen : List κ} {l : List α} :
    validateOnce check key duplicate seen l = .ok () ↔
      (∀ x ∈ l, check x = .ok ()) ∧ (l.map key).Nodup ∧ ∀ x ∈ l, key x ∉ seen := by
  induction l generalizing seen with
  | nil => simp [validateOnce]
  | cons x l ih =>
    rw [validateOnce, bind_ok, bind_ok, ensure_ok, ih, List.forall_mem_cons, List.forall_mem_cons,
      List.map_cons, List.nodup_cons]
    simp only [List.mem_map, List.mem_cons, not_exists, not_and, not_or]
    constructor
    · rintro ⟨hx, hnew, hall, hnodup, hrest⟩
      exact ⟨⟨hx, hall⟩, ⟨fun y hy heq => (hrest y hy).1 heq, hnodup⟩, hnew,
        fun y hy => (hrest y hy).2⟩
    · rintro ⟨⟨hx, hall⟩, ⟨hfresh, hnodup⟩, hnew, hrest⟩
      exact ⟨hx, hnew, hall, hnodup, fun y hy => ⟨hfresh y hy, hrest y hy⟩⟩

end Validation
