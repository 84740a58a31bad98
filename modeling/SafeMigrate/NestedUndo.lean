import Mathlib.Data.List.Basic
import Mathlib.Data.List.Infix
import Mathlib.Data.List.TakeWhile
import Mathlib.Logic.Relation

/-! Undo logs kept in nested frames, innermost first, and the machine of
nested snapshots that they implement: every open frame stands for the value
that replaying the logs down to it would restore. -/

namespace NestedUndo

variable {σ κ ε : Type}

structure Frame (κ ε : Type) where
  kind : κ
  undoLog : List ε

/-- The newest entry is at the end of a log and is undone first. -/
def replay (undo : ε → σ → σ) (log : List ε) (v : σ) : σ := log.foldr undo v

@[simp] theorem replay_nil (undo : ε → σ → σ) (v : σ) : replay undo [] v = v := rfl

@[simp] theorem replay_singleton (undo : ε → σ → σ) (e : ε) (v : σ) :
    replay undo [e] v = undo e v := rfl

theorem replay_append (undo : ε → σ → σ) (l l' : List ε) (v : σ) :
    replay undo (l ++ l') v = replay undo l (replay undo l' v) := List.foldr_append

/-- Undo whole frames, the innermost one first. -/
def unwind (undo : ε → σ → σ) (frames : List (Frame κ ε)) (v : σ) : σ :=
  frames.foldl (fun v frame => replay undo frame.undoLog v) v

@[simp] theorem unwind_nil (undo : ε → σ → σ) (v : σ) :
    unwind undo ([] : List (Frame κ ε)) v = v := rfl

@[simp] theorem unwind_cons (undo : ε → σ → σ) (frame : Frame κ ε) (frames : List (Frame κ ε))
    (v : σ) : unwind undo (frame :: frames) v = unwind undo frames (replay undo frame.undoLog v) :=
  rfl

/-- The logs of released frames, outermost first, form one log. -/
theorem replay_flatMap_reverse (undo : ε → σ → σ) (frames : List (Frame κ ε)) (v : σ) :
    replay undo (frames.reverse.flatMap (·.undoLog)) v = unwind undo frames v := by
  induction frames generalizing v with
  | nil => rfl
  | cons frame frames ih =>
    simp only [List.reverse_cons, List.flatMap_append, List.flatMap_singleton, replay_append,
      unwind_cons, ih]

/-- The value each open frame restores, innermost first. -/
def saves (undo : ε → σ → σ) : List (Frame κ ε) → σ → List (κ × σ)
  | [], _ => []
  | frame :: frames, v =>
    (frame.kind, replay undo frame.undoLog v) :: saves undo frames (replay undo frame.undoLog v)

@[simp] theorem saves_length (undo : ε → σ → σ) (frames : List (Frame κ ε)) (v : σ) :
    (saves undo frames v).length = frames.length := by
  induction frames generalizing v with
  | nil => rfl
  | cons frame frames ih => simp [saves, ih]

theorem map_fst_saves (undo : ε → σ → σ) (frames : List (Frame κ ε)) (v : σ) :
    (saves undo frames v).map Prod.fst = frames.map (·.kind) := by
  induction frames generalizing v with
  | nil => rfl
  | cons frame frames ih => simp [saves, ih]

/-- Entries that undo a change leave every saved value as it was. -/
theorem saves_record {undo : ε → σ → σ} {entries : List ε} {v w : σ}
    (h : replay undo entries w = v) (kind : κ) (log : List ε) (outer : List (Frame κ ε)) :
    saves undo (⟨kind, log ++ entries⟩ :: outer) w = saves undo (⟨kind, log⟩ :: outer) v := by
  simp [saves, replay_append, h]

theorem getLast?_saves (undo : ε → σ → σ) (frames : List (Frame κ ε)) (v : σ) :
    ((saves undo frames v).getLast?.map Prod.snd).getD v = unwind undo frames v := by
  induction frames generalizing v with
  | nil => rfl
  | cons frame frames ih =>
    cases frames with
    | nil => simp [saves]
    | cons next frames =>
      have hrest := ih (replay undo frame.undoLog v)
      simpa [saves, List.getLast?_cons] using hrest

/-- A current value with the values saved by the open frames. -/
structure Nested (κ σ : Type) where
  current : σ
  saved : List (κ × σ)

namespace Nested

def write (n : Nested κ σ) (v : σ) : Nested κ σ := { n with current := v }

def save (n : Nested κ σ) (kind : κ) : Nested κ σ :=
  { n with saved := (kind, n.current) :: n.saved }

/-- Return to the innermost frame of the wanted kind and keep it open. -/
def rollbackTo (n : Nested κ σ) (wanted : κ → Bool) : Nested κ σ :=
  match n.saved.dropWhile (fun s => !wanted s.1) with
  | [] => n
  | s :: outer => { current := s.2, saved := s :: outer }

/-- Forget the innermost frame of the wanted kind and all frames inside it. -/
def release (n : Nested κ σ) (wanted : κ → Bool) : Nested κ σ :=
  match n.saved.dropWhile (fun s => !wanted s.1) with
  | [] => n
  | _ :: outer => { n with saved := outer }

def rollback (n : Nested κ σ) : Nested κ σ :=
  { current := (n.saved.getLast?.map Prod.snd).getD n.current, saved := [] }

def discard (n : Nested κ σ) : Nested κ σ := { n with saved := [] }

section Map

variable {τ : Type} (f : σ → τ) (n : Nested κ σ)

/-- The snapshots seen through a function of their values. -/
def map : Nested κ τ := { current := f n.current, saved := n.saved.map (Prod.map id f) }

theorem map_write (v : σ) : (n.write v).map f = (n.map f).write (f v) := rfl

theorem map_rollback : n.rollback.map f = (n.map f).rollback := by
  unfold map rollback
  rw [List.getLast?_map]
  cases n.saved.getLast? <;> rfl

theorem dropWhile_map_saved (wanted : κ → Bool) :
    (n.map f).saved.dropWhile (fun s => !wanted s.1) =
      (n.saved.dropWhile fun s => !wanted s.1).map (Prod.map id f) := by
  unfold map
  rw [List.dropWhile_map]
  rfl

theorem map_rollbackTo (wanted : κ → Bool) :
    (n.rollbackTo wanted).map f = (n.map f).rollbackTo wanted := by
  unfold rollbackTo
  rw [dropWhile_map_saved]
  cases n.saved.dropWhile fun s => !wanted s.1 <;> rfl

theorem map_release (wanted : κ → Bool) :
    (n.release wanted).map f = (n.map f).release wanted := by
  unfold release
  rw [dropWhile_map_saved]
  cases n.saved.dropWhile fun s => !wanted s.1 <;> rfl

end Map

/-- What a run that never ends the transaction may do. -/
inductive Step : Nested κ σ → Nested κ σ → Prop
  | write (n : Nested κ σ) (v : σ) : Step n (n.write v)
  | save (n : Nested κ σ) (kind : κ) : Step n (n.save kind)
  | rollbackTo (n : Nested κ σ) (wanted : κ → Bool) : Step n (n.rollbackTo wanted)
  | release (n : Nested κ σ) (wanted : κ → Bool) : Step n (n.release wanted)

/-- A run that keeps at least `depth` frames open throughout. -/
def LiveRun (depth : Nat) : Nested κ σ → Nested κ σ → Prop :=
  Relation.ReflTransGen fun n m => Step n m ∧ depth ≤ m.saved.length

theorem Step.suffix_or {n m : Nested κ σ} (h : Step n m) :
    n.saved <:+ m.saved ∨ m.saved <:+ n.saved := by
  cases h with
  | write v => exact Or.inl List.suffix_rfl
  | save kind => exact Or.inl (List.suffix_cons _ _)
  | rollbackTo wanted =>
    unfold Nested.rollbackTo
    split
    · exact Or.inl List.suffix_rfl
    · next s outer hs => exact Or.inr (hs ▸ List.dropWhile_suffix _)
  | release wanted =>
    unfold Nested.release
    split
    · exact Or.inl List.suffix_rfl
    · next s outer hs =>
      have hsuffix : s :: outer <:+ n.saved := hs ▸ List.dropWhile_suffix _
      exact Or.inr ((List.suffix_cons s outer).trans hsuffix)

theorem Step.suffix_mono {n m : Nested κ σ} {base : List (κ × σ)} (h : Step n m)
    (hbase : base <:+ n.saved) (hlive : base.length ≤ m.saved.length) : base <:+ m.saved := by
  rcases h.suffix_or with hsuffix | hsuffix
  · exact hbase.trans hsuffix
  · exact List.suffix_of_suffix_length_le hbase hsuffix hlive

/-- Frames that stay open keep the values they save. -/
theorem LiveRun.suffix {n m : Nested κ σ} {base : List (κ × σ)}
    (h : LiveRun base.length n m) (hbase : base <:+ n.saved) : base <:+ m.saved := by
  induction h with
  | refl => exact hbase
  | tail _ hstep ih => exact hstep.1.suffix_mono ih hstep.2

theorem LiveRun.exists_inner {n m : Nested κ σ} (h : LiveRun n.saved.length n m) :
    ∃ inner, m.saved = inner ++ n.saved := by
  obtain ⟨inner, hinner⟩ := h.suffix List.suffix_rfl
  exact ⟨inner, hinner.symm⟩

theorem dropWhile_inner {inner outer : List (κ × σ)} {wanted : κ → Bool}
    (hinner : ∀ s ∈ inner, wanted s.1 = false) :
    (inner ++ outer).dropWhile (fun s => !wanted s.1) = outer.dropWhile fun s => !wanted s.1 := by
  induction inner with
  | nil => rfl
  | cons s inner ih =>
    have hs := hinner s (by simp)
    simpa [hs] using ih fun x hx => hinner x (by simp [hx])

/-- Rolling back to a frame that is still the innermost of its kind gives
back the snapshots at the moment after it was opened. -/
theorem rollbackTo_inner {n m : Nested κ σ} {kind : κ} {inner : List (κ × σ)} {wanted : κ → Bool}
    (hsaved : m.saved = inner ++ (n.save kind).saved) (hkind : wanted kind = true)
    (hinner : ∀ s ∈ inner, wanted s.1 = false) : m.rollbackTo wanted = n.save kind := by
  unfold Nested.rollbackTo
  rw [hsaved, dropWhile_inner hinner]
  simp [save, hkind]

theorem release_inner {n m : Nested κ σ} {kind : κ} {inner : List (κ × σ)} {wanted : κ → Bool}
    (hsaved : m.saved = inner ++ (n.save kind).saved) (hkind : wanted kind = true)
    (hinner : ∀ s ∈ inner, wanted s.1 = false) : m.release wanted = n.write m.current := by
  unfold Nested.release
  rw [hsaved, dropWhile_inner hinner]
  simp [save, hkind, write]

theorem rollbackTo_outer {n m : Nested κ σ} {inner : List (κ × σ)} {wanted : κ → Bool}
    (hsaved : m.saved = inner ++ n.saved) (hinner : ∀ s ∈ inner, wanted s.1 = false)
    (hwanted : ∃ s ∈ n.saved, wanted s.1 = true) : m.rollbackTo wanted = n.rollbackTo wanted := by
  unfold Nested.rollbackTo
  rw [hsaved, dropWhile_inner hinner]
  split
  · next hnone =>
    obtain ⟨s, hs, hw⟩ := hwanted
    have hall := List.dropWhile_eq_nil_iff.mp hnone s hs
    simp [hw] at hall
  · rfl

theorem rollback_outer {n m : Nested κ σ} {inner : List (κ × σ)}
    (hsaved : m.saved = inner ++ n.saved) (hopen : n.saved ≠ []) : m.rollback = n.rollback := by
  have hlast : m.saved.getLast? = n.saved.getLast? := by
    rw [hsaved]
    exact List.getLast?_append_of_ne_nil inner hopen
  have hsome := List.getLast?_eq_some_getLast hopen
  simp [rollback, hlast, hsome]

end Nested

/-- The nested snapshots that frames with undo logs stand for. -/
def observe (undo : ε → σ → σ) (frames : List (Frame κ ε)) (v : σ) : Nested κ σ :=
  { current := v, saved := saves undo frames v }

section Search

variable (undo : ε → σ → σ) (wanted : κ → Bool)

theorem dropWhile_saves (frames : List (Frame κ ε)) (v : σ) :
    (saves undo frames v).dropWhile (fun s => !wanted s.1) =
      saves undo (frames.dropWhile fun f => !wanted f.kind)
        (unwind undo (frames.takeWhile fun f => !wanted f.kind) v) := by
  induction frames generalizing v with
  | nil => rfl
  | cons frame frames ih =>
    cases hw : wanted frame.kind with
    | true => simp [saves, hw]
    | false =>
      have hrest := ih (replay undo frame.undoLog v)
      simpa [saves, hw] using hrest

theorem observe_rollbackTo {frames outer : List (Frame κ ε)} {frame : Frame κ ε} (v : σ)
    (h : frames.dropWhile (fun f => !wanted f.kind) = frame :: outer) :
    (observe undo frames v).rollbackTo wanted =
      observe undo ({ frame with undoLog := [] } :: outer)
        (replay undo frame.undoLog
          (unwind undo (frames.takeWhile fun f => !wanted f.kind) v)) := by
  simp [Nested.rollbackTo, observe, dropWhile_saves, h, saves]

theorem observe_release {frames rest : List (Frame κ ε)} {frame outer : Frame κ ε} (v : σ)
    (h : frames.dropWhile (fun f => !wanted f.kind) = frame :: outer :: rest) :
    (observe undo frames v).release wanted =
      observe undo ({ outer with undoLog := outer.undoLog ++
        (frames.takeWhile (fun f => !wanted f.kind) ++ [frame]).reverse.flatMap (·.undoLog) } ::
          rest) v := by
  have hmerged : replay undo
      ((frames.takeWhile (fun f => !wanted f.kind) ++ [frame]).reverse.flatMap (·.undoLog)) v =
      replay undo frame.undoLog (unwind undo (frames.takeWhile fun f => !wanted f.kind) v) := by
    rw [replay_flatMap_reverse]
    simp [unwind]
  simp only [Nested.release, observe, dropWhile_saves, h]
  simp only [saves]
  rw [replay_append, hmerged]

theorem observe_rollback (frames : List (Frame κ ε)) (v : σ) :
    (observe undo frames v).rollback = observe undo [] (unwind undo frames v) := by
  simp [Nested.rollback, observe, getLast?_saves, saves]

end Search

end NestedUndo
