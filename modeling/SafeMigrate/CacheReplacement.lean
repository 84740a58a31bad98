import SafeMigrate.CacheFile
import Mathlib.Data.Set.Insert
import Mathlib.Logic.Function.Basic

/-! Any number of writers and readers of one cache file, step by step and in any
order, with failures and crashes in between. A writer fills a temporary file,
synchronizes it and renames it over the target, as `replace_cache` does where a
rename replaces a file (everywhere but on Windows). -/

namespace SafeMigrate

structure Inode where
  content : Bytes
  /-- Whether the content outlasts a crash. -/
  synced : Bool

inductive WriterPhase
  | idle
  | created (inode : Nat)
  | writing (inode : Nat) (left : Bytes)
  | ready (inode : Nat)
  | installed

/-- The file that the writer still writes to. -/
def WriterPhase.writes : WriterPhase → Option Nat
  | created inode | writing inode _ => some inode
  | idle | ready _ | installed => none

inductive ReaderPhase
  | idle
  | reading (inode : Nat) (bytes : Bytes)
  | finished (bytes : Bytes)

/-- The directory of the cache, with the processes at work in it. -/
structure CacheDirectory (ω ρ : Type) where
  inodes : List Inode
  /-- The file behind the path of the cache. -/
  target : Option Nat
  /-- What a crash may still put behind the path instead. -/
  unsettled : List (Option Nat)
  writers : ω → WriterPhase
  readers : ρ → ReaderPhase

namespace CacheDirectory

open Function

variable {ω ρ : Type} [DecidableEq ω] [DecidableEq ρ]

def setWriter (s : CacheDirectory ω ρ) (w : ω) (phase : WriterPhase) : CacheDirectory ω ρ :=
  { s with writers := update s.writers w phase }

def setReader (s : CacheDirectory ω ρ) (r : ρ) (phase : ReaderPhase) : CacheDirectory ω ρ :=
  { s with readers := update s.readers r phase }

def setInode (s : CacheDirectory ω ρ) (inode : Nat) (f : Inode → Inode) : CacheDirectory ω ρ :=
  { s with inodes := s.inodes.modify inode f }

def addInode (s : CacheDirectory ω ρ) : CacheDirectory ω ρ :=
  { s with inodes := s.inodes ++ [⟨[], false⟩] }

def install (s : CacheDirectory ω ρ) (inode : Nat) : CacheDirectory ω ρ :=
  { s with target := some inode, unsettled := s.target :: s.unsettled }

def settle (s : CacheDirectory ω ρ) : CacheDirectory ω ρ := { s with unsettled := [] }

def crashed (inodes : List Inode) (entry : Option Nat) : CacheDirectory ω ρ where
  inodes := inodes
  target := entry
  unsettled := []
  writers _ := .idle
  readers _ := .idle

/-- The steps of `write_cache_with_protection_and_limits` and `replace_cache`, those
of `read_cache_bytes`, and what may come between them. The payloads are those that
`whole` allows. -/
inductive Step (whole : Bytes → Prop) (s : CacheDirectory ω ρ) : CacheDirectory ω ρ → Prop
  | create (w : ω) : s.writers w = .idle →
      Step whole s (s.addInode.setWriter w (.created s.inodes.length))
  | encode (w : ω) (inode : Nat) (payload : Bytes) : s.writers w = .created inode → whole payload →
      Step whole s (s.setWriter w (.writing inode payload))
  | write (w : ω) (inode : Nat) (chunk left : Bytes) : s.writers w = .writing inode (chunk ++ left) →
      Step whole s ((s.setInode inode fun node => ⟨node.content ++ chunk, false⟩).setWriter w
        (.writing inode left))
  | sync (w : ω) (inode : Nat) : s.writers w = .writing inode [] →
      Step whole s ((s.setInode inode fun node => ⟨node.content, true⟩).setWriter w (.ready inode))
  | persist (w : ω) (inode : Nat) : s.writers w = .ready inode →
      Step whole s ((s.install inode).setWriter w .installed)
  | syncParent (w : ω) : s.writers w = .installed → Step whole s (s.settle.setWriter w .idle)
  | fail (w : ω) : Step whole s (s.setWriter w .idle)
  | openTarget (r : ρ) (inode : Nat) : s.target = some inode →
      Step whole s (s.setReader r (.reading inode []))
  | read (r : ρ) (inode : Nat) (bytes chunk : Bytes) (node : Inode) :
      s.readers r = .reading inode bytes → s.inodes[inode]? = some node →
        chunk <+: node.content.drop bytes.length →
          Step whole s (s.setReader r (.reading inode (bytes ++ chunk)))
  | finish (r : ρ) (inode : Nat) (bytes : Bytes) (node : Inode) :
      s.readers r = .reading inode bytes → s.inodes[inode]? = some node →
        node.content.length ≤ bytes.length → Step whole s (s.setReader r (.finished bytes))
  | crash (inodes : List Inode) (entry : Option Nat) : entry ∈ s.target :: s.unsettled →
      (∀ (i : Nat) (node : Inode), s.inodes[i]? = some node → node.synced = true →
        inodes[i]? = some node) → Step whole s (crashed inodes entry)

inductive Run (whole : Bytes → Prop) (s : CacheDirectory ω ρ) : CacheDirectory ω ρ → Prop
  | start : Run whole s s
  | step {t u : CacheDirectory ω ρ} : Run whole s t → Step whole t u → Run whole s u

/-- Before any process of the tool has run. -/
def initial (content : Option Bytes) : CacheDirectory ω ρ where
  inodes := content.toList.map fun bytes => ⟨bytes, true⟩
  target := content.map fun _ => 0
  unsettled := []
  writers _ := .idle
  readers _ := .idle

section Invariant

variable {whole : Bytes → Prop} {s t : CacheDirectory ω ρ}

/-- A file that nobody writes to, whole and safe from crashes. -/
structure Settled (whole : Bytes → Prop) (s : CacheDirectory ω ρ) (i : Nat) : Prop where
  node : ∃ node, s.inodes[i]? = some node ∧ node.synced = true ∧ whole node.content
  unwritten : ∀ w, (s.writers w).writes ≠ some i

structure Consistent (whole : Bytes → Prop) (s : CacheDirectory ω ρ) : Prop where
  entries : ∀ i, some i ∈ s.target :: s.unsettled → Settled whole s i
  created : ∀ w i, s.writers w = .created i → ∃ node, s.inodes[i]? = some node ∧ node.content = []
  writing : ∀ w i left, s.writers w = .writing i left →
    ∃ node, s.inodes[i]? = some node ∧ whole (node.content ++ left)
  ready : ∀ w i, s.writers w = .ready i → Settled whole s i
  apart : ∀ w w' i, (s.writers w).writes = some i → (s.writers w').writes = some i → w = w'
  reading : ∀ r i bytes, s.readers r = .reading i bytes →
    Settled whole s i ∧ ∀ node, s.inodes[i]? = some node → bytes <+: node.content
  finished : ∀ r bytes, s.readers r = .finished bytes → whole bytes

omit [DecidableEq ω] [DecidableEq ρ] in
theorem Settled.of_same {i : Nat} (h : Settled whole s i)
    (hnode : ∀ node, s.inodes[i]? = some node → t.inodes[i]? = some node)
    (hwrites : ∀ w, (t.writers w).writes = some i → (s.writers w).writes = some i) :
    Settled whole t i := by
  obtain ⟨node, hget, hsynced, hwhole⟩ := h.node
  exact ⟨⟨node, hnode node hget, hsynced, hwhole⟩, fun w hw => h.unwritten w (hwrites w hw)⟩

omit [DecidableEq ρ] in
theorem writers_setWriter (s : CacheDirectory ω ρ) (w w' : ω) (phase : WriterPhase) :
    (s.setWriter w phase).writers w' = if w' = w then phase else s.writers w' := by
  by_cases hw : w' = w
  · subst hw
    simp [setWriter]
  · simp [setWriter, hw]

omit [DecidableEq ω] in
theorem readers_setReader (s : CacheDirectory ω ρ) (r r' : ρ) (phase : ReaderPhase) :
    (s.setReader r phase).readers r' = if r' = r then phase else s.readers r' := by
  by_cases hr : r' = r
  · subst hr
    simp [setReader]
  · simp [setReader, hr]

omit [DecidableEq ω] [DecidableEq ρ] in
/-- Nothing but the phase of a reader has changed. -/
theorem Consistent.reader (h : Consistent whole s) [DecidableEq ρ] (r : ρ) (phase : ReaderPhase)
    (hreading : ∀ i bytes, phase = .reading i bytes →
      Settled whole s i ∧ ∀ node, s.inodes[i]? = some node → bytes <+: node.content)
    (hfinished : ∀ bytes, phase = .finished bytes → whole bytes) :
    Consistent whole (s.setReader r phase) := by
  have hsettled (i : Nat) (hi : Settled whole s i) : Settled whole (s.setReader r phase) i :=
    ⟨hi.node, hi.unwritten⟩
  refine ⟨fun i hi => hsettled i (h.entries i hi), h.created, h.writing,
    fun w i hw => hsettled i (h.ready w i hw), h.apart, fun r' i bytes hr' => ?_,
    fun r' bytes hr' => ?_⟩
  · rw [readers_setReader] at hr'
    split at hr'
    · exact (hreading i bytes hr').imp_left (hsettled i)
    · exact (h.reading r' i bytes hr').imp_left (hsettled i)
  · rw [readers_setReader] at hr'
    split at hr'
    · exact hfinished bytes hr'
    · exact h.finished r' bytes hr'

omit [DecidableEq ω] [DecidableEq ρ] in
theorem Consistent.exists_node (h : Consistent whole s) {w : ω} {i : Nat}
    (hw : (s.writers w).writes = some i) : ∃ node, s.inodes[i]? = some node := by
  cases hphase : s.writers w with
  | created inode =>
    rw [hphase] at hw
    obtain rfl := Option.some.inj hw
    obtain ⟨node, hget, -⟩ := h.created w inode hphase
    exact ⟨node, hget⟩
  | writing inode left =>
    rw [hphase] at hw
    obtain rfl := Option.some.inj hw
    obtain ⟨node, hget, -⟩ := h.writing w inode left hphase
    exact ⟨node, hget⟩
  | idle => simp [hphase, WriterPhase.writes] at hw
  | ready inode => simp [hphase, WriterPhase.writes] at hw
  | installed => simp [hphase, WriterPhase.writes] at hw

omit [DecidableEq ρ] in
/-- A step of one writer: it changes no file but the one it writes to, and puts
no file behind the path but the one it has made ready. -/
theorem Consistent.writer (h : Consistent whole s) {w : ω} {phase : WriterPhase}
    (hwriters : ∀ w', t.writers w' = if w' = w then phase else s.writers w')
    (hreaders : t.readers = s.readers)
    (hsame : ∀ i node, s.inodes[i]? = some node → (s.writers w).writes ≠ some i →
      t.inodes[i]? = some node)
    (hfresh : ∀ i, phase.writes = some i → (s.writers w).writes = some i ∨ s.inodes[i]? = none)
    (hentries : ∀ i, some i ∈ t.target :: t.unsettled →
      some i ∈ s.target :: s.unsettled ∨ s.writers w = .ready i)
    (hcreated : ∀ i, phase = .created i → ∃ node, t.inodes[i]? = some node ∧ node.content = [])
    (hwriting : ∀ i left, phase = .writing i left →
      ∃ node, t.inodes[i]? = some node ∧ whole (node.content ++ left))
    (hready : ∀ i, phase = .ready i → (s.writers w).writes = some i ∧
      ∃ node, t.inodes[i]? = some node ∧ node.synced = true ∧ whole node.content) :
    Consistent whole t := by
  have hother (w' : ω) (i : Nat) (hw' : (t.writers w').writes = some i) (hne : w' ≠ w) :
      (s.writers w').writes = some i := by
    rwa [hwriters, if_neg hne] at hw'
  have hkept (w' : ω) (i : Nat) (node : Inode) (hne : w' ≠ w)
      (hw' : (s.writers w').writes = some i) (hget : s.inodes[i]? = some node) :
      t.inodes[i]? = some node :=
    hsame i node hget fun hwrites => hne (h.apart w' w i hw' hwrites)
  have hsettled (i : Nat) (hi : Settled whole s i) : Settled whole t i := by
    refine hi.of_same (fun node hget => hsame i node hget (hi.unwritten w)) fun w' hw' => ?_
    by_cases hne : w' = w
    · subst hne
      rw [hwriters, if_pos rfl] at hw'
      obtain ⟨node, hget, -⟩ := hi.node
      refine (hfresh i hw').resolve_right fun hnone => ?_
      rw [hget] at hnone
      cases hnone
    · exact hother w' i hw' hne
  refine ⟨fun i hi => ?_, fun w' i hw' => ?_, fun w' i left hw' => ?_, fun w' i hw' => ?_, ?_, ?_, ?_⟩
  · exact hsettled i ((hentries i hi).elim (h.entries i) (h.ready w i))
  · rw [hwriters] at hw'
    by_cases hne : w' = w
    · exact hcreated i (by rwa [if_pos hne] at hw')
    · rw [if_neg hne] at hw'
      obtain ⟨node, hget, hempty⟩ := h.created w' i hw'
      exact ⟨node, hkept w' i node hne (by rw [hw']; rfl) hget, hempty⟩
  · rw [hwriters] at hw'
    by_cases hne : w' = w
    · exact hwriting i left (by rwa [if_pos hne] at hw')
    · rw [if_neg hne] at hw'
      obtain ⟨node, hget, hwhole⟩ := h.writing w' i left hw'
      exact ⟨node, hkept w' i node hne (by rw [hw']; rfl) hget, hwhole⟩
  · by_cases hne : w' = w
    · rw [hwriters, if_pos hne] at hw'
      obtain ⟨hwrote, hnode⟩ := hready i hw'
      refine ⟨hnode, fun w'' hw'' => ?_⟩
      by_cases hne' : w'' = w
      · rw [hwriters, if_pos hne', hw'] at hw''
        cases hw''
      · exact hne' (h.apart w'' w i (hother w'' i hw'' hne') hwrote)
    · rw [hwriters, if_neg hne] at hw'
      exact hsettled i (h.ready w' i hw')
  · have hnew (w' : ω) (i : Nat) (hne : w' ≠ w) (hw' : (t.writers w').writes = some i) :
        (t.writers w).writes ≠ some i := by
      intro hw
      rw [hwriters, if_pos rfl] at hw
      have hold := hother w' i hw' hne
      rcases hfresh i hw with hwrites | hnone
      · exact hne (h.apart w' w i hold hwrites)
      · obtain ⟨node, hget⟩ := h.exists_node hold
        rw [hget] at hnone
        cases hnone
    intro w' w'' i hw' hw''
    by_cases hne' : w' = w
    · by_cases hne'' : w'' = w
      · exact hne'.trans hne''.symm
      · exact absurd (hne' ▸ hw') (hnew w'' i hne'' hw'')
    · by_cases hne'' : w'' = w
      · exact absurd (hne'' ▸ hw'') (hnew w' i hne' hw')
      · exact h.apart w' w'' i (hother w' i hw' hne') (hother w'' i hw'' hne'')
  · intro r i bytes hr
    rw [hreaders] at hr
    obtain ⟨hi, hbytes⟩ := h.reading r i bytes hr
    obtain ⟨node, hget, -⟩ := hi.node
    refine ⟨hsettled i hi, fun node' hget' => ?_⟩
    rw [hsame i node hget (hi.unwritten w)] at hget'
    exact Option.some.inj hget' ▸ hbytes node hget
  · intro r bytes hr
    rw [hreaders] at hr
    exact h.finished r bytes hr

theorem Consistent.step {written : Bytes → Prop} (hwritten : ∀ bytes, written bytes → whole bytes)
    (h : Consistent whole s) (hstep : Step written s t) : Consistent whole t := by
  cases hstep with
  | create w hidle =>
    refine h.writer (writers_setWriter _ w · _) rfl (fun i node hget _ => ?_) (fun i hi => Or.inr ?_)
      (fun i => Or.inl) (fun i hi => ?_) (by simp) (by simp)
    · exact (List.getElem?_append_left (List.getElem?_eq_some_iff.mp hget).1).trans hget
    · obtain rfl := Option.some.inj hi
      exact List.getElem?_eq_none (Nat.le_refl _)
    · obtain rfl := WriterPhase.created.inj hi
      exact ⟨⟨[], false⟩, by simp [setWriter, addInode], rfl⟩
  | encode w inode payload hcreated hwhole =>
    refine h.writer (writers_setWriter _ w · _) rfl (fun i node hget _ => hget)
      (fun i hi => Or.inl ?_) (fun i => Or.inl) (by simp) (fun i left hi => ?_) (by simp)
    · rw [hcreated]
      exact hi
    · obtain ⟨rfl, rfl⟩ := WriterPhase.writing.inj hi
      obtain ⟨node, hget, hempty⟩ := h.created w _ hcreated
      exact ⟨node, hget, by simpa [hempty] using hwritten _ hwhole⟩
  | write w inode chunk left hwriting =>
    refine h.writer (writers_setWriter _ w · _) rfl (fun i node hget hi => ?_)
      (fun i hi => Or.inl ?_) (fun i => Or.inl) (by simp) (fun i left' hi => ?_) (by simp)
    · have hne : inode ≠ i := fun heq => hi (by rw [hwriting, heq]; rfl)
      exact (List.getElem?_modify_ne _ _ hne).trans hget
    · rw [hwriting]
      exact hi
    · obtain ⟨rfl, rfl⟩ := WriterPhase.writing.inj hi
      obtain ⟨node, hget, hwhole⟩ := h.writing w _ _ hwriting
      refine ⟨⟨node.content ++ chunk, false⟩, ?_, by rwa [List.append_assoc]⟩
      simp [setWriter, setInode, hget]
  | sync w inode hwriting =>
    refine h.writer (writers_setWriter _ w · _) rfl (fun i node hget hi => ?_) (by simp [WriterPhase.writes])
      (fun i => Or.inl) (by simp) (by simp) (fun i hi => ?_)
    · have hne : inode ≠ i := fun heq => hi (by rw [hwriting, heq]; rfl)
      exact (List.getElem?_modify_ne _ _ hne).trans hget
    · obtain rfl := WriterPhase.ready.inj hi
      obtain ⟨node, hget, hwhole⟩ := h.writing w _ _ hwriting
      rw [List.append_nil] at hwhole
      refine ⟨by rw [hwriting]; rfl, ⟨node.content, true⟩, ?_, rfl, hwhole⟩
      simp [setWriter, setInode, hget]
  | persist w inode hready =>
    refine h.writer (writers_setWriter _ w · _) rfl (fun i node hget _ => hget)
      (by simp [WriterPhase.writes]) (fun i hi => ?_) (by simp) (by simp) (by simp)
    rcases List.mem_cons.mp hi with hnew | hold
    · exact Or.inr (Option.some.inj hnew ▸ hready)
    · exact Or.inl hold
  | syncParent w hinstalled =>
    refine h.writer (writers_setWriter _ w · _) rfl (fun i node hget _ => hget)
      (by simp [WriterPhase.writes]) (fun i hi => Or.inl ?_) (by simp) (by simp) (by simp)
    exact List.mem_cons.mpr (Or.inl (List.mem_singleton.mp hi))
  | fail w =>
    exact h.writer (writers_setWriter _ w · _) rfl (fun i node hget _ => hget)
      (by simp [WriterPhase.writes]) (fun i => Or.inl) (by simp) (by simp) (by simp)
  | openTarget r inode htarget =>
    refine h.reader r _ (fun i bytes hi => ?_) (by simp)
    obtain ⟨rfl, rfl⟩ := ReaderPhase.reading.inj hi
    exact ⟨h.entries _ (by rw [htarget]; exact List.mem_cons_self), fun _ _ => List.nil_prefix⟩
  | read r inode bytes chunk node hreading hget hchunk =>
    refine h.reader r _ (fun i bytes' hi => ?_) (by simp)
    obtain ⟨rfl, rfl⟩ := ReaderPhase.reading.inj hi
    obtain ⟨hi, hbytes⟩ := h.reading r _ _ hreading
    refine ⟨hi, fun node' hget' => ?_⟩
    obtain rfl := Option.some.inj (hget.symm.trans hget')
    obtain ⟨rest, hrest⟩ := hbytes node hget
    rw [← hrest, List.drop_left] at hchunk
    rw [← hrest]
    exact (List.prefix_append_right_inj bytes).mpr hchunk
  | finish r inode bytes node hreading hget hlength =>
    refine h.reader r _ (by simp) fun bytes' hdone => ?_
    obtain rfl := ReaderPhase.finished.inj hdone
    obtain ⟨hi, hbytes⟩ := h.reading r _ _ hreading
    obtain ⟨node', hget', -, hwhole⟩ := hi.node
    obtain rfl := Option.some.inj (hget.symm.trans hget')
    rwa [(hbytes node hget).eq_of_length_le hlength]
  | crash inodes entry hentry hdurable =>
    refine ⟨fun i hi => ?_, by simp [crashed], by simp [crashed], by simp [crashed],
      by simp [crashed, WriterPhase.writes], by simp [crashed], by simp [crashed]⟩
    have heq : some i = entry := List.mem_singleton.mp hi
    obtain ⟨node, hget, hsynced, hwhole⟩ := (h.entries i (heq ▸ hentry)).node
    exact ⟨⟨node, hdurable i node hget hsynced, hsynced, hwhole⟩, by simp [crashed, WriterPhase.writes]⟩

omit [DecidableEq ω] [DecidableEq ρ] in
theorem consistent_initial (content : Option Bytes) (hcontent : ∀ bytes ∈ content, whole bytes) :
    Consistent whole (initial content : CacheDirectory ω ρ) := by
  refine ⟨fun i hi => ?_, by simp [initial], by simp [initial], by simp [initial],
    by simp [initial, WriterPhase.writes], by simp [initial], by simp [initial]⟩
  cases content with
  | none => simp [initial] at hi
  | some bytes =>
    obtain rfl : i = 0 := by simpa [initial] using hi
    exact ⟨⟨⟨bytes, true⟩, rfl, rfl, hcontent bytes rfl⟩, by simp [initial, WriterPhase.writes]⟩

/-- Behind the path is a file, also after a crash. -/
theorem entries_isSome {written : Bytes → Prop} (hrun : Run written s t)
    (h : ∀ entry ∈ s.target :: s.unsettled, entry.isSome = true) :
    ∀ entry ∈ t.target :: t.unsettled, entry.isSome = true := by
  induction hrun with
  | start => exact h
  | step _ hstep ih =>
    cases hstep with
    | persist w inode _ =>
      intro entry hentry
      rcases List.mem_cons.mp hentry with rfl | hold
      · rfl
      · exact ih entry hold
    | syncParent w _ =>
      intro entry hentry
      exact ih entry (List.mem_cons.mpr (Or.inl (List.mem_singleton.mp hentry)))
    | crash inodes entry hentry _ =>
      intro entry' hentry'
      rw [List.mem_singleton.mp hentry']
      exact ih entry hentry
    | _ => exact ih

theorem Run.consistent {written : Bytes → Prop} (hwritten : ∀ bytes, written bytes → whole bytes)
    (h : Consistent whole s) (hrun : Run written s t) : Consistent whole t := by
  induction hrun with
  | start => exact h
  | step _ hstep ih => exact ih.step hwritten hstep

end Invariant

section Caches

variable {γ : Type} (lib : CacheLibraries γ) (protections : Set CacheProtection)

/-- What a run of the tool writes for some cache, with one of the protections. -/
def Written (content : Bytes) : Prop :=
  ∃ protection ∈ protections, ∃ cache nonce, nonce.length = nonceLength ∧
    lib.writeCache protection nonce cache = .ok content

/-- The file that was there at first, or all that some run has written. -/
def Whole (start : Option Bytes) (content : Bytes) : Prop :=
  content ∈ start ∨ Written lib protections content

/-- Whatever writers, readers, failures and crashes come after each other: what a
reader reads to the end, and what is behind the path, is a whole written cache or
the file that was there at first, and a path that led to a file always leads to one. -/
theorem concurrent_caches_are_whole (start : Option Bytes) (s : CacheDirectory ω ρ)
    (hrun : Run (Written lib protections) (initial start) s) :
    (∀ r bytes, s.readers r = .finished bytes → Whole lib protections start bytes) ∧
      (∀ i, s.target = some i → ∃ node, s.inodes[i]? = some node ∧
        Whole lib protections start node.content) ∧
      (start.isSome = true → s.target.isSome = true) := by
  have hdone : Consistent (Whole lib protections start) s :=
    hrun.consistent (fun bytes => Or.inr) (consistent_initial start fun bytes => Or.inl)
  refine ⟨hdone.finished, fun i hi => ?_, fun hstart => ?_⟩
  · obtain ⟨node, hget, -, hwhole⟩ := (hdone.entries i (by rw [hi]; exact List.mem_cons_self)).node
    exact ⟨node, hget, hwhole⟩
  · refine entries_isSome hrun (fun entry hentry => ?_) s.target List.mem_cons_self
    rw [List.mem_singleton.mp hentry]
    simpa [initial] using hstart

/-- One writer from its temporary file to the rename, with a crash right after. -/
def firstCache : CacheDirectory Bool Bool := crashed [⟨CacheLibraries.storedContent, true⟩] (some 0)

theorem firstCache_run : Run (Written CacheLibraries.storedLibraries {.withKey CacheLibraries.storedKey})
    (initial none) firstCache := by
  have hwritten : Written CacheLibraries.storedLibraries {.withKey CacheLibraries.storedKey}
      CacheLibraries.storedContent :=
    ⟨.withKey CacheLibraries.storedKey, rfl, [1, 2], CacheLibraries.storedNonce, by decide, by rfl⟩
  have hpersisted : Run (Written CacheLibraries.storedLibraries {.withKey CacheLibraries.storedKey})
      (initial none : CacheDirectory Bool Bool) _ :=
    .step (.step (.step (.step (.step .start (.create true rfl))
      (.encode true 0 CacheLibraries.storedContent rfl hwritten))
      (.write true 0 CacheLibraries.storedContent [] (by rfl))) (.sync true 0 rfl))
      (.persist true 0 rfl)
  refine hpersisted.step (.crash _ _ List.mem_cons_self fun i node hget _ => ?_)
  cases i with
  | zero => simpa [setWriter, addInode, setInode, install, initial] using hget
  | succ i => simp [setWriter, addInode, setInode, install, initial] at hget

theorem concurrent_caches_are_whole_first :
    (∀ r bytes, firstCache.readers r = .finished bytes →
      Whole CacheLibraries.storedLibraries {.withKey CacheLibraries.storedKey} none bytes) ∧
      (∀ i, firstCache.target = some i → ∃ node, firstCache.inodes[i]? = some node ∧
        Whole CacheLibraries.storedLibraries {.withKey CacheLibraries.storedKey} none
          node.content) ∧
      ((none : Option Bytes).isSome = true → firstCache.target.isSome = true) :=
  concurrent_caches_are_whole _ _ none firstCache firstCache_run

end Caches

end CacheDirectory

end SafeMigrate
