import SafeMigrate.MapSync
import SafeMigrate.State

/-! The state before a statement, as the rules see it. The engine brings the
capture of the statement before up to date instead of building a new one. What it
keeps of that is equal to what belongs there, but for the marks of inferred schemas
that equality passes over. -/

namespace SafeMigrate

def Overlay.presentState {α : Type} : Overlay α → Option α
  | .present state => some state
  | .dropped => none

section Marks

/-- A value, with the `inferred_schema` of every identity in it. -/
@[ext] structure Marked (α : Type) where
  value : α
  marks : List Bool

/-- `PartialEq` compares identities by schema and name. -/
instance {α : Type} [DecidableEq α] : BEq (Marked α) where
  beq x y := decide (x.value = y.value)

theorem Marked.beq_iff {α : Type} [DecidableEq α] {x y : Marked α} :
    (x == y) = true ↔ x.value = y.value := decide_eq_true_iff

theorem Marked.bne_iff {α : Type} [DecidableEq α] {x y : Marked α} :
    (x != y) = true ↔ x.value ≠ y.value := by
  rw [bne, Bool.not_eq_true', ← Bool.not_eq_true, Marked.beq_iff]

/-- An entry of a hash map: the `inferred_schema` of its key, and its value. -/
@[ext] structure MarkedEntry (α : Type) where
  key : List Bool
  stored : Marked α

def MarkedEntry.value {α : Type} (entry : MarkedEntry α) : α := entry.stored.value

/-- The marks that an object is stored with. -/
structure EntryMarks where
  key : List Bool
  value : List Bool

def EntryMarks.entry {α : Type} (marks : EntryMarks) (value : α) : MarkedEntry α :=
  ⟨marks.key, ⟨value, marks.value⟩⟩

/-- A value is replaced where it differs. The key stays the one that is there. -/
def MarkedEntry.update {α : Type} [DecidableEq α] (entry current : MarkedEntry α) :
    MarkedEntry α :=
  if entry.stored != current.stored then { entry with stored := current.stored } else entry

/-- The marks of all that a state stores. -/
structure InferredMarks where
  relations : ObjectId → EntryMarks
  functions : ObjectId → EntryMarks
  roles : ObjectId → EntryMarks
  publications : String → EntryMarks
  subscriptions : String → EntryMarks
  sequences : ObjectId → EntryMarks
  extensions : String → EntryMarks
  types : ObjectId → EntryMarks
  edges : DependencyEdge → List Bool
  baselineForeignKeys : ObjectId × String → List Bool

end Marks

structure PreState where
  relations : KeyedMap ObjectId (MarkedEntry RelationState) := ∅
  functions : KeyedMap ObjectId (MarkedEntry FunctionState) := ∅
  roles : KeyedMap ObjectId (MarkedEntry RoleState) := ∅
  publications : KeyedMap String (MarkedEntry PublicationState) := ∅
  subscriptions : KeyedMap String (MarkedEntry SubscriptionState) := ∅
  sequences : KeyedMap ObjectId (MarkedEntry SequenceState) := ∅
  extensions : KeyedMap String (MarkedEntry ExtensionState) := ∅
  types : KeyedMap ObjectId (MarkedEntry TypeState) := ∅
  indexes : List (Marked DependencyEdge) := []
  baselineForeignKeys : Finset (Marked (ObjectId × String)) := ∅

section SyncPresent

variable {κ α : Type} [DecidableEq κ] [DecidableEq α]

/-- The present objects of a map, with their marks. -/
def presentEntry (marks : κ → EntryMarks) (source : KeyedMap κ (Overlay α)) (k : κ) :
    Option (MarkedEntry α) :=
  ((source.lookup k).bind Overlay.presentState).map (marks k).entry

def syncPresentMap (marks : κ → EntryMarks) (target : KeyedMap κ (MarkedEntry α))
    (source : KeyedMap κ (Overlay α)) : KeyedMap κ (MarkedEntry α) :=
  MapSync.syncMap (fun k overlay => overlay.presentState.map (marks k).entry)
    MarkedEntry.update target source

/-- Where an object is still there, its key has the marks of its key now, and a value that has
not changed those of the value. -/
def MarksCurrent (marks : κ → EntryMarks) (target : KeyedMap κ (MarkedEntry α))
    (source : KeyedMap κ (Overlay α)) : Prop :=
  ∀ k, ∀ entry ∈ target.lookup k, ∀ value ∈ (source.lookup k).bind Overlay.presentState,
    entry.key = (marks k).key ∧ (entry.stored.value = value → entry.stored.marks = (marks k).value)

variable {marks : κ → EntryMarks} {target : KeyedMap κ (MarkedEntry α)}
  {source : KeyedMap κ (Overlay α)}

omit [DecidableEq α] in
theorem lookup_bind_entry (k : κ) :
    ((source.lookup k).bind fun overlay => overlay.presentState.map (marks k).entry) =
      presentEntry marks source k := by
  unfold presentEntry
  cases source.lookup k <;> rfl

theorem update_value (entry current : MarkedEntry α) :
    (entry.update current).value = current.value := by
  unfold MarkedEntry.update
  by_cases hsame : entry.stored.value = current.stored.value
  · rw [if_neg fun hne => Marked.bne_iff.mp hne hsame]
    exact hsame
  · rw [if_pos (Marked.bne_iff.mpr hsame)]
    rfl

theorem update_eq_entry_iff {m : EntryMarks} {entry : MarkedEntry α} {value : α} :
    entry.update (m.entry value) = m.entry value ↔
      entry.key = m.key ∧ (entry.stored.value = value → entry.stored.marks = m.value) := by
  unfold MarkedEntry.update
  by_cases hsame : entry.stored.value = value
  · rw [if_neg fun hne => Marked.bne_iff.mp hne hsame]
    simp [EntryMarks.entry, MarkedEntry.ext_iff, Marked.ext_iff, hsame]
  · rw [if_pos (Marked.bne_iff.mpr hsame)]
    simp [EntryMarks.entry, MarkedEntry.ext_iff, hsame]

theorem lookup_syncPresentMap_empty (k : κ) :
    (syncPresentMap marks ∅ source).lookup k = presentEntry marks source k := by
  rw [syncPresentMap, MapSync.lookup_syncMap, lookup_bind_entry]
  cases presentEntry marks source k <;> rfl

/-- Every object is there with its value. -/
theorem syncPresentMap_value (k : κ) :
    ((syncPresentMap marks target source).lookup k).map MarkedEntry.value =
      (source.lookup k).bind Overlay.presentState := by
  rw [syncPresentMap, MapSync.lookup_syncMap, lookup_bind_entry, presentEntry]
  cases (source.lookup k).bind Overlay.presentState with
  | none => rfl
  | some value =>
    cases target.lookup k with
    | none => rfl
    | some entry => exact congrArg some (update_value entry ((marks k).entry value))

omit [DecidableEq α] in
theorem marksCurrent_empty : MarksCurrent marks ∅ source := by
  intro k entry hentry
  cases hentry

theorem syncPresentMap_current_iff :
    (∀ k, (syncPresentMap marks target source).lookup k = presentEntry marks source k) ↔
      MarksCurrent marks target source := by
  refine forall_congr' fun k => ?_
  rw [← lookup_syncPresentMap_empty]
  unfold syncPresentMap
  rw [MapSync.lookup_syncMap_eq_fresh_iff, lookup_bind_entry, presentEntry]
  refine forall₂_congr fun entry _ => ?_
  simp only [Option.mem_def, Option.map_eq_some_iff, forall_exists_index, and_imp,
    forall_apply_eq_imp_iff₂, update_eq_entry_iff]

end SyncPresent

namespace AnalysisState

def indexEdges (s : AnalysisState) (marks : InferredMarks) : List (Marked DependencyEdge) :=
  (s.graph.edges.filter fun edge => edge.kind.isIndexOnRelation).map fun edge =>
    ⟨edge, marks.edges edge⟩

def markedForeignKeys (s : AnalysisState) (marks : InferredMarks) :
    Finset (Marked (ObjectId × String)) :=
  s.baselineForeignKeys.map
    ⟨fun key => ⟨key, marks.baselineForeignKeys key⟩, fun _ _ h => (Marked.mk.inj h).1⟩

def capturePreStateInto (s : AnalysisState) (marks : InferredMarks) (p : PreState) : PreState where
  relations := syncPresentMap marks.relations p.relations s.relations
  functions := syncPresentMap marks.functions p.functions s.functions
  roles := syncPresentMap marks.roles p.roles s.roles
  publications := syncPresentMap marks.publications p.publications s.publications
  subscriptions := syncPresentMap marks.subscriptions p.subscriptions s.subscriptions
  sequences := syncPresentMap marks.sequences p.sequences s.sequences
  extensions := syncPresentMap marks.extensions p.extensions s.extensions
  types := syncPresentMap marks.types p.types s.types
  indexes := MapSync.syncList p.indexes (s.indexEdges marks)
  baselineForeignKeys := s.markedForeignKeys marks

def capturePreState (s : AnalysisState) (marks : InferredMarks) : PreState :=
  s.capturePreStateInto marks {}

end AnalysisState

namespace PreState

/-- The same entries, lists and sets, down to the marks. -/
structure Same (p q : PreState) : Prop where
  relations : ∀ id, p.relations.lookup id = q.relations.lookup id
  functions : ∀ id, p.functions.lookup id = q.functions.lookup id
  roles : ∀ id, p.roles.lookup id = q.roles.lookup id
  publications : ∀ name, p.publications.lookup name = q.publications.lookup name
  subscriptions : ∀ name, p.subscriptions.lookup name = q.subscriptions.lookup name
  sequences : ∀ id, p.sequences.lookup id = q.sequences.lookup id
  extensions : ∀ name, p.extensions.lookup name = q.extensions.lookup name
  types : ∀ id, p.types.lookup id = q.types.lookup id
  indexes : p.indexes = q.indexes
  baselineForeignKeys : p.baselineForeignKeys = q.baselineForeignKeys

/-- Equality of captures in the source, which passes over the marks. -/
structure Equal (p q : PreState) : Prop where
  relations : ∀ id,
    (p.relations.lookup id).map MarkedEntry.value = (q.relations.lookup id).map MarkedEntry.value
  functions : ∀ id,
    (p.functions.lookup id).map MarkedEntry.value = (q.functions.lookup id).map MarkedEntry.value
  roles : ∀ id,
    (p.roles.lookup id).map MarkedEntry.value = (q.roles.lookup id).map MarkedEntry.value
  publications : ∀ name, (p.publications.lookup name).map MarkedEntry.value =
    (q.publications.lookup name).map MarkedEntry.value
  subscriptions : ∀ name, (p.subscriptions.lookup name).map MarkedEntry.value =
    (q.subscriptions.lookup name).map MarkedEntry.value
  sequences : ∀ id,
    (p.sequences.lookup id).map MarkedEntry.value = (q.sequences.lookup id).map MarkedEntry.value
  extensions : ∀ name, (p.extensions.lookup name).map MarkedEntry.value =
    (q.extensions.lookup name).map MarkedEntry.value
  types : ∀ id,
    (p.types.lookup id).map MarkedEntry.value = (q.types.lookup id).map MarkedEntry.value
  indexes : p.indexes.map Marked.value = q.indexes.map Marked.value
  baselineForeignKeys : p.baselineForeignKeys = q.baselineForeignKeys

/-- The present objects of a state with their values, and its indexes in the order of the
graph, with the marks of the state. -/
structure Captures (p : PreState) (s : AnalysisState) (marks : InferredMarks) : Prop where
  relations : ∀ id, p.relations.lookup id = presentEntry marks.relations s.relations id
  functions : ∀ id, p.functions.lookup id = presentEntry marks.functions s.functions id
  roles : ∀ id, p.roles.lookup id = presentEntry marks.roles s.roles id
  publications : ∀ name,
    p.publications.lookup name = presentEntry marks.publications s.publications name
  subscriptions : ∀ name,
    p.subscriptions.lookup name = presentEntry marks.subscriptions s.subscriptions name
  sequences : ∀ id, p.sequences.lookup id = presentEntry marks.sequences s.sequences id
  extensions : ∀ name, p.extensions.lookup name = presentEntry marks.extensions s.extensions name
  types : ∀ id, p.types.lookup id = presentEntry marks.types s.types id
  indexes : p.indexes = s.indexEdges marks
  baselineForeignKeys : p.baselineForeignKeys = s.markedForeignKeys marks

/-- What a capture has left over is marked as the state marks it now, wherever that is not
seen to differ. -/
structure LeftCurrent (p : PreState) (s : AnalysisState) (marks : InferredMarks) : Prop where
  relations : MarksCurrent marks.relations p.relations s.relations
  functions : MarksCurrent marks.functions p.functions s.functions
  roles : MarksCurrent marks.roles p.roles s.roles
  publications : MarksCurrent marks.publications p.publications s.publications
  subscriptions : MarksCurrent marks.subscriptions p.subscriptions s.subscriptions
  sequences : MarksCurrent marks.sequences p.sequences s.sequences
  extensions : MarksCurrent marks.extensions p.extensions s.extensions
  types : MarksCurrent marks.types p.types s.types
  indexes : ∀ pair ∈ p.indexes.zip (s.indexEdges marks),
    pair.1.value = pair.2.value → pair.1.marks = pair.2.marks

/-- Two captures of one state are the same. -/
theorem Captures.same {p q : PreState} {s : AnalysisState} {marks : InferredMarks}
    (hp : p.Captures s marks) (hq : q.Captures s marks) : p.Same q where
  relations id := (hp.relations id).trans (hq.relations id).symm
  functions id := (hp.functions id).trans (hq.functions id).symm
  roles id := (hp.roles id).trans (hq.roles id).symm
  publications name := (hp.publications name).trans (hq.publications name).symm
  subscriptions name := (hp.subscriptions name).trans (hq.subscriptions name).symm
  sequences id := (hp.sequences id).trans (hq.sequences id).symm
  extensions name := (hp.extensions name).trans (hq.extensions name).symm
  types id := (hp.types id).trans (hq.types id).symm
  indexes := hp.indexes.trans hq.indexes.symm
  baselineForeignKeys := hp.baselineForeignKeys.trans hq.baselineForeignKeys.symm

end PreState

namespace AnalysisState

variable {s : AnalysisState} {marks : InferredMarks} {p : PreState}

theorem syncIndexes_eq_iff :
    MapSync.syncList p.indexes (s.indexEdges marks) = s.indexEdges marks ↔
      ∀ pair ∈ p.indexes.zip (s.indexEdges marks),
        pair.1.value = pair.2.value → pair.1.marks = pair.2.marks := by
  rw [MapSync.syncList_eq_iff]
  refine forall₂_congr fun pair _ => ?_
  rw [Marked.beq_iff, Marked.ext_iff]
  tauto

theorem captures_iff_leftCurrent :
    (s.capturePreStateInto marks p).Captures s marks ↔ p.LeftCurrent s marks := by
  constructor
  · intro h
    exact ⟨syncPresentMap_current_iff.mp h.relations, syncPresentMap_current_iff.mp h.functions,
      syncPresentMap_current_iff.mp h.roles, syncPresentMap_current_iff.mp h.publications,
      syncPresentMap_current_iff.mp h.subscriptions, syncPresentMap_current_iff.mp h.sequences,
      syncPresentMap_current_iff.mp h.extensions, syncPresentMap_current_iff.mp h.types,
      syncIndexes_eq_iff.mp h.indexes⟩
  · intro h
    exact ⟨syncPresentMap_current_iff.mpr h.relations, syncPresentMap_current_iff.mpr h.functions,
      syncPresentMap_current_iff.mpr h.roles, syncPresentMap_current_iff.mpr h.publications,
      syncPresentMap_current_iff.mpr h.subscriptions, syncPresentMap_current_iff.mpr h.sequences,
      syncPresentMap_current_iff.mpr h.extensions, syncPresentMap_current_iff.mpr h.types,
      syncIndexes_eq_iff.mpr h.indexes, rfl⟩

theorem captures_capturePreState (s : AnalysisState) (marks : InferredMarks) :
    (s.capturePreState marks).Captures s marks :=
  captures_iff_leftCurrent.mpr ⟨marksCurrent_empty, marksCurrent_empty, marksCurrent_empty,
    marksCurrent_empty, marksCurrent_empty, marksCurrent_empty, marksCurrent_empty,
    marksCurrent_empty, fun pair hpair => by simp at hpair⟩

/-- Whatever an earlier statement left in the capture, bringing it up to date gives what the
source takes for the capture from scratch. -/
theorem capturePreStateInto_equal (s : AnalysisState) (marks : InferredMarks) (p : PreState) :
    (s.capturePreStateInto marks p).Equal (s.capturePreState marks) where
  relations _ := (syncPresentMap_value _).trans (syncPresentMap_value _).symm
  functions _ := (syncPresentMap_value _).trans (syncPresentMap_value _).symm
  roles _ := (syncPresentMap_value _).trans (syncPresentMap_value _).symm
  publications _ := (syncPresentMap_value _).trans (syncPresentMap_value _).symm
  subscriptions _ := (syncPresentMap_value _).trans (syncPresentMap_value _).symm
  sequences _ := (syncPresentMap_value _).trans (syncPresentMap_value _).symm
  extensions _ := (syncPresentMap_value _).trans (syncPresentMap_value _).symm
  types _ := (syncPresentMap_value _).trans (syncPresentMap_value _).symm
  indexes := (MapSync.map_syncList (fun _ _ => Marked.beq_iff.mp) _ _).trans
    (MapSync.map_syncList (fun _ _ => Marked.beq_iff.mp) _ _).symm
  baselineForeignKeys := rfl

/-- It is the capture from scratch, and holds what the state does, exactly if no mark that is
left over is out of date behind an equal key, value or edge. -/
theorem capturePreStateInto_same_fresh_iff (s : AnalysisState) (marks : InferredMarks)
    (p : PreState) :
    (s.capturePreStateInto marks p).Same (s.capturePreState marks) ∧
        (s.capturePreStateInto marks p).Captures s marks ↔ p.LeftCurrent s marks := by
  rw [captures_iff_leftCurrent]
  exact ⟨fun h => h.2, fun h =>
    ⟨(captures_iff_leftCurrent.mpr h).same (captures_capturePreState s marks), h⟩⟩

section Renamed

/-- An index of `public.users`. -/
def usersIndex : DependencyEdge :=
  ⟨⟨"public", "users_idx"⟩, ⟨"public", "users"⟩,
    .indexOnRelation
      { method := some "btree", keys := [], included := [], expressionKeys := 0, unique := false,
        nullsNotDistinct := some false, predicate := .none, unestablished := false, valid := true,
        ready := true, live := true } [] true false true true⟩

def indexedUsers : AnalysisState := { graph := .ofEdges [usersIndex] }

/-- No identity is marked but the table of an index, where `inferred` says so. -/
def tableMarks (inferred : Bool) : InferredMarks where
  relations _ := ⟨[false], []⟩
  functions _ := ⟨[false], []⟩
  roles _ := ⟨[false], []⟩
  publications _ := ⟨[], []⟩
  subscriptions _ := ⟨[], []⟩
  sequences _ := ⟨[false], []⟩
  extensions _ := ⟨[], []⟩
  types _ := ⟨[false], []⟩
  edges _ := [false, inferred]
  baselineForeignKeys _ := [false]

theorem indexedUsers_edges (inferred : Bool) :
    indexedUsers.indexEdges (tableMarks inferred) = [⟨usersIndex, [false, inferred]⟩] := rfl

/-- Renamed away and back without a schema, the table of the index has the mark, and a capture
from then keeps it when the rollback has restored the edge. -/
theorem indexedUsers_stale : ¬∀ (s : AnalysisState) (marks : InferredMarks) (p : PreState),
    (s.capturePreStateInto marks p).Same (s.capturePreState marks) ∧
      (s.capturePreStateInto marks p).Captures s marks := by
  intro h
  have hleft := captures_iff_leftCurrent.mp (h indexedUsers (tableMarks false)
    (indexedUsers.capturePreState (tableMarks true))).2
  have hpair : (⟨usersIndex, [false, true]⟩, ⟨usersIndex, [false, false]⟩) ∈
      (indexedUsers.capturePreState (tableMarks true)).indexes.zip
        (indexedUsers.indexEdges (tableMarks false)) := by
    rw [(captures_capturePreState indexedUsers (tableMarks true)).indexes, indexedUsers_edges,
      indexedUsers_edges]
    exact List.mem_cons_self
  have hmarks := hleft.indexes _ hpair rfl
  exact absurd hmarks (by decide)

end Renamed

end AnalysisState

end SafeMigrate
