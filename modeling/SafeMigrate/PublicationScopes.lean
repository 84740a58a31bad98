import SafeMigrate.Bookkeeping
import SafeMigrate.KeyedList
import SafeMigrate.LastingEdges
import SafeMigrate.Publication

/-! The objects that a publication statement gives, and what the stored scope
and the membership edges are once it is applied. -/

namespace SafeMigrate

open Command AnalysisState KeyedList

namespace AnalysisState

/-- The parser's reading of a schema after the first of `TABLES IN SCHEMA`: a
bare table after a schema entry, by the name of a schema that exists. -/
def namesSchema (s : AnalysisState) (given : List PublicationObjectFact) :
    PublicationObjectFact → Bool
  | .table name .. => name.schema.isNone && (given.any PublicationObjectFact.isSchemaTables &&
      s.schemaIsPresent (s.resolveRelationLookupName name).id.name)
  | _ => false

def givenObject (s : AnalysisState) (given : List PublicationObjectFact)
    (object : PublicationObjectFact) : List PublicationObjectFact :=
  match object with
  | .table name .. =>
    if s.namesSchema given object then
      given ++ [.schemaTables (s.resolveRelationLookupName name).id.name none]
    else given ++ [s.resolvePublicationObject object]
  | _ => given ++ [s.resolvePublicationObject object]

/-- The objects that a written list gives. -/
def givenObjects (s : AnalysisState) (written : List PublicationObjectFact) :
    List PublicationObjectFact :=
  written.foldl s.givenObject []

def givenScope (s : AnalysisState) : PublicationScope → PublicationScope
  | .explicit written => .explicit (s.givenObjects written)
  | .allTables except => .allTables except

/-- Whether an object is read back as a schema behind the objects before it. -/
def readAsSchema (s : AnalysisState) (before : List PublicationObjectFact) :
    PublicationObjectFact → Bool
  | .table name .. =>
    before.any PublicationObjectFact.isSchemaTables && s.schemaIsPresent name.name.text
  | _ => false

/-- No object of the list is read back as a schema. -/
def KeepsTables (s : AnalysisState) (objects : List PublicationObjectFact) : Prop :=
  ∀ before object after, objects = before ++ object :: after → s.readAsSchema before object = false

/-- Behind the stored objects, no written one is read back as a schema but
those that name one. -/
def KeepsWritten (s : AnalysisState) (stored written : List PublicationObjectFact) : Prop :=
  ∀ before object after, written = before ++ object :: after →
    s.readAsSchema (stored ++ s.givenObjects before) (s.resolvePublicationObject object) = true →
      s.namesSchema (s.givenObjects before) object = true

end AnalysisState

section Normalize

variable {s : AnalysisState}

theorem normalizePublicationObject_of_not_read {before : List PublicationObjectFact}
    {object : PublicationObjectFact} (h : s.readAsSchema before object = false) :
    s.normalizePublicationObject before object = before ++ [object] := by
  cases object with
  | table name only includePartitions columns rowFilter =>
    exact if_neg (by simpa [readAsSchema] using h)
  | schemaTables | currentSchemaShorthand | unknown => rfl

theorem normalize_keepsTables {objects : List PublicationObjectFact} (h : s.KeepsTables objects) :
    objects.foldl s.normalizePublicationObject [] = objects := by
  suffices hgo : ∀ after before, objects = before ++ after →
      after.foldl s.normalizePublicationObject before = objects from hgo objects [] rfl
  intro after
  induction after with
  | nil =>
    rintro before rfl
    exact (List.append_nil before).symm
  | cons object after ih =>
    intro before hsplit
    rw [List.foldl_cons, normalizePublicationObject_of_not_read (h before object after hsplit)]
    exact ih _ (by rw [hsplit, List.append_assoc]; rfl)

/-- An object is read as the statement gives it, where it is read as a schema
only if it names one. -/
theorem normalize_given {stored given : List PublicationObjectFact}
    {object : PublicationObjectFact}
    (h : s.readAsSchema (stored ++ given) (s.resolvePublicationObject object) = true →
      s.namesSchema given object = true) :
    s.normalizePublicationObject (stored ++ given) (s.resolvePublicationObject object) =
      stored ++ s.givenObject given object := by
  cases object with
  | table name only includePartitions columns rowFilter =>
    cases hnames : s.namesSchema given (.table name only includePartitions columns rowFilter) with
    | false =>
      have hread := fun hread => Bool.eq_false_iff.mp hnames (h hread)
      rw [normalizePublicationObject_of_not_read (Bool.not_eq_true _ ▸ hread), givenObject,
        if_neg (Bool.eq_false_iff.mp hnames), List.append_assoc]
    | true =>
      rw [givenObject, if_pos hnames]
      unfold namesSchema at hnames
      simp only [Bool.and_eq_true] at hnames
      have hany : (stored ++ given).any PublicationObjectFact.isSchemaTables = true := by
        rw [List.any_append, hnames.2.1, Bool.or_true]
      rw [← List.append_assoc]
      exact if_pos (by rw [hany]; exact hnames.2.2)
  | schemaTables | currentSchemaShorthand | unknown => exact List.append_assoc _ _ _

theorem normalize_keepsWritten {stored written : List PublicationObjectFact}
    (hstored : s.KeepsTables stored) (hwritten : s.KeepsWritten stored written) :
    (stored ++ written.map s.resolvePublicationObject).foldl s.normalizePublicationObject [] =
      stored ++ s.givenObjects written := by
  rw [List.foldl_append, normalize_keepsTables hstored]
  suffices hgo : ∀ after before, written = before ++ after →
      (after.map s.resolvePublicationObject).foldl s.normalizePublicationObject
        (stored ++ s.givenObjects before) = stored ++ s.givenObjects written by
    have h := hgo written [] rfl
    rwa [show s.givenObjects [] = [] from rfl, List.append_nil] at h
  intro after
  induction after with
  | nil =>
    rintro before rfl
    rw [List.append_nil]
    rfl
  | cons object after ih =>
    intro before hsplit
    rw [List.map_cons, List.foldl_cons, normalize_given (hwritten before object after hsplit)]
    have hnext : s.givenObject (s.givenObjects before) object =
        s.givenObjects (before ++ [object]) := by
      rw [givenObjects, givenObjects, List.foldl_append]
      rfl
    rw [hnext]
    exact ih _ (by rw [hsplit, List.append_assoc]; rfl)

end Normalize

namespace AnalysisState

/-- The scope of a present publication. -/
def publicationScope (s : AnalysisState) (name : String) : Option PublicationScope :=
  (s.presentPublication name).map (·.scope)

def membershipsOf (s : AnalysisState) (name : String) : List DependencyEdge :=
  s.graph.edgesOf (DependencyKind.isMembershipOf name)

/-- Publications and their membership edges aside, nothing has changed. -/
structure SameNamedObjects (s t : AnalysisState) : Prop where
  others : t.contents = ((s.setPublications t.publications).setGraph t.graph).contents
  edges : ∀ e, e.kind.isPublicationIncludes = false → (e ∈ t.graph.edges ↔ e ∈ s.graph.edges)

theorem publicationScope_eq_some {s : AnalysisState} {name : String} {scope : PublicationScope} :
    s.publicationScope name = some scope ↔
      ∃ publication, s.publications.lookup name = some (.present publication) ∧
        publication.scope = scope := by
  unfold publicationScope presentPublication
  split
  · rename_i publication hlookup
    simp [hlookup]
  · rename_i hnone
    constructor
    · rintro ⟨⟩
    · rintro ⟨publication, hlookup, -⟩
      exact absurd hlookup (hnone publication)

theorem publicationScope_congr {s t : AnalysisState} {name : String}
    (h : t.publications.lookup name = s.publications.lookup name) :
    t.publicationScope name = s.publicationScope name := by
  unfold publicationScope presentPublication
  rw [h]

section Resolution

variable {s t : AnalysisState}

theorem SameNamedObjects.reads {α : Type} (h : SameNamedObjects s t) (f : AnalysisState → α)
    (hf : ∀ s p g, f (((s.setPublications p).setGraph g).contents) = f s) : f t = f s := by
  have ht : f t.contents = f t := hf t t.publications t.graph
  rw [← ht, h.others, hf]

theorem SameNamedObjects.isPresent (h : SameNamedObjects s t) (id : ObjectId) :
    t.relationNamespaceObjectIsPresent id = s.relationNamespaceObjectIsPresent id := by
  have hrelations : t.relations = s.relations := h.reads (·.relations) fun _ _ _ => rfl
  have hsequences : t.sequences = s.sequences := h.reads (·.sequences) fun _ _ _ => rfl
  have hindex : t.indexIsPresent id = s.indexIsPresent id := by
    unfold indexIsPresent
    rw [Bool.eq_iff_iff, List.any_eq_true, List.any_eq_true]
    refine exists_congr fun e => and_congr_left fun he => h.edges e ?_
    obtain ⟨hkind, -⟩ := Bool.and_eq_true_iff.mp he
    cases hof : e.kind <;> rw [hof] at hkind <;> first | rfl | cases hkind
  rw [relationNamespaceObjectIsPresent, relationNamespaceObjectIsPresent, hindex, relationIsPresent,
    relationIsPresent, sequenceIsPresent, sequenceIsPresent, hrelations, hsequences]

theorem SameNamedObjects.resolveRelationId (h : SameNamedObjects s t) (name : QualifiedName) :
    t.resolveRelationId name = s.resolveRelationId name := by
  have hpath : t.searchPath = s.searchPath := h.reads (·.searchPath) fun _ _ _ => rfl
  have hpresent := h.isPresent
  simp only [AnalysisState.resolveRelationId, hpath, hpresent]

theorem SameNamedObjects.key (h : SameNamedObjects s t) :
    t.publicationObjectKey = s.publicationObjectKey := by
  have hpath : t.searchPath = s.searchPath := h.reads (·.searchPath) fun _ _ _ => rfl
  funext object
  cases object with
  | table name only includePartitions columns rowFilter =>
    rw [publicationObjectKey, publicationObjectKey, h.resolveRelationId]
  | schemaTables | unknown => rfl
  | currentSchemaShorthand => rw [publicationObjectKey, publicationObjectKey, hpath]

theorem SameNamedObjects.membershipEdge (h : SameNamedObjects s t) (name : String) :
    t.membershipEdge name = s.membershipEdge name := by
  funext object
  cases object with
  | table tableName only includePartitions columns rowFilter =>
    rw [AnalysisState.membershipEdge, AnalysisState.membershipEdge, h.resolveRelationId]
  | schemaTables | currentSchemaShorthand | unknown => rfl

theorem SameNamedObjects.resolveObject (h : SameNamedObjects s t) :
    t.resolvePublicationObject = s.resolvePublicationObject := by
  have hpath : t.searchPath = s.searchPath := h.reads (·.searchPath) fun _ _ _ => rfl
  have hsearch : t.relationSearchPath = s.relationSearchPath := by
    have hrelations : t.relations = s.relations := h.reads (·.relations) fun _ _ _ => rfl
    have htypes : t.types = s.types := h.reads (·.types) fun _ _ _ => rfl
    have hsaw : t.sawTempObject = s.sawTempObject := h.reads (·.sawTempObject) fun _ _ _ => rfl
    rw [relationSearchPath, relationSearchPath, tempNamespaceExists, tempNamespaceExists, hpath,
      hrelations, htypes, hsaw]
  have hpresent := h.isPresent
  funext object
  cases object with
  | table tableName only includePartitions columns rowFilter =>
    simp only [resolvePublicationObject, resolveRelationLookupName, hsearch, hpresent]
  | currentSchemaShorthand => rw [resolvePublicationObject, resolvePublicationObject, hpath]
  | schemaTables | unknown => rfl

theorem SameNamedObjects.normalize (h : SameNamedObjects s t) :
    t.normalizePublicationScope = s.normalizePublicationScope :=
  h.reads (·.normalizePublicationScope) fun _ _ _ => rfl

theorem SameNamedObjects.trans {u : AnalysisState} (h : SameNamedObjects s t)
    (h' : SameNamedObjects t u) : SameNamedObjects s u where
  others := by
    have hset := congrArg (fun v : AnalysisState =>
      ((v.setPublications u.publications).setGraph u.graph).contents) h.others
    exact h'.others.trans hset
  edges e he := (h'.edges e he).trans (h.edges e he)

theorem SameNamedObjects.of_contents (h : SameContents s t) : SameNamedObjects s t := by
  have hpublications : t.publications = s.publications := h.publications
  have hgraph : t.graph = s.graph := h.graph
  refine ⟨?_, fun e _ => by rw [hgraph]⟩
  rw [hpublications, hgraph]
  exact h

theorem SameNamedObjects.setPublications (s : AnalysisState)
    (publications : AList fun _ : String => Overlay PublicationState) :
    SameNamedObjects s (s.setPublications publications) := ⟨rfl, fun _ _ => Iff.rfl⟩

theorem SameNamedObjects.setGraph {g : DependencyGraph}
    (h : ∀ e, e.kind.isPublicationIncludes = false → (e ∈ g.edges ↔ e ∈ s.graph.edges)) :
    SameNamedObjects s (s.setGraph g) := ⟨rfl, h⟩

end Resolution

section Writes

variable {s t : AnalysisState} {name : String}

theorem isMembershipOf_iff {kind : DependencyKind} :
    kind.isMembershipOf name = true ↔ kind = .publicationIncludes name := by
  simp [DependencyKind.isMembershipOf]

theorem isMembershipOf_eq_false {kind : DependencyKind} (h : kind.isPublicationIncludes = false) :
    kind.isMembershipOf name = false := by
  refine Bool.eq_false_iff.mpr fun hof => ?_
  rw [isMembershipOf_iff.mp hof] at h
  cases h

theorem membershipEdge_kind {e : DependencyEdge} {object : PublicationObjectFact}
    (h : s.membershipEdge name object = some e) :
    e.kind = .publicationIncludes name ∧ e.referenced = publicationNode name := by
  cases object with
  | table tableName only includePartitions columns rowFilter =>
    cases h
    exact ⟨rfl, rfl⟩
  | schemaTables | currentSchemaShorthand | unknown => cases h

theorem mem_membershipEdges_kind {e : DependencyEdge} {scope : PublicationScope}
    (h : e ∈ s.membershipEdges name scope) :
    e.kind = .publicationIncludes name ∧ e.referenced = publicationNode name := by
  cases scope with
  | allTables except => cases h
  | explicit objects =>
    obtain ⟨object, -, hedge⟩ := List.mem_filterMap.mp h
    exact membershipEdge_kind hedge

theorem presentPublication_modify {f : PublicationState → PublicationState} (k : String) :
    (s.modifyPublication name f).presentPublication k =
      if k = name then (s.presentPublication name).map f else s.presentPublication k := by
  by_cases hk : k = name
  · subst hk
    rw [if_pos rfl]
    unfold modifyPublication
    split
    · rename_i publication hpresent
      rw [hpresent]
      simp [presentPublication, setPublications]
    · rename_i hnone
      rw [hnone]
      rfl
  · rw [if_neg hk]
    unfold modifyPublication
    split
    · simp [presentPublication, setPublications, AList.lookup_insert_ne hk]
    · rfl

theorem namedObjects_modify (s : AnalysisState) (f : PublicationState → PublicationState) :
    s.SameNamedObjects (s.modifyPublication name f) := by
  unfold modifyPublication
  split <;> exact ⟨rfl, fun _ _ => Iff.rfl⟩

theorem modifyPublication_graph (s : AnalysisState) (f : PublicationState → PublicationState) :
    (s.modifyPublication name f).graph = s.graph := by
  unfold modifyPublication
  split <;> rfl

/-- What a write does to the scopes and to the membership edges. -/
structure Republishes (s t : AnalysisState) (scopes : String → Option PublicationScope)
    (edges : DependencyEdge → Prop) : Prop where
  objects : s.SameNamedObjects t
  scopes : t.publicationScope = scopes
  edges : ∀ e, e.kind.isPublicationIncludes = true → (e ∈ t.graph.edges ↔ edges e)

theorem isPublicationIncludes_of_mem {e : DependencyEdge} {scope : PublicationScope}
    (h : e ∈ s.membershipEdges name scope) : e.kind.isPublicationIncludes = true := by
  rw [(mem_membershipEdges_kind h).1]
  rfl

theorem SameNamedObjects.membershipEdges (h : SameNamedObjects s t) (name : String) :
    t.membershipEdges name = s.membershipEdges name := by
  funext scope
  cases scope with
  | explicit objects =>
    rw [AnalysisState.membershipEdges, AnalysisState.membershipEdges, h.membershipEdge]
  | allTables except => rfl

theorem namedObjects_addMemberships (s : AnalysisState) (name : String) (scope : PublicationScope) :
    s.SameNamedObjects
      (s.setGraph ((s.membershipEdges name scope).foldl DependencyGraph.addEdge s.graph)) := by
  refine .setGraph fun e he => ?_
  rw [DependencyGraph.mem_addEdges]
  refine or_iff_left fun hadded => ?_
  rw [isPublicationIncludes_of_mem hadded] at he
  cases he

theorem publicationScope_insert (publication : PublicationState) (k : String) :
    (s.setPublications (s.publications.insert name (.present publication))).publicationScope k =
      if k = name then some publication.scope else s.publicationScope k := by
  unfold publicationScope presentPublication
  by_cases hk : k = name
  · subst hk
    simp [setPublications]
  · rw [if_neg hk]
    simp [setPublications, AList.lookup_insert_ne hk]

theorem Republishes.refl (s : AnalysisState) :
    Republishes s s s.publicationScope fun e => e ∈ s.graph.edges :=
  ⟨.of_contents (.refl s), rfl, fun _ _ => Iff.rfl⟩

theorem Republishes.scopes_congr {scopes scopes' : String → Option PublicationScope}
    {edges : DependencyEdge → Prop} (h : Republishes s t scopes edges) (hs : scopes = scopes') :
    Republishes s t scopes' edges := hs ▸ h

theorem Republishes.contents {scopes : String → Option PublicationScope}
    {edges : DependencyEdge → Prop} {u : AnalysisState} (h : Republishes s t scopes edges)
    (hu : SameContents t u) : Republishes s u scopes edges := by
  refine ⟨h.objects.trans (.of_contents hu), ?_, fun e he => ?_⟩
  · rw [← h.scopes]
    funext k
    exact publicationScope_congr (congrArg _ hu.publications)
  · rw [hu.graph]
    exact h.edges e he

theorem Republishes.insert {scopes : String → Option PublicationScope}
    {edges : DependencyEdge → Prop} (h : Republishes s t scopes edges) (name : String)
    (publication : PublicationState) :
    Republishes s (t.setPublications (t.publications.insert name (.present publication)))
      (fun k => if k = name then some publication.scope else scopes k) edges := by
  refine ⟨h.objects.trans (.setPublications t _), ?_, h.edges⟩
  funext k
  rw [publicationScope_insert, h.scopes]

theorem publicationScope_tombstone (s : AnalysisState) (name k : String) :
    (s.setPublications (s.publications.insert name .dropped)).publicationScope k =
      if k = name then none else s.publicationScope k := by
  unfold publicationScope presentPublication
  by_cases hk : k = name
  · subst hk
    simp [setPublications]
  · rw [if_neg hk]
    simp [setPublications, AList.lookup_insert_ne hk]

theorem Republishes.tombstone {scopes : String → Option PublicationScope}
    {edges : DependencyEdge → Prop} (h : Republishes s t scopes edges) (name : String) :
    Republishes s (t.tombstonePublication name)
      (fun k => if k = name then none else scopes k) edges := by
  have hsnapshot : Republishes s (t.snapshotPublication name) scopes edges :=
    h.contents (.pushUndo t _)
  refine ⟨hsnapshot.objects.trans (.setPublications _ _), ?_, hsnapshot.edges⟩
  funext k
  rw [tombstonePublication, publicationScope_tombstone, hsnapshot.scopes]

theorem Republishes.addMemberships {scopes : String → Option PublicationScope}
    {edges : DependencyEdge → Prop} (h : Republishes s t scopes edges) (name : String)
    (scope : PublicationScope) :
    Republishes s (t.setGraph ((t.membershipEdges name scope).foldl DependencyGraph.addEdge t.graph))
      scopes fun e => edges e ∨ e ∈ s.membershipEdges name scope := by
  refine ⟨h.objects.trans (namedObjects_addMemberships t name scope), h.scopes, fun e he => ?_⟩
  show e ∈ (List.foldl DependencyGraph.addEdge _ _).edges ↔ _
  rw [DependencyGraph.mem_addEdges, h.objects.membershipEdges, h.edges e he]

theorem Republishes.create {scopes : String → Option PublicationScope}
    {edges : DependencyEdge → Prop} (h : Republishes s t scopes edges) (create : CreatePublication)
    (scope : PublicationScope) :
    Republishes s (t.createPublication create scope)
      (fun k => if k = create.name then some scope else scopes k)
      fun e => edges e ∨ e ∈ s.membershipEdges create.name scope := by
  have hkept : SameContents t (t.snapshotPublication create.name).bumpGeneration :=
    (SameContents.pushUndo t _).trans (SameContents.bumpGeneration _)
  have hinsert := fun publication => (h.contents hkept).insert create.name publication
  cases scope with
  | explicit objects =>
    exact ((hinsert _).contents (.pushUndo _ _)).addMemberships create.name (.explicit objects)
  | allTables except =>
    refine ⟨(hinsert _).objects, (hinsert _).scopes, fun e he => ?_⟩
    exact ((hinsert _).edges e he).trans (or_iff_left (List.not_mem_nil)).symm

theorem Republishes.modify {scopes : String → Option PublicationScope}
    {edges : DependencyEdge → Prop} (h : Republishes s t scopes edges) (name : String)
    {f : PublicationState → PublicationState} {g : PublicationScope → PublicationScope}
    (hf : ∀ publication, (f publication).scope = g publication.scope) :
    Republishes s (t.modifyPublication name f)
      (fun k => if k = name then (scopes name).map g else scopes k) edges := by
  refine ⟨h.objects.trans (namedObjects_modify t f), ?_, by rw [modifyPublication_graph]; exact h.edges⟩
  funext k
  rw [← h.scopes, publicationScope, publicationScope, presentPublication_modify]
  split
  · simp [hf, Function.comp_def]
  · rfl

/-- An action that does not replace the scope. -/
theorem Republishes.modify_kept {scopes : String → Option PublicationScope}
    {edges : DependencyEdge → Prop} (h : Republishes s t scopes edges) (name : String)
    {f : PublicationState → PublicationState}
    (hf : ∀ publication, (f publication).scope = publication.scope) :
    Republishes s (t.modifyPublication name f) scopes edges := by
  have hmodify := h.modify (g := id) name hf
  have hscopes : (fun k => if k = name then (scopes name).map id else scopes k) = scopes := by
    funext k
    by_cases hk : k = name
    · rw [if_pos hk, Option.map_id, hk]
      rfl
    · rw [if_neg hk]
  rwa [hscopes] at hmodify

/-- The graph is recorded for a rollback before it is replaced. -/
theorem Republishes.setGraph {scopes : String → Option PublicationScope}
    {edges edges' : DependencyEdge → Prop} (h : Republishes s t scopes edges) {g : DependencyGraph}
    (hother : ∀ e, e.kind.isPublicationIncludes = false → (e ∈ g.edges ↔ e ∈ t.graph.edges))
    (hedges : ∀ e, e.kind.isPublicationIncludes = true → (e ∈ g.edges ↔ edges' e)) :
    Republishes s (t.snapshotGraphFull.setGraph g) scopes edges' := by
  have hsnapshot : Republishes s t.snapshotGraphFull scopes edges := h.contents (.pushUndo t _)
  have hgraph : t.snapshotGraphFull.graph = t.graph := (SameContents.pushUndo t _).graph
  exact ⟨hsnapshot.objects.trans (.setGraph (hgraph ▸ hother)), hsnapshot.scopes, hedges⟩

theorem Republishes.retain {scopes : String → Option PublicationScope}
    {edges : DependencyEdge → Prop} (h : Republishes s t scopes edges)
    (keep : DependencyEdge → Bool)
    (hkeep : ∀ e, e.kind.isPublicationIncludes = false → keep e = true) :
    Republishes s (t.retainGraphEdges keep) scopes fun e => edges e ∧ keep e = true := by
  have hgraph : t.snapshotGraphFull.graph = t.graph := (SameContents.pushUndo t _).graph
  have hmem : ∀ e, e ∈ (t.snapshotGraphFull.graph.retainEdges keep).edges ↔
      e ∈ t.graph.edges ∧ keep e = true := fun e => by rw [DependencyGraph.mem_retainEdges, hgraph]
  exact h.setGraph (fun e he => (hmem e).trans (and_iff_left (hkeep e he))) fun e he =>
    (hmem e).trans (and_congr_left fun _ => h.edges e he)

theorem Republishes.store {scopes : String → Option PublicationScope}
    {edges : DependencyEdge → Prop} (h : Republishes s t scopes edges) (scope : PublicationScope)
    (hname : (scopes name).isSome) :
    Republishes s (t.storePublicationScope name scope)
      (fun k => if k = name then some (s.normalizePublicationScope scope) else scopes k)
      fun e => (edges e ∧ (!e.kind.isMembershipOf name) = true) ∨
        e ∈ s.membershipEdges name (s.normalizePublicationScope scope) := by
  obtain ⟨current, hcurrent⟩ := Option.isSome_iff_exists.mp hname
  have hmodify := h.modify name
    (f := fun publication => { publication with scope := s.normalizePublicationScope scope })
    (g := fun _ => s.normalizePublicationScope scope) fun _ => rfl
  simp only [hcurrent, Option.map_some] at hmodify
  unfold storePublicationScope
  rw [h.objects.normalize]
  exact (hmodify.retain (fun e => !e.kind.isMembershipOf name) fun e he => by
    rw [isMembershipOf_eq_false he]; rfl).addMemberships name _

theorem renamePublication_of_other {e : DependencyEdge} {newName : String}
    (h : e.kind.isMembershipOf name = false) : e.renamePublication name newName = e :=
  if_neg (Bool.eq_false_iff.mp h)

theorem isPublicationIncludes_renamePublication (e : DependencyEdge) (newName : String) :
    (e.renamePublication name newName).kind.isPublicationIncludes = e.kind.isPublicationIncludes := by
  unfold DependencyEdge.renamePublication
  split
  · rename_i hof
    rw [isMembershipOf_iff.mp hof]
    rfl
  · rfl

theorem mem_renamePublication_of_other {g : DependencyGraph} {e : DependencyEdge} {newName : String}
    (h : e.kind.isPublicationIncludes = false) :
    e ∈ (g.renamePublication name newName).edges ↔ e ∈ g.edges := by
  rw [DependencyGraph.renamePublication, DependencyGraph.mem_mapEdges]
  constructor
  · rintro ⟨old, hold, rfl⟩
    rw [isPublicationIncludes_renamePublication] at h
    rwa [renamePublication_of_other (isMembershipOf_eq_false h)]
  · exact fun he => ⟨e, he, renamePublication_of_other (isMembershipOf_eq_false h)⟩

theorem publicationScope_rename {publication : PublicationState} {newName : String}
    (h : s.presentPublication name = some publication) (renamed : PublicationState)
    (hscope : renamed.scope = publication.scope) (k : String) :
    (s.setPublications ((s.publications.erase name).insert newName
        (.present renamed))).publicationScope k =
      if k = newName then s.publicationScope name
      else if k = name then none else s.publicationScope k := by
  have hname : s.publicationScope name = some publication.scope := by rw [publicationScope, h]; rfl
  unfold publicationScope presentPublication at hname ⊢
  by_cases hnew : k = newName
  · subst hnew
    rw [if_pos rfl, hname]
    simp [setPublications, hscope]
  · by_cases hk : k = name
    · subst hk
      rw [if_neg hnew, if_pos rfl]
      simp [setPublications, AList.lookup_insert_ne hnew]
    · rw [if_neg hnew, if_neg hk]
      simp [setPublications, AList.lookup_insert_ne hnew, AList.lookup_erase_ne hk]

theorem Republishes.rename {scopes : String → Option PublicationScope}
    {edges : DependencyEdge → Prop} (h : Republishes s t scopes edges) {newName : String}
    (hname : (scopes name).isSome) :
    Republishes s (t.renamePublication name newName)
      (fun k => if k = newName then scopes name else if k = name then none else scopes k)
      fun e => ∃ old, old.kind.isPublicationIncludes = true ∧ edges old ∧
        old.renamePublication name newName = e := by
  have hsnapshot : Republishes s (t.snapshotPublication newName) scopes edges :=
    h.contents (.pushUndo t _)
  obtain ⟨publication, hpresent⟩ :
      ∃ publication, (t.snapshotPublication newName).presentPublication name = some publication := by
    rw [← hsnapshot.scopes, publicationScope, Option.isSome_map] at hname
    exact Option.isSome_iff_exists.mp hname
  unfold renamePublication
  simp only [hpresent]
  generalize t.snapshotPublication newName = u at hsnapshot hpresent
  have hmoved : Republishes s (u.setPublications ((u.publications.erase name).insert newName
      (.present { publication with name := newName })))
      (fun k => if k = newName then scopes name else if k = name then none else scopes k) edges := by
    refine ⟨hsnapshot.objects.trans (.setPublications u _), ?_, hsnapshot.edges⟩
    funext k
    rw [← hsnapshot.scopes]
    exact publicationScope_rename hpresent { publication with name := newName } rfl k
  generalize u.setPublications _ = w at hmoved
  have hgraph : w.snapshotGraphFull.graph = w.graph := (SameContents.pushUndo w _).graph
  rw [hgraph]
  refine hmoved.setGraph (fun e he => mem_renamePublication_of_other he) fun e he => ?_
  rw [DependencyGraph.renamePublication, DependencyGraph.mem_mapEdges]
  constructor
  · rintro ⟨old, hold, rfl⟩
    rw [isPublicationIncludes_renamePublication] at he
    exact ⟨old, he, (hmoved.edges old he).mp hold, rfl⟩
  · rintro ⟨old, hkind, hold, rfl⟩
    exact ⟨old, (hmoved.edges old hkind).mpr hold, rfl⟩

/-- The publications that are dropped have neither scope nor membership edge. -/
theorem Republishes.drop {scopes : String → Option PublicationScope}
    {edges : DependencyEdge → Prop} (h : Republishes s t scopes edges) (names : List String) :
    Republishes s (t.dropPublications names) (fun k => if k ∈ names then none else scopes k)
      fun e => edges e ∧
        (!(e.kind.isPublicationIncludes && decide (e.referenced.name ∈ names))) = true := by
  refine Republishes.retain ?_ _ fun e he => by rw [he]; rfl
  suffices hgo : ∀ (dropped : List String) t scopes, Republishes s t scopes edges →
      Republishes s (dropped.foldl tombstonePublication t)
        (fun k => if k ∈ dropped then none else scopes k) edges from hgo names t scopes h
  intro dropped
  induction dropped with
  | nil =>
    intro t scopes h
    simpa using h
  | cons name dropped ih =>
    intro t scopes h
    refine (ih _ _ (h.tombstone name)).scopes_congr ?_
    funext k
    by_cases hk : k = name
    · simp [hk]
    · simp [hk]

end Writes

end AnalysisState

end SafeMigrate
