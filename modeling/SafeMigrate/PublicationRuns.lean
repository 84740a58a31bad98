import SafeMigrate.PublicationSteps

/-! Runs of publication statements: in which of them the listed objects and the
membership edges stay in step. -/

namespace SafeMigrate

open Command AnalysisState KeyedList

/-- A table that is written with its schema. -/
def PublicationObjectFact.isQualifiedTable : PublicationObjectFact → Bool
  | .table name .. => name.schema.isSome
  | _ => false

/-- A table that is written without a schema, so that the search path decides
which one it is. -/
def PublicationObjectFact.isBareTable : PublicationObjectFact → Bool
  | .table name .. => name.schema.isNone
  | _ => false

namespace AnalysisState

/-- Distinct objects, and one membership edge for each table among them. -/
structure InStep (s : AnalysisState) (name : String) (objects : List PublicationObjectFact) :
    Prop where
  distinct : Distinct s.publicationObjectKey objects
  edges : (s.membershipsOf name).Perm (objects.filterMap (s.membershipEdge name))

def MembershipInStep (s : AnalysisState) : Prop :=
  ∀ name objects, s.publicationScope name = some (.explicit objects) → s.InStep name objects

/-- No stored bare table is one of the tables given. -/
def BareTablesApart (s : AnalysisState) (name : String)
    (stored given : List PublicationObjectFact) : Prop :=
  ∀ object ∈ stored, object.isBareTable = true → ∀ other ∈ given,
    s.membershipEdge name object ≠ s.membershipEdge name other

/-- The objects left once those written are dropped. -/
def objectsWithout (s : AnalysisState) (objects written : List PublicationObjectFact) :
    List PublicationObjectFact :=
  objects.filter fun object => decide (s.publicationObjectKey object ∉
    (written.map s.resolvePublicationObject).map s.publicationObjectKey)

/-- Nothing is read as a schema but what names one, neither in the statement nor
among the stored objects, and no edge of another publication is taken over. -/
def SparesMembership (s : AnalysisState) : PublicationStatement → Prop
  | .create fact => ∀ written, fact.scope = .explicit written → s.KeepsWritten [] written ∧
      ∀ e ∈ s.membershipsOf fact.name,
        e ∈ (s.givenObjects written).filterMap (s.membershipEdge fact.name)
  | .alter ⟨_, .setObjects scope⟩ => ∀ written, scope = .explicit written →
      s.KeepsWritten [] written ∧ Distinct s.publicationObjectKey (s.givenObjects written)
  | .alter ⟨name, .addObjects written⟩ => ∀ stored,
      s.publicationScope name = some (.explicit stored) →
        s.KeepsTables stored ∧ s.KeepsWritten stored written ∧
          Distinct s.publicationObjectKey (stored ++ s.givenObjects written) ∧
            s.BareTablesApart name stored (s.givenObjects written)
  | .alter ⟨name, .dropObjects written⟩ => ∀ stored,
      s.publicationScope name = some (.explicit stored) →
        s.KeepsTables (s.objectsWithout stored written)
  | .alter ⟨name, .rename newName⟩ => ∀ stored,
      s.publicationScope name = some (.explicit stored) → ∀ e ∈ s.membershipsOf newName,
        e ∈ stored.filterMap (s.membershipEdge newName)
  | _ => True

/-- What is stored is what the statement gives. -/
def StoresGiven (s t : AnalysisState) : PublicationStatement → Prop
  | .create fact => t.publicationScope fact.name = some (s.givenScope fact.scope)
  | .alter ⟨name, .setObjects scope⟩ => t.publicationScope name = some (s.givenScope scope)
  | .alter ⟨name, .addObjects written⟩ => ∃ stored,
      s.publicationScope name = some (.explicit stored) ∧
        t.publicationScope name = some (.explicit (stored ++ s.givenObjects written))
  | .alter ⟨name, .dropObjects written⟩ => ∃ stored,
      s.publicationScope name = some (.explicit stored) ∧
        t.publicationScope name = some (.explicit (s.objectsWithout stored written))
  | .alter ⟨name, .rename newName⟩ => t.publicationScope newName = s.publicationScope name
  | _ => True

end AnalysisState

/-- A run of statements that are applied and meet the condition, each in the
state before it. -/
inductive PublicationRun (condition : AnalysisState → PublicationStatement → Prop)
    (s : AnalysisState) : AnalysisState → Prop
  | start : PublicationRun condition s s
  | step {t u : AnalysisState} (statement : PublicationStatement) :
      PublicationRun condition s t → condition t statement →
        t.applyPublicationStatement statement = (.applied, u) → PublicationRun condition s u

section Given

variable {s : AnalysisState}

theorem resolvePublicationObject_not_bare (object : PublicationObjectFact) :
    (s.resolvePublicationObject object).isBareTable = false := by
  cases object <;> rfl

theorem mem_givenObject {given : List PublicationObjectFact} {object other : PublicationObjectFact} :
    other ∈ s.givenObject given object → other ∈ given ∨ other.isBareTable = false := by
  intro h
  cases object with
  | table name only includePartitions columns rowFilter =>
    unfold givenObject at h
    dsimp only at h
    split at h
    all_goals
      rcases List.mem_append.mp h with h | h
      · exact Or.inl h
      · rw [List.mem_singleton.mp h]
        exact Or.inr rfl
  | schemaTables | currentSchemaShorthand | unknown =>
    rcases List.mem_append.mp h with h | h
    · exact Or.inl h
    · rw [List.mem_singleton.mp h]
      exact Or.inr rfl

/-- The resolver has qualified every table. -/
theorem givenObjects_not_bare {written : List PublicationObjectFact} {object : PublicationObjectFact}
    (h : object ∈ s.givenObjects written) : object.isBareTable = false := by
  suffices hgo : ∀ given, object ∈ written.foldl s.givenObject given →
      object ∈ given ∨ object.isBareTable = false from (hgo [] h).resolve_left List.not_mem_nil
  clear h
  induction written with
  | nil => exact fun _ => Or.inl
  | cons other written ih =>
    intro given h
    rcases ih _ h with h | h
    · exact mem_givenObject h
    · exact Or.inr h

theorem givenObject_mono {given : List PublicationObjectFact} (object : PublicationObjectFact)
    {other : PublicationObjectFact} (h : other ∈ given) : other ∈ s.givenObject given object := by
  unfold givenObject
  split
  · split <;> exact List.mem_append_left _ h
  · exact List.mem_append_left _ h

/-- A table written with its schema stays a table. -/
theorem mem_givenObjects_of_qualified {written : List PublicationObjectFact}
    {object : PublicationObjectFact} (h : object ∈ written) (hq : object.isQualifiedTable = true) :
    s.resolvePublicationObject object ∈ s.givenObjects written := by
  have hkept : ∀ (rest : List PublicationObjectFact) given other, other ∈ given →
      other ∈ rest.foldl s.givenObject given := by
    intro rest
    induction rest with
    | nil => exact fun _ _ h => h
    | cons next rest ih => exact fun given other h => ih _ _ (givenObject_mono next h)
  obtain ⟨before, after, rfl⟩ := List.append_of_mem h
  rw [givenObjects, List.foldl_append, List.foldl_cons]
  refine hkept after _ _ ?_
  cases object with
  | table name only includePartitions columns rowFilter =>
    have hnames : s.namesSchema (before.foldl s.givenObject [])
        (.table name only includePartitions columns rowFilter) = false := by
      rw [namesSchema, Option.isNone_eq_false_iff.mpr hq, Bool.false_and]
    rw [givenObject, if_neg (Bool.eq_false_iff.mp hnames)]
    exact List.mem_append_right _ (List.mem_singleton_self _)
  | schemaTables | currentSchemaShorthand | unknown => cases hq

theorem normalize_givenScope {scope : PublicationScope}
    (h : ∀ written, scope = .explicit written → s.KeepsWritten [] written) :
    s.normalizePublicationScope (s.resolvePublicationScope scope) = s.givenScope scope := by
  cases scope with
  | allTables except => rfl
  | explicit written =>
    have hempty : s.KeepsTables [] := by
      intro before object after hsplit
      cases before <;> cases hsplit
    exact congrArg PublicationScope.explicit (normalize_keepsWritten hempty (h written rfl))

end Given

section InStep

variable {s t : AnalysisState} {name : String} {scopes : String → Option PublicationScope}
  {edges : DependencyEdge → Prop}

theorem mem_membershipsOf {e : DependencyEdge} :
    e ∈ s.membershipsOf name ↔ e ∈ s.graph.edges ∧ e.kind = .publicationIncludes name := by
  rw [membershipsOf, DependencyGraph.edgesOf, List.mem_filter, isMembershipOf_iff]

theorem nodup_membershipsOf (s : AnalysisState) (name : String) : (s.membershipsOf name).Nodup :=
  s.graph.nodup.filter _

/-- Tables that lie in a schema have one edge only if they have one key. -/
theorem key_of_membershipEdge {object other : PublicationObjectFact} {e : DependencyEdge}
    (hobject : object.isBareTable = false) (hother : other.isBareTable = false)
    (h : s.membershipEdge name object = some e) (h' : s.membershipEdge name other = some e) :
    s.publicationObjectKey object = s.publicationObjectKey other := by
  cases object with
  | table objectName =>
    cases other with
    | table otherName =>
      have hqualified : ∀ n : QualifiedName, n.schema.isNone = false →
          (s.resolveRelationId n).inferredSchema = false := by
        intro n hn
        unfold AnalysisState.resolveRelationId
        split
        · rfl
        · rename_i hnone
          rw [hnone] at hn
          cases hn
      have hid : (s.resolveRelationId objectName).id = (s.resolveRelationId otherName).id :=
        congrArg DependencyEdge.dependent (Option.some.inj (h.trans h'.symm))
      rw [publicationObjectKey, publicationObjectKey, ObjectRef.display, ObjectRef.display,
        hqualified _ hobject, hqualified _ hother, hid]
    | schemaTables | currentSchemaShorthand | unknown => cases h'
  | schemaTables | currentSchemaShorthand | unknown => cases h

theorem nodup_memberships {objects : List PublicationObjectFact}
    (hdistinct : Distinct s.publicationObjectKey objects)
    (hbare : ∀ object ∈ objects, object.isBareTable = false) :
    (objects.filterMap (s.membershipEdge name)).Nodup :=
  hdistinct.filterMap fun _ ha _ hb _ h h' => key_of_membershipEdge (hbare _ ha) (hbare _ hb) h h'

/-- The edges of the objects added are new edges. -/
theorem nodup_memberships_append {stored given : List PublicationObjectFact}
    (hstored : (stored.filterMap (s.membershipEdge name)).Nodup)
    (hdistinct : Distinct s.publicationObjectKey (stored ++ given))
    (hbare : ∀ object ∈ given, object.isBareTable = false)
    (hapart : s.BareTablesApart name stored given) :
    ((stored ++ given).filterMap (s.membershipEdge name)).Nodup := by
  have hkeys := hdistinct
  rw [Distinct, List.map_append] at hkeys
  obtain ⟨-, hgiven, hdisjoint⟩ := List.nodup_append'.mp hkeys
  rw [List.filterMap_append]
  refine List.nodup_append'.mpr ⟨hstored, nodup_memberships hgiven hbare, fun e he he' => ?_⟩
  obtain ⟨object, hobject, hedge⟩ := List.mem_filterMap.mp he
  obtain ⟨other, hother, hedge'⟩ := List.mem_filterMap.mp he'
  by_cases hof : object.isBareTable = true
  · exact hapart object hobject hof other hother (hedge.trans hedge'.symm)
  · have hkey := key_of_membershipEdge (Bool.not_eq_true _ ▸ hof) (hbare other hother) hedge hedge'
    exact hdisjoint (List.mem_map_of_mem hobject) (hkey ▸ List.mem_map_of_mem hother)

theorem AnalysisState.Republishes.inStep (h : Republishes s t scopes edges)
    {objects : List PublicationObjectFact} (hdistinct : Distinct s.publicationObjectKey objects)
    (hnodup : (objects.filterMap (s.membershipEdge name)).Nodup)
    (hedges : ∀ e, e.kind = .publicationIncludes name →
      (edges e ↔ e ∈ objects.filterMap (s.membershipEdge name))) : t.InStep name objects := by
  constructor
  · rwa [h.objects.key]
  · rw [h.objects.membershipEdge]
    refine (List.perm_ext_iff_of_nodup (nodup_membershipsOf t name) hnodup).mpr fun e => ?_
    rw [mem_membershipsOf]
    constructor
    · rintro ⟨he, hkind⟩
      exact (hedges e hkind).mp ((h.edges e (by rw [hkind]; rfl)).mp he)
    · intro he
      have hkind : e.kind = .publicationIncludes name := by
        obtain ⟨object, -, hedge⟩ := List.mem_filterMap.mp he
        exact (membershipEdge_kind hedge).1
      exact ⟨(h.edges e (by rw [hkind]; rfl)).mpr ((hedges e hkind).mpr he), hkind⟩

/-- A publication whose scope and edges are left alone. -/
theorem AnalysisState.Republishes.inStep_kept (h : Republishes s t scopes edges)
    {objects : List PublicationObjectFact} (hs : s.InStep name objects)
    (hedges : ∀ e, e.kind = .publicationIncludes name → (edges e ↔ e ∈ s.graph.edges)) :
    t.InStep name objects := by
  refine h.inStep hs.distinct ((hs.edges.nodup_iff).mp (nodup_membershipsOf s name)) fun e he => ?_
  rw [hedges e he, ← hs.edges.mem_iff, mem_membershipsOf]
  exact (and_iff_left he).symm

/-- A scope that is replaced along with its edges. -/
theorem AnalysisState.Republishes.inStep_replaced {scope : PublicationScope}
    (h : Republishes s t (fun k => if k = name then some scope else s.publicationScope k)
      fun e => (e ∈ s.graph.edges ∧ (!e.kind.isMembershipOf name) = true) ∨
        e ∈ s.membershipEdges name scope)
    (hs : s.MembershipInStep) (hscope : ∀ objects, scope = .explicit objects →
      Distinct s.publicationObjectKey objects ∧
        (objects.filterMap (s.membershipEdge name)).Nodup) : t.MembershipInStep := by
  intro k objects hk
  rw [h.scopes] at hk
  dsimp only at hk
  by_cases hname : k = name
  · rw [if_pos hname] at hk
    obtain rfl := Option.some.inj hk
    subst hname
    obtain ⟨hdistinct, hnodup⟩ := hscope objects rfl
    refine h.inStep hdistinct hnodup fun e he => ?_
    rw [isMembershipOf_iff.mpr he]
    exact or_iff_right fun hold => Bool.false_ne_true hold.2
  · rw [if_neg hname] at hk
    refine h.inStep_kept (hs k objects hk) fun e he => ?_
    have hother : e.kind.isMembershipOf name = false := by
      refine Bool.eq_false_iff.mpr fun hof => hname ?_
      rw [isMembershipOf_iff, he] at hof
      exact DependencyKind.publicationIncludes.inj hof
    rw [hother]
    refine ⟨?_, fun hold => Or.inl ⟨hold, rfl⟩⟩
    rintro (hold | hnew)
    · exact hold.1
    · rw [isMembershipOf_iff.mpr (mem_membershipEdges_kind hnew).1] at hother
      cases hother

end InStep

section Steps

variable {s t : AnalysisState}

theorem kind_ne_of_other {name k : String} {e : DependencyEdge} (hk : k ≠ name)
    (he : e.kind = .publicationIncludes k) : e.kind ≠ .publicationIncludes name := by
  rw [he]
  exact fun h => hk (DependencyKind.publicationIncludes.inj h)

theorem create_inStep {fact : CreatePublication} (hs : s.MembershipInStep)
    (hspares : s.SparesMembership (.create fact))
    (h : s.applyPublicationStatement (.create fact) = (.applied, t)) :
    t.MembershipInStep ∧ s.StoresGiven t (.create fact) := by
  obtain ⟨-, hdistinct, hwrite⟩ := applyCreatePublication_applied h
  rw [show (s.resolveCreatePublication fact).scope = s.resolvePublicationScope fact.scope from rfl,
    normalize_givenScope fun written hscope => (hspares written hscope).1] at hdistinct hwrite
  refine ⟨fun k objects hk => ?_, ?_⟩
  · rw [hwrite.scopes] at hk
    dsimp only at hk
    by_cases hname : k = fact.name
    · rw [if_pos (show k = (s.resolveCreatePublication fact).name from hname)] at hk
      have hgiven : s.givenScope fact.scope = .explicit objects := Option.some.inj hk
      cases hwritten : fact.scope with
      | allTables except =>
        rw [hwritten] at hgiven
        cases hgiven
      | explicit written =>
        obtain ⟨-, hstale⟩ := hspares written hwritten
        rw [hwritten] at hgiven
        cases hgiven
        have hkeys : Distinct s.publicationObjectKey (s.givenObjects written) :=
          hdistinct _ (by rw [hwritten]; rfl)
        have hnodup : ((s.givenObjects written).filterMap (s.membershipEdge k)).Nodup :=
          nodup_memberships hkeys fun _ => givenObjects_not_bare
        refine hwrite.inStep hkeys hnodup fun e he => ?_
        rw [hwritten, hname]
        refine or_iff_right_of_imp fun hold => hstale e (mem_membershipsOf.mpr ⟨hold, ?_⟩)
        rw [he, hname]
    · rw [if_neg (show k ≠ (s.resolveCreatePublication fact).name from hname)] at hk
      refine hwrite.inStep_kept (hs k objects hk) fun e he => or_iff_left fun hnew => ?_
      exact kind_ne_of_other hname he (mem_membershipEdges_kind hnew).1
  · show t.publicationScope fact.name = _
    rw [hwrite.scopes]
    exact if_pos rfl

theorem setObjects_inStep {name : String} {scope : PublicationScope} (hs : s.MembershipInStep)
    (hspares : s.SparesMembership (.alter ⟨name, .setObjects scope⟩))
    (h : s.applyPublicationStatement (.alter ⟨name, .setObjects scope⟩) = (.applied, t)) :
    t.MembershipInStep ∧ s.StoresGiven t (.alter ⟨name, .setObjects scope⟩) := by
  obtain ⟨-, hwrite⟩ := applySetObjects_applied h
  rw [normalize_givenScope fun written hscope => (hspares written hscope).1] at hwrite
  refine ⟨hwrite.inStep_replaced hs fun objects hobjects => ?_, ?_⟩
  · cases scope with
    | allTables except => cases hobjects
    | explicit written =>
      cases hobjects
      have hkeys := (hspares written rfl).2
      exact ⟨hkeys, nodup_memberships hkeys fun _ => givenObjects_not_bare⟩
  · show t.publicationScope name = _
    rw [hwrite.scopes]
    exact if_pos rfl

theorem addObjects_inStep {name : String} {written : List PublicationObjectFact}
    (hs : s.MembershipInStep) (hspares : s.SparesMembership (.alter ⟨name, .addObjects written⟩))
    (h : s.applyPublicationStatement (.alter ⟨name, .addObjects written⟩) = (.applied, t)) :
    t.MembershipInStep ∧ s.StoresGiven t (.alter ⟨name, .addObjects written⟩) := by
  obtain ⟨stored, hstored, -, -, hwrite⟩ := applyAddObjects_applied h
  obtain ⟨hkept, hwritten, hkeys, hapart⟩ := hspares stored hstored
  have hnormal : s.normalizePublicationScope
      (.explicit (stored ++ written.map s.resolvePublicationObject)) =
        .explicit (stored ++ s.givenObjects written) :=
    congrArg PublicationScope.explicit (normalize_keepsWritten hkept hwritten)
  rw [hnormal] at hwrite
  refine ⟨hwrite.inStep_replaced hs fun objects hobjects => ?_, stored, hstored, ?_⟩
  · cases hobjects
    refine ⟨hkeys, nodup_memberships_append ?_ hkeys (fun _ => givenObjects_not_bare) hapart⟩
    exact ((hs name stored hstored).edges.nodup_iff).mp (nodup_membershipsOf s name)
  · rw [hwrite.scopes]
    exact if_pos rfl

theorem dropObjects_inStep {name : String} {written : List PublicationObjectFact}
    (hs : s.MembershipInStep) (hspares : s.SparesMembership (.alter ⟨name, .dropObjects written⟩))
    (h : s.applyPublicationStatement (.alter ⟨name, .dropObjects written⟩) = (.applied, t)) :
    t.MembershipInStep ∧ s.StoresGiven t (.alter ⟨name, .dropObjects written⟩) := by
  obtain ⟨stored, hstored, hwrite⟩ := applyDropObjects_applied h
  have hin := hs name stored hstored
  rw [foldl_remove_eq_filter hin.distinct] at hwrite
  have hnormal : s.normalizePublicationScope (.explicit (s.objectsWithout stored written)) =
      .explicit (s.objectsWithout stored written) :=
    congrArg PublicationScope.explicit (normalize_keepsTables (hspares stored hstored))
  rw [objectsWithout] at hnormal
  rw [hnormal] at hwrite
  refine ⟨hwrite.inStep_replaced hs fun objects hobjects => ?_, stored, hstored, ?_⟩
  · cases hobjects
    refine ⟨hin.distinct.filter _, ?_⟩
    have hnodup := (hin.edges.nodup_iff).mp (nodup_membershipsOf s name)
    exact hnodup.sublist ((List.filter_sublist).filterMap _)
  · rw [hwrite.scopes]
    exact if_pos rfl

theorem membershipEdge_rename (s : AnalysisState) (name newName : String)
    (object : PublicationObjectFact) :
    (s.membershipEdge name object).map (DependencyEdge.renamePublication name newName) =
      s.membershipEdge newName object := by
  cases object with
  | table tableName =>
    have hof : (DependencyKind.publicationIncludes name).isMembershipOf name = true :=
      isMembershipOf_iff.mpr rfl
    exact congrArg some (if_pos hof)
  | schemaTables | currentSchemaShorthand | unknown => rfl

theorem memberships_rename (s : AnalysisState) (name newName : String)
    (objects : List PublicationObjectFact) :
    (objects.filterMap (s.membershipEdge name)).map (DependencyEdge.renamePublication name newName) =
      objects.filterMap (s.membershipEdge newName) := by
  rw [List.map_filterMap]
  exact congrArg (List.filterMap · objects) (funext (membershipEdge_rename s name newName))

theorem renamePublication_kind {name newName k : String} {e : DependencyEdge} (hk : k ≠ newName)
    (h : (e.renamePublication name newName).kind = .publicationIncludes k) :
    e.renamePublication name newName = e := by
  refine renamePublication_of_other (Bool.eq_false_iff.mpr fun hof => ?_)
  rw [DependencyEdge.renamePublication, if_pos hof] at h
  exact hk (DependencyKind.publicationIncludes.inj h).symm

theorem rename_inStep {name newName : String} (hs : s.MembershipInStep)
    (hspares : s.SparesMembership (.alter ⟨name, .rename newName⟩))
    (h : s.applyPublicationStatement (.alter ⟨name, .rename newName⟩) = (.applied, t)) :
    t.MembershipInStep ∧ s.StoresGiven t (.alter ⟨name, .rename newName⟩) := by
  obtain ⟨hnew, hsome, hwrite⟩ := applyRenamePublication_applied h
  have hstores : t.publicationScope newName = s.publicationScope name := by
    rw [hwrite.scopes]
    exact if_pos rfl
  refine ⟨fun k objects hk => ?_, hstores⟩
  by_cases hkn : k = newName
  · subst hkn
    rw [hstores] at hk
    have hin := hs name objects hk
    have hnodup : (objects.filterMap (s.membershipEdge k)).Nodup := by
      refine List.Nodup.of_map (DependencyEdge.renamePublication k name) ?_
      rw [memberships_rename]
      exact (hin.edges.nodup_iff).mp (nodup_membershipsOf s name)
    refine hwrite.inStep hin.distinct hnodup fun e he => ?_
    rw [← memberships_rename s name, List.mem_map]
    constructor
    · rintro ⟨old, -, hold, rfl⟩
      by_cases hof : old.kind.isMembershipOf name = true
      · have hmem := mem_membershipsOf.mpr ⟨hold, isMembershipOf_iff.mp hof⟩
        exact ⟨old, hin.edges.mem_iff.mp hmem, rfl⟩
      · have hsame : old.renamePublication name k = old :=
          renamePublication_of_other (Bool.not_eq_true _ ▸ hof)
        rw [hsame] at he ⊢
        have hstale := hspares objects hk old (mem_membershipsOf.mpr ⟨hold, he⟩)
        rwa [← memberships_rename s name, List.mem_map] at hstale
    · rintro ⟨old, hold, hrenamed⟩
      obtain ⟨hmem, hkind⟩ := mem_membershipsOf.mp (hin.edges.mem_iff.mpr hold)
      exact ⟨old, by rw [hkind]; rfl, hmem, hrenamed⟩
  · rw [hwrite.scopes] at hk
    dsimp only at hk
    rw [if_neg hkn] at hk
    by_cases hkname : k = name
    · rw [if_pos hkname] at hk
      cases hk
    · rw [if_neg hkname] at hk
      refine hwrite.inStep_kept (hs k objects hk) fun e he => ?_
      constructor
      · rintro ⟨old, -, hold, rfl⟩
        rwa [renamePublication_kind hkn he]
      · intro hold
        refine ⟨e, by rw [he]; rfl, hold, renamePublication_of_other ?_⟩
        exact Bool.eq_false_iff.mpr fun hof =>
          kind_ne_of_other hkname he (isMembershipOf_iff.mp hof)

theorem kept_inStep (hs : s.MembershipInStep)
    (h : Republishes s t s.publicationScope fun e => e ∈ s.graph.edges) : t.MembershipInStep := by
  intro k objects hk
  rw [h.scopes] at hk
  exact h.inStep_kept (hs k objects hk) fun _ _ => Iff.rfl

theorem dropPublication_inStep {fact : DropPublication} (hs : s.MembershipInStep)
    (h : s.applyPublicationStatement (.drop fact) = (.applied, t)) : t.MembershipInStep := by
  obtain ⟨names, hwrite⟩ := applyDropPublication_applied h
  intro k objects hk
  rw [hwrite.scopes] at hk
  dsimp only at hk
  by_cases hmem : k ∈ names
  · rw [if_pos hmem] at hk
    cases hk
  · rw [if_neg hmem] at hk
    refine hwrite.inStep_kept (hs k objects hk) fun e he => and_iff_left_of_imp fun hold => ?_
    have hedge := (hs k objects hk).edges.mem_iff.mp (mem_membershipsOf.mpr ⟨hold, he⟩)
    obtain ⟨object, -, hobject⟩ := List.mem_filterMap.mp hedge
    have hnode : e.referenced.name = k := congrArg ObjectId.name (membershipEdge_kind hobject).2
    rw [hnode, decide_eq_false hmem, Bool.and_false]
    rfl

/-- A statement that meets the condition keeps objects and edges in step, and
stores what it gives. -/
theorem publicationStep_inStep {statement : PublicationStatement} (hs : s.MembershipInStep)
    (hspares : s.SparesMembership statement)
    (h : s.applyPublicationStatement statement = (.applied, t)) :
    t.MembershipInStep ∧ s.StoresGiven t statement := by
  cases statement with
  | create fact => exact create_inStep hs hspares h
  | alter fact =>
    obtain ⟨name, action⟩ := fact
    cases action with
    | addObjects written => exact addObjects_inStep hs hspares h
    | setObjects scope => exact setObjects_inStep hs hspares h
    | dropObjects written => exact dropObjects_inStep hs hspares h
    | setOptions options => exact ⟨kept_inStep hs (applySetOptions_applied h), trivial⟩
    | ownerChange role => exact ⟨kept_inStep hs (applyOwnerChange_applied h), trivial⟩
    | rename newName => exact rename_inStep hs hspares h
  | drop fact => exact ⟨dropPublication_inStep hs h, trivial⟩

theorem publicationRun_inStep (hs : s.MembershipInStep)
    (hrun : PublicationRun AnalysisState.SparesMembership s t) : t.MembershipInStep := by
  induction hrun with
  | start => exact hs
  | step _ _ hspares happly ih => exact (publicationStep_inStep ih hspares happly).1

/-- An edge of a scope that replaced another. -/
theorem mem_replaced_of_membership {name : String} {e : DependencyEdge} {scope : PublicationScope}
    (hof : e.kind.isMembershipOf name = true) :
    (e ∈ s.graph.edges ∧ (!e.kind.isMembershipOf name) = true) ∨ e ∈ s.membershipEdges name scope ↔
      e ∈ s.membershipEdges name scope := by
  rw [hof]
  exact or_iff_right fun h => Bool.false_ne_true h.2

theorem mem_replaced_of_other {name : String} {e : DependencyEdge} {scope : PublicationScope}
    (hof : e.kind.isMembershipOf name = false) :
    (e ∈ s.graph.edges ∧ (!e.kind.isMembershipOf name) = true) ∨ e ∈ s.membershipEdges name scope ↔
      e ∈ s.graph.edges := by
  rw [hof]
  refine (or_iff_left fun hnew => ?_).trans (and_iff_left rfl)
  rw [isMembershipOf_iff.mpr (mem_membershipEdges_kind hnew).1] at hof
  cases hof

/-- Objects added and dropped again leave scopes and edges as they were. -/
theorem addObjects_dropObjects {name : String} {written : List PublicationObjectFact}
    (hs : s.MembershipInStep) (hspares : s.SparesMembership (.alter ⟨name, .addObjects written⟩))
    (hread : s.givenObjects written = written.map s.resolvePublicationObject)
    (h : s.applyPublicationStatement (.alter ⟨name, .addObjects written⟩) = (.applied, t)) :
    ∃ u, t.applyPublicationStatement (.alter ⟨name, .dropObjects written⟩) = (.applied, u) ∧
      u.publicationScope = s.publicationScope ∧ ∀ e, e ∈ u.graph.edges ↔ e ∈ s.graph.edges := by
  have halter : s.applyAlterPublication
      ⟨name, .addObjects (written.map s.resolvePublicationObject)⟩ = (.applied, t) := h
  obtain ⟨stored, hstored, hadded, -, hwrite⟩ := applyAddObjects_applied halter
  obtain ⟨hkept, hwritten, hkeys, -⟩ := hspares stored hstored
  have hnormal : s.normalizePublicationScope
      (.explicit (stored ++ written.map s.resolvePublicationObject)) =
        .explicit (stored ++ written.map s.resolvePublicationObject) := by
    have hgiven := normalize_keepsWritten hkept hwritten
    rw [hread] at hgiven
    exact congrArg PublicationScope.explicit hgiven
  rw [hnormal] at hwrite
  rw [hread] at hkeys
  have hscope : t.publicationScope name =
      some (.explicit (stored ++ written.map s.resolvePublicationObject)) := by
    rw [hwrite.scopes]
    exact if_pos rfl
  have hkey := hwrite.objects.key
  have hresolved : (written.map t.resolvePublicationObject) =
      written.map s.resolvePublicationObject := by rw [hwrite.objects.resolveObject]
  obtain ⟨u, hdrop⟩ := exists_applyDropObjects hscope (hkey ▸ hadded) fun removal hremoval =>
    List.mem_map_of_mem (List.mem_append_right stored hremoval)
  have happly : t.applyPublicationStatement (.alter ⟨name, .dropObjects written⟩) = (.applied, u) := by
    rw [← hresolved] at hdrop
    exact hdrop
  refine ⟨u, happly, ?_⟩
  obtain ⟨objects, hobjects, hrest⟩ := applyDropObjects_applied hdrop
  obtain rfl : stored ++ written.map s.resolvePublicationObject = objects :=
    PublicationScope.explicit.inj (Option.some.inj (hscope.symm.trans hobjects))
  have hstoredNormal : s.normalizePublicationScope (.explicit stored) = .explicit stored :=
    congrArg PublicationScope.explicit (normalize_keepsTables hkept)
  rw [hkey, foldl_remove_eq_filter hkeys, filter_added hkeys, hwrite.objects.normalize,
    hstoredNormal] at hrest
  constructor
  · rw [hrest.scopes, hwrite.scopes]
    funext k
    by_cases hk : k = name
    · simp only [hk, if_true, hstored]
    · simp only [hk, if_false]
  · intro e
    by_cases hkind : e.kind.isPublicationIncludes = true
    · rw [hrest.edges e hkind]
      by_cases hof : e.kind.isMembershipOf name = true
      · rw [mem_replaced_of_membership hof, hwrite.objects.membershipEdges]
        have hin := (hs name stored hstored).edges.mem_iff (a := e)
        rw [mem_membershipsOf, and_iff_left (isMembershipOf_iff.mp hof)] at hin
        exact hin.symm
      · rw [mem_replaced_of_other (Bool.not_eq_true _ ▸ hof), hwrite.edges e hkind,
          mem_replaced_of_other (Bool.not_eq_true _ ▸ hof)]
    · have hother := Bool.not_eq_true _ ▸ hkind
      exact (hrest.objects.edges e hother).trans (hwrite.objects.edges e hother)

/-- In every run whose statements meet the condition, objects and edges stay in
step, statements store what they give, and a drop undoes an addition. -/
theorem publicationRun_membership (hs : s.MembershipInStep)
    (hrun : PublicationRun AnalysisState.SparesMembership s t) :
    t.MembershipInStep ∧
      (∀ written, ∀ object ∈ written, object.isQualifiedTable = true →
        t.resolvePublicationObject object ∈ t.givenObjects written) ∧
      ∀ statement u, t.SparesMembership statement →
        t.applyPublicationStatement statement = (.applied, u) →
          t.StoresGiven u statement ∧
            ∀ name written, statement = .alter ⟨name, .addObjects written⟩ →
              t.givenObjects written = written.map t.resolvePublicationObject →
                ∃ v, u.applyPublicationStatement (.alter ⟨name, .dropObjects written⟩) =
                    (.applied, v) ∧
                  v.publicationScope = t.publicationScope ∧
                    ∀ e, e ∈ v.graph.edges ↔ e ∈ t.graph.edges := by
  have ht := publicationRun_inStep hs hrun
  refine ⟨ht, fun _ _ => mem_givenObjects_of_qualified, fun statement u hspares happly => ?_⟩
  refine ⟨(publicationStep_inStep ht hspares happly).2, ?_⟩
  rintro name written rfl hread
  exact addObjects_dropObjects ht hspares hread happly

end Steps

section Sales

def quoted (text : String) : Ident := ⟨text, true⟩

def schemaOf (name : String) : SchemaOverlay := .present ⟨name, ⟨"", "app"⟩, 0⟩

/-- Schemas `public`, `app` and `sales`, and a table `public.sales`. -/
def salesCatalog : AnalysisState :=
  { schemas := ((AList.singleton "public" (schemaOf "public")).insert "app" (schemaOf "app")).insert
      "sales" (schemaOf "sales"),
    relations := AList.singleton ⟨"public", "sales"⟩ (.present (RelationState.new
      ⟨"public", "sales"⟩ ⟨"", "app"⟩ 0 none .table .permanent 0)) }

def salesTable : PublicationObjectFact :=
  .table ⟨some (quoted "public"), quoted "sales"⟩ false false none none

def createForSales : PublicationStatement := .create ⟨"p", .explicit [salesTable], []⟩

def addApp : PublicationStatement := .alter ⟨"p", .addObjects [.schemaTables "app" none]⟩

def createForAppAndSales : PublicationStatement :=
  .create ⟨"p", .explicit [.schemaTables "app" none, salesTable], []⟩

def salesPublished : AnalysisState := (salesCatalog.applyPublicationStatement createForSales).2

def salesMisread : AnalysisState := (salesCatalog.applyPublicationStatement createForAppAndSales).2

theorem membershipInStep_of_unpublished {s : AnalysisState} (hs : s.publications = ∅) :
    s.MembershipInStep := by
  intro name objects h
  obtain ⟨publication, hlookup, -⟩ := publicationScope_eq_some.mp h
  rw [hs] at hlookup
  cases hlookup

theorem keepsWritten_single {s : AnalysisState} {stored : List PublicationObjectFact}
    {object : PublicationObjectFact}
    (h : s.readAsSchema stored (s.resolvePublicationObject object) = false) :
    s.KeepsWritten stored [object] := by
  intro before other after hsplit hread
  cases before with
  | nil =>
    obtain ⟨rfl, -⟩ := List.cons.inj hsplit
    rw [show stored ++ s.givenObjects [] = stored from List.append_nil _, h] at hread
    cases hread
  | cons first before => cases before <;> cases hsplit

theorem keepsTables_single {s : AnalysisState} (object : PublicationObjectFact) :
    s.KeepsTables [object] := by
  intro before other after hsplit
  cases before with
  | nil => cases other <;> rfl
  | cons first before => cases before <;> cases hsplit

/-- A schema is added behind the table, and dropped again. -/
theorem salesPublished_restored : salesPublished.MembershipInStep ∧
    ∃ u v, salesPublished.applyPublicationStatement addApp = (.applied, u) ∧
      u.publicationScope "p" = some (.explicit [salesTable, .schemaTables "app" none]) ∧
      u.applyPublicationStatement (.alter ⟨"p", .dropObjects [.schemaTables "app" none]⟩) =
        (.applied, v) ∧ v.publicationScope "p" = some (.explicit [salesTable]) := by
  have hrun : PublicationRun AnalysisState.SparesMembership salesCatalog salesPublished := by
    refine .step createForSales .start ?_ (Prod.ext (by decide +kernel) rfl)
    rintro written ⟨⟩
    exact ⟨keepsWritten_single rfl, by unfold AnalysisState.membershipsOf; decide +kernel⟩
  have hscope : salesPublished.publicationScope "p" = some (.explicit [salesTable]) := by
    decide +kernel
  have hspares : salesPublished.SparesMembership addApp := by
    intro stored hstored
    rw [hscope] at hstored
    cases hstored
    refine ⟨keepsTables_single _, keepsWritten_single rfl, ?_, ?_⟩
    · unfold Distinct
      decide +kernel
    · rintro object hobject hbare
      rw [List.mem_singleton.mp hobject] at hbare
      cases hbare
  obtain ⟨hin, -, hstep⟩ := publicationRun_membership (membershipInStep_of_unpublished rfl) hrun
  obtain ⟨-, hrestored⟩ := hstep addApp (salesPublished.applyPublicationStatement addApp).2 hspares
    (Prod.ext (by decide +kernel) rfl)
  obtain ⟨v, hdrop, hscopes, -⟩ := hrestored "p" _ rfl rfl
  refine ⟨hin, _, v, Prod.ext (by decide +kernel) rfl, by decide +kernel, hdrop, ?_⟩
  rw [hscopes, hscope]

/-- A table behind a schema becomes a schema, by the name that it shares with
one, and its membership edge is missing. -/
theorem salesMisread_stores : salesCatalog.MembershipInStep ∧
    salesCatalog.applyPublicationStatement createForAppAndSales = (.applied, salesMisread) ∧
    salesTable.isQualifiedTable = true ∧
    salesCatalog.givenScope (.explicit [.schemaTables "app" none, salesTable]) =
      .explicit [.schemaTables "app" none, salesTable] ∧
    salesMisread.publicationScope "p" =
      some (.explicit [.schemaTables "app" none, .schemaTables "sales" none]) ∧
    salesMisread.membershipsOf "p" = [] ∧
    ¬salesCatalog.StoresGiven salesMisread createForAppAndSales := by
  have hscope : salesMisread.publicationScope "p" =
      some (.explicit [.schemaTables "app" none, .schemaTables "sales" none]) := by decide +kernel
  have hgiven : salesCatalog.givenScope (.explicit [.schemaTables "app" none, salesTable]) =
      .explicit [.schemaTables "app" none, salesTable] := by decide +kernel
  refine ⟨membershipInStep_of_unpublished rfl, Prod.ext (by decide +kernel) rfl, rfl, hgiven,
    hscope, by unfold membershipsOf; decide +kernel, fun hstores => ?_⟩
  have hstored : salesMisread.publicationScope "p" =
      some (salesCatalog.givenScope (.explicit [.schemaTables "app" none, salesTable])) := hstores
  rw [hscope, hgiven] at hstored
  revert hstored
  decide

end Sales

end SafeMigrate
