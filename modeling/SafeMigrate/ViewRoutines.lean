import SafeMigrate.DataTypes
import SafeMigrate.TypeCreation

/-! The routines that a view calls, as the identities its dependency edges name. -/

namespace SafeMigrate

/-- The argument columns are known only if every argument is a plain column. -/
structure RoutineReferenceFact where
  name : QualifiedName
  argumentTypes : Option (List String)

/-- The signature is known if the call came to one routine. -/
structure ViewRoutine where
  name : ObjectRef
  signature : Option ObjectId

/-- The routine name in `name(arguments)`. -/
def bareRoutineName (identity : String) : String :=
  ((splitOnce '(' identity).map (·.1)).getD identity

/-- `TypeIdentity::from_syntax` and `render`. -/
def normalizeFunctionArgType (letters : LetterCase) (catalogue : BuiltinTypeCatalogue)
    (raw : String) : String :=
  let parsed := ParsedDataType.parse letters catalogue raw
  if parsed.arrayDimensions > 0 then parsed.canonicalName ++ "[]" else parsed.canonicalName

namespace AnalysisState

variable (s : AnalysisState)

def routineNamedIsPresent (id : ObjectId) : Bool :=
  s.functions.entries.any fun entry =>
    entry.2.isPresent && entry.1.schema == id.schema && bareRoutineName entry.1.name == id.name

def resolveRoutineNamespaceName (name : QualifiedName) : ObjectRef :=
  match name.schema with
  | some schema => ⟨⟨schema.resolve, name.name.resolve⟩, false⟩
  | none =>
    let found := s.routineSearchPath.findSome? fun entry =>
      entry.searchedSchema.filter fun schema =>
        s.routineNamedIsPresent ⟨schema, name.name.resolve⟩
    let first := (s.routineSearchPath.head?.bind SearchPathEntry.name).getD ""
    ⟨⟨found.getD first, name.name.resolve⟩, true⟩

def relationColumnTypes (id : ObjectId) : Option (List (String × Option String)) :=
  match s.relations.lookup id with
  | some (.present relation) =>
    some (relation.columns.map fun column => (column.name, column.dataType))
  | _ => none

/-- The loop over the routines: the one found so far, until a second is met. -/
def scanUniqueRoutine (wanted : String) :
    Option ObjectId → List (Sigma fun _ : ObjectId => FunctionOverlay) → Option ObjectId
  | found, [] => found
  | found, ⟨id, overlay⟩ :: entries =>
    match overlay with
    | .dropped => scanUniqueRoutine wanted found entries
    | .present function =>
      if (function.routineKind ≠ .function ∧ function.routineKind ≠ .window) ∨
          bareRoutineName id.name ≠ wanted then
        scanUniqueRoutine wanted found entries
      else if found.isSome then none
      else scanUniqueRoutine wanted (some id) entries

def uniqueRoutineNamed (name : ObjectId) : Option ObjectId :=
  scanUniqueRoutine (bareRoutineName name.name) none s.functions.entries

section Calls

variable (letters : LetterCase) (catalogue : BuiltinTypeCatalogue)

/-- The declared types of the argument columns. -/
def argumentSignature (source : Option ObjectId) (reference : RoutineReferenceFact) :
    Option (List String) :=
  let sourceColumns := (source.bind s.relationColumnTypes).getD []
  reference.argumentTypes.bind fun arguments =>
    arguments.mapM fun argument =>
      (sourceColumns.find? fun column => column.1 = argument).bind (·.2)

def exactRoutine (name : ObjectId) (arguments : List String) : ObjectId :=
  ⟨name.schema, name.name ++ "(" ++
    ",".intercalate (arguments.map (normalizeFunctionArgType letters catalogue)) ++ ")"⟩

def resolveViewRoutine (source : Option ObjectId) (reference : RoutineReferenceFact) :
    ViewRoutine :=
  let name := s.resolveRoutineNamespaceName reference.name
  { name
    signature := ((s.argumentSignature source reference).map
      (exactRoutine letters catalogue name.id)).or (s.uniqueRoutineNamed name.id) }

def resolveViewRoutines (routines : List RoutineReferenceFact) (source : Option ObjectId) :
    List ViewRoutine :=
  routines.map (s.resolveViewRoutine letters catalogue source)

end Calls

/-- A definite edge to the signature, or one that keeps the bare name. -/
def viewRoutineEdge (view : ObjectId) (routine : ViewRoutine) : DependencyEdge :=
  match routine.signature with
  | some signature => ⟨view, signature, .viewUsesRoutine none⟩
  | none => ⟨view, routine.name.id, .viewUsesRoutine (some routine.name.id)⟩

def recordViewRoutineDependencies (view : ObjectId) (routines : List ViewRoutine) :
    AnalysisState :=
  routines.foldl (fun s routine =>
    let s := if routine.name.inferredSchema && s.pathShadows routine.name.id.schema then
        s.taint .unknownObjectState .statement
      else s
    s.setGraph (s.graph.addEdge (viewRoutineEdge view routine))) s

theorem mem_recordViewRoutineDependencies {view : ObjectId} {routines : List ViewRoutine}
    {e : DependencyEdge} : e ∈ (s.recordViewRoutineDependencies view routines).graph.edges ↔
      e ∈ s.graph.edges ∨ e ∈ routines.map (viewRoutineEdge view) := by
  unfold recordViewRoutineDependencies
  induction routines generalizing s with
  | nil => simp
  | cons routine routines ih =>
    have hgraph (c : Bool) : AnalysisState.graph (if c then s.taint .unknownObjectState .statement
        else s) = s.graph := by
      cases c with
      | false => rfl
      | true => exact s.taint_graph _ _
    rw [List.foldl_cons, ih]
    simp only [setGraph, DependencyGraph.mem_addEdge, hgraph, List.map_cons, List.mem_cons]
    tauto

end AnalysisState

section BareNames

theorem bareRoutineName_eq (identity : String) :
    bareRoutineName identity = String.ofList (identity.toList.takeWhile (· != '(')) := by
  have hsplit := List.takeWhile_append_dropWhile (p := (· != '(')) (l := identity.toList)
  unfold bareRoutineName splitOnce
  cases hrest : identity.toList.dropWhile (· != '(') with
  | nil =>
    rw [hrest, List.append_nil] at hsplit
    rw [hsplit, String.ofList_toList]
    rfl
  | cons _ after => rfl

theorem bareRoutineName_append (name rest : String) :
    bareRoutineName (name ++ "(" ++ rest) = bareRoutineName name := by
  have hlist : (name ++ "(" ++ rest).toList = name.toList ++ '(' :: rest.toList := by simp
  rw [bareRoutineName_eq, bareRoutineName_eq, hlist, List.takeWhile_append]
  split
  · next hall =>
    have hleads := (List.takeWhile_prefix (p := (· != '(')) (l := name.toList)).eq_of_length hall
    rw [hleads]
    simp
  · rfl

theorem bareRoutineName_bare (identity : String) :
    bareRoutineName (bareRoutineName identity) = bareRoutineName identity := by
  have hboth : (fun c : Char => decide ((c != '(') = true ∧ (c != '(') = true)) = (· != '(') := by
    funext c
    by_cases hc : c = '(' <;> simp [hc]
  rw [bareRoutineName_eq, bareRoutineName_eq, String.toList_ofList, List.takeWhile_takeWhile, hboth]

end BareNames

namespace AnalysisState

section Lone

variable {wanted : String} {found : Option ObjectId} {picked : ObjectId}

/-- A function or a window function with this name. -/
def IsLoneCandidate (wanted : String) (id : ObjectId) (function : FunctionState) : Prop :=
  (function.routineKind = .function ∨ function.routineKind = .window) ∧
    bareRoutineName id.name = wanted

/-- What the loop returns was found before it or in it, and is the only candidate. -/
theorem scanUniqueRoutine_spec {entries : List (Sigma fun _ : ObjectId => FunctionOverlay)}
    (h : scanUniqueRoutine wanted found entries = some picked) :
    (found = some picked ∨ ∃ function, ⟨picked, .present function⟩ ∈ entries ∧
      IsLoneCandidate wanted picked function) ∧
    ∀ other function, ⟨other, .present function⟩ ∈ entries →
      IsLoneCandidate wanted other function → found = none ∧ other = picked := by
  induction entries generalizing found with
  | nil => exact ⟨Or.inl h, by simp⟩
  | cons entry entries ih =>
    obtain ⟨candidate, overlay⟩ := entry
    cases overlay with
    | dropped =>
      obtain ⟨hfound, hothers⟩ := ih h
      refine ⟨hfound.imp id fun ⟨function, hmem, hcandidate⟩ =>
        ⟨function, List.mem_cons_of_mem _ hmem, hcandidate⟩, fun other function hmem => ?_⟩
      exact hothers other function (by simpa using hmem)
    | present function =>
      by_cases hskip : (function.routineKind ≠ .function ∧ function.routineKind ≠ .window) ∨
          bareRoutineName candidate.name ≠ wanted
      · rw [scanUniqueRoutine, if_pos hskip] at h
        obtain ⟨hfound, hothers⟩ := ih h
        refine ⟨hfound.imp id fun ⟨function, hmem, hcandidate⟩ =>
          ⟨function, List.mem_cons_of_mem _ hmem, hcandidate⟩, fun other function' hmem hother => ?_⟩
        rcases List.mem_cons.mp hmem with heq | hmem
        · cases heq
          exact absurd hskip (by simpa [IsLoneCandidate, or_iff_not_imp_left] using hother)
        · exact hothers other function' hmem hother
      · rw [scanUniqueRoutine, if_neg hskip] at h
        have hcandidate : IsLoneCandidate wanted candidate function := by
          push Not at hskip
          exact ⟨or_iff_not_imp_left.mpr hskip.1, hskip.2⟩
        cases found with
        | some _ => cases h
        | none =>
          obtain ⟨hfound, hothers⟩ := ih h
          have heq : candidate = picked := by
            rcases hfound with hsome | ⟨function', hmem, hlone⟩
            · exact Option.some.inj hsome
            · cases (hothers picked function' hmem hlone).1
          refine ⟨Or.inr ⟨function, heq ▸ List.mem_cons_self, heq ▸ hcandidate⟩,
            fun other function' hmem hother => ⟨rfl, ?_⟩⟩
          rcases List.mem_cons.mp hmem with hhead | hmem
          · cases hhead
            exact heq
          · cases (hothers other function' hmem hother).1

theorem uniqueRoutineNamed_held {s : AnalysisState} {name : ObjectId}
    (h : s.uniqueRoutineNamed name = some picked) :
    (∃ function, s.functions.lookup picked = some (.present function) ∧
      IsLoneCandidate (bareRoutineName name.name) picked function) ∧
    ∀ other function, s.functions.lookup other = some (.present function) →
      IsLoneCandidate (bareRoutineName name.name) other function → other = picked := by
  obtain ⟨hfound, hothers⟩ := scanUniqueRoutine_spec h
  constructor
  · rcases hfound with hnone | ⟨function, hmem, hlone⟩
    · cases hnone
    · exact ⟨function, MapRebuild.mem_entries_iff.mp hmem, hlone⟩
  · intro other function hlookup hlone
    exact (hothers other function (MapRebuild.mem_entries_iff.mpr hlookup) hlone).2

end Lone

section Selection

variable (s : AnalysisState)

/-- A routine that an expression can call. -/
def HeldRoutine (id : ObjectId) : Prop :=
  ∃ function, s.functions.lookup id = some (.present function) ∧ function.routineKind ≠ .procedure

/-- Schemas that an unqualified call searches, apart from the system catalogue. -/
def routineSchemas : List String := s.routineSearchPath.filterMap SearchPathEntry.searchedSchema

/-- The schemas that are searched before one. -/
def schemasBefore (schema : String) : List String := s.routineSchemas.takeWhile (· ≠ schema)

/-- The routine lies where the call looks, and nothing it could call lies before it. -/
def Selects (called : QualifiedName) (id : ObjectId) : Prop :=
  bareRoutineName id.name = bareRoutineName called.name.resolve ∧
    (id.schema = systemCatalogSchema ∨ s.HeldRoutine id) ∧
    match called.schema with
    | some schema => id.schema = schema.resolve
    | none => id.schema = systemCatalogSchema ∨ id.schema ∈ s.routineSchemas ∧
        ∀ other, s.HeldRoutine other →
          bareRoutineName other.name = bareRoutineName called.name.resolve →
            other.schema ∉ s.schemasBefore id.schema

/-- The schema of a lone routine is one that the call sees, with no aggregate of the
name in front of it. -/
def InSight (called : QualifiedName) (id : ObjectId) : Prop :=
  match called.schema with
  | some schema => id.schema = schema.resolve
  | none => id.schema = systemCatalogSchema ∨ id.schema ∈ s.routineSchemas ∧
      ∀ other function, s.functions.lookup other = some (.present function) →
        function.routineKind = .aggregate →
          bareRoutineName other.name = bareRoutineName called.name.resolve →
            other.schema ∉ s.schemasBefore id.schema

/-- With argument types, the routine of these types is there; without, the lone
routine of the name is in sight. -/
def SettledCall (letters : LetterCase) (catalogue : BuiltinTypeCatalogue)
    (source : Option ObjectId) (reference : RoutineReferenceFact) : Prop :=
  let name := (s.resolveRoutineNamespaceName reference.name).id
  match s.argumentSignature source reference with
  | some arguments => name.schema = systemCatalogSchema ∨
      s.HeldRoutine (exactRoutine letters catalogue name arguments) ∧
        (reference.name.schema.isSome ∨ name.schema ∈ s.routineSchemas)
  | none => ∀ id, s.uniqueRoutineNamed name = some id → s.InSight reference.name id

end Selection

section Soundness

variable {s : AnalysisState} {called : QualifiedName} {picked : ObjectId}

theorem present_before_find {p : String → Bool} {schemas : List String} {schema other : String}
    (h : schemas.find? p = some schema) (hother : other ∈ schemas.takeWhile (· ≠ schema)) :
    p other = false := by
  induction schemas with
  | nil => cases h
  | cons first schemas ih =>
    rw [List.takeWhile_cons] at hother
    cases hp : p first with
    | true =>
      rw [List.find?_cons_of_pos hp] at h
      cases h
      simp at hother
    | false =>
      rw [List.find?_cons_of_neg (by simp [hp])] at h
      split at hother
      · rcases List.mem_cons.mp hother with rfl | hother
        · exact hp
        · exact ih h hother
      · cases hother

/-- The schema of an unqualified name: the first that holds a routine of the name. -/
theorem resolveRoutineNamespaceName_unqualified (h : called.schema = none) :
    (s.resolveRoutineNamespaceName called).id =
      ⟨(s.routineSchemas.find? fun schema =>
          s.routineNamedIsPresent ⟨schema, called.name.resolve⟩).getD
        ((s.routineSearchPath.head?.bind SearchPathEntry.name).getD ""), called.name.resolve⟩ := by
  have hfound (p : String → Bool) (path : List SearchPathEntry) :
      (path.findSome? fun entry => entry.searchedSchema.filter p) =
        (path.filterMap SearchPathEntry.searchedSchema).find? p := by
    induction path with
    | nil => rfl
    | cons entry path ih =>
      cases hschema : entry.searchedSchema with
      | none => rw [List.findSome?_cons, hschema, List.filterMap_cons_none hschema, ← ih]; rfl
      | some name =>
        rw [List.findSome?_cons, hschema, List.filterMap_cons_some hschema]
        cases hp : p name with
        | true => rw [List.find?_cons_of_pos hp, Option.filter_some, if_pos hp]
        | false =>
          rw [List.find?_cons_of_neg (Bool.eq_false_iff.mp hp), ← ih, Option.filter_some, hp]
          rfl
  unfold resolveRoutineNamespaceName routineSchemas
  rw [h]
  dsimp only
  rw [hfound]

theorem resolveRoutineNamespaceName_name :
    (s.resolveRoutineNamespaceName called).id.name = called.name.resolve := by
  unfold resolveRoutineNamespaceName
  cases called.schema <;> rfl

theorem routineNamedIsPresent_of_held {other : ObjectId} (h : s.HeldRoutine other) :
    s.routineNamedIsPresent ⟨other.schema, bareRoutineName other.name⟩ = true := by
  obtain ⟨function, hlookup, -⟩ := h
  refine List.any_eq_true.mpr ⟨_, MapRebuild.mem_entries_iff.mpr hlookup, ?_⟩
  simp [Overlay.isPresent]

theorem bare_of_present {id : ObjectId} (h : s.routineNamedIsPresent id = true) :
    bareRoutineName id.name = id.name := by
  obtain ⟨entry, -, hentry⟩ := List.any_eq_true.mp h
  simp only [Bool.and_eq_true, beq_iff_eq] at hentry
  rw [← hentry.2, bareRoutineName_bare]

/-- Nothing of the name lies before the schema that the name resolves to. -/
theorem not_before_resolved (hpath : ∀ entry ∈ s.routineSearchPath, entry.searchedSchema.isSome)
    (hcalled : called.schema = none) {other : ObjectId} (hheld : s.HeldRoutine other)
    (hname : bareRoutineName other.name = bareRoutineName called.name.resolve) :
    other.schema ∉ s.schemasBefore (s.resolveRoutineNamespaceName called).id.schema := by
  have hresolved := @resolveRoutineNamespaceName_unqualified s called hcalled
  cases hfound : s.routineSchemas.find? fun schema =>
      s.routineNamedIsPresent ⟨schema, called.name.resolve⟩ with
  | some schema =>
    rw [hfound] at hresolved
    rw [hresolved]
    intro hbefore
    have habsent := present_before_find hfound hbefore
    have hheldThere : s.routineNamedIsPresent ⟨schema, called.name.resolve⟩ = true :=
      List.find?_some (p := fun schema => s.routineNamedIsPresent ⟨schema, called.name.resolve⟩) hfound
    have hbare := bare_of_present hheldThere
    have hpresent := routineNamedIsPresent_of_held hheld
    rw [hname, hbare] at hpresent
    rw [hpresent] at habsent
    cases habsent
  | none =>
    -- the first entry of the path, with nothing in front of it
    rw [hfound] at hresolved
    have hfirst : s.schemasBefore (s.resolveRoutineNamespaceName called).id.schema = [] := by
      unfold schemasBefore routineSchemas at *
      cases hentries : s.routineSearchPath with
      | nil => simp
      | cons entry entries =>
        obtain ⟨first, hschema⟩ := Option.isSome_iff_exists.mp (hpath entry (by simp [hentries]))
        have hentry : entry.name = some first := by
          cases entry with
          | schema name => exact hschema
          | unresolved name => cases hschema
        rw [hresolved, hentries, List.filterMap_cons_some hschema]
        simp [hentry]
    rw [hfirst]
    exact List.not_mem_nil

theorem exactRoutine_selected_iff
    (hpath : ∀ entry ∈ s.routineSearchPath, entry.searchedSchema.isSome) (letters : LetterCase)
    (catalogue : BuiltinTypeCatalogue) (arguments : List String) :
    let name := (s.resolveRoutineNamespaceName called).id
    s.Selects called (exactRoutine letters catalogue name arguments) ↔
      name.schema = systemCatalogSchema ∨
        s.HeldRoutine (exactRoutine letters catalogue name arguments) ∧
          (called.schema.isSome ∨ name.schema ∈ s.routineSchemas) := by
  intro name
  have hbare : bareRoutineName (exactRoutine letters catalogue name arguments).name =
      bareRoutineName called.name.resolve := by
    have hname : name.name = called.name.resolve := resolveRoutineNamespaceName_name
    rw [← hname, exactRoutine, String.append_assoc]
    exact bareRoutineName_append _ _
  unfold Selects
  rw [and_iff_right hbare]
  cases hschema : called.schema with
  | some schema =>
    have hwritten : name.schema = schema.resolve := by
      simp [name, resolveRoutineNamespaceName, hschema]
    simp [exactRoutine, hwritten]
  | none =>
    dsimp only [exactRoutine]
    constructor
    · rintro ⟨hcatalog | hheld, hcatalog' | ⟨hmem, -⟩⟩
      · exact Or.inl hcatalog
      · exact Or.inl hcatalog
      · exact Or.inl hcatalog'
      · exact Or.inr ⟨hheld, Or.inr hmem⟩
    · rintro (hcatalog | ⟨hheld, hsome | hmem⟩)
      · exact ⟨Or.inl hcatalog, Or.inl hcatalog⟩
      · cases hsome
      · exact ⟨Or.inr hheld, Or.inr ⟨hmem, fun other hother hname =>
          not_before_resolved hpath hschema hother hname⟩⟩

theorem loneRoutine_selected_iff
    (h : s.uniqueRoutineNamed (s.resolveRoutineNamespaceName called).id = some picked) :
    s.Selects called picked ↔ s.InSight called picked := by
  obtain ⟨⟨function, hlookup, hkind, hname⟩, hothers⟩ := uniqueRoutineNamed_held h
  rw [resolveRoutineNamespaceName_name] at hname hothers
  have hheld : s.HeldRoutine picked :=
    ⟨function, hlookup, fun hprocedure => by simp [hprocedure] at hkind⟩
  unfold Selects InSight
  rw [and_iff_right hname, and_iff_right (Or.inr hheld)]
  cases called.schema with
  | some schema => rfl
  | none =>
    refine or_congr_right (and_congr_right fun hmem => ?_)
    constructor
    · intro hbefore other function hother haggregate hsame
      exact hbefore other ⟨function, hother, by simp [haggregate]⟩ hsame
    · rintro hbefore other ⟨function, hother, hcallable⟩ hsame hearlier
      cases hkind : function.routineKind with
      | procedure => exact hcallable hkind
      | aggregate => exact hbefore other function hother hkind hsame hearlier
      | function | window =>
        have heq := hothers other function hother ⟨by simp [hkind], hsame⟩
        rw [heq] at hearlier
        simpa using List.mem_takeWhile_imp hearlier

/-- What the views of a statement record is right exactly if every call is settled by
the routine of its argument types, or by a lone routine that it sees. -/
theorem viewRoutines_sound_iff
    (hpath : ∀ entry ∈ s.routineSearchPath, entry.searchedSchema.isSome) (letters : LetterCase)
    (catalogue : BuiltinTypeCatalogue) (source : Option ObjectId)
    (references : List RoutineReferenceFact) (view : ObjectId) :
    (∀ e, e ∈ (s.recordViewRoutineDependencies view
        (s.resolveViewRoutines letters catalogue references source)).graph.edges ↔
      e ∈ s.graph.edges ∨ ∃ reference ∈ references,
        e = viewRoutineEdge view (s.resolveViewRoutine letters catalogue source reference)) ∧
    ((∀ reference ∈ references, ∀ id,
        viewRoutineEdge view (s.resolveViewRoutine letters catalogue source reference) =
          ⟨view, id, .viewUsesRoutine none⟩ → s.Selects reference.name id) ↔
      ∀ reference ∈ references, s.SettledCall letters catalogue source reference) := by
  refine ⟨fun e => ?_, forall₂_congr fun reference _ => ?_⟩
  · rw [mem_recordViewRoutineDependencies, resolveViewRoutines, List.map_map]
    simp [List.mem_map, eq_comm]
  · have hdefinite (id : ObjectId) :
        viewRoutineEdge view (s.resolveViewRoutine letters catalogue source reference) =
          ⟨view, id, .viewUsesRoutine none⟩ ↔
        (s.resolveViewRoutine letters catalogue source reference).signature = some id := by
      unfold viewRoutineEdge
      cases (s.resolveViewRoutine letters catalogue source reference).signature <;> simp
    rw [forall_congr' fun id => imp_congr_left (hdefinite id)]
    unfold resolveViewRoutine SettledCall
    cases s.argumentSignature source reference with
    | some arguments =>
      refine Iff.trans ?_ (exactRoutine_selected_iff hpath letters catalogue arguments)
      simp
    | none => exact forall₂_congr fun id hlone => loneRoutine_selected_iff hlone

end Soundness

end AnalysisState

section Samples

open AnalysisState

/-- `lower(text)` of a schema. -/
def lowerIn (schema : String) : ObjectId := ⟨schema, "lower(text)"⟩

def lowerFunction (schema : String) : FunctionState where
  id := lowerIn schema
  routineKind := .function
  argTypes := ["text"]
  argTypeIds := [none]
  returnType := "text"
  returnsSet := false
  parameters := []
  defaultCount := 0
  returnTypeId := none
  volatility := .immutable
  language := "sql"
  security := .invoker
  internalTypeOwner := none
  aggregate := none

/-- One `lower(text)`, under a path of the public schema alone. -/
def holdingLower (schema : String) : AnalysisState :=
  { functions := AList.singleton (lowerIn schema) (.present (lowerFunction schema))
    searchPath := [.schema "public"] }

/-- `lower('x')` -/
def lowerCall : RoutineReferenceFact := ⟨⟨none, ⟨"lower", false⟩⟩, none⟩

def emptyTypes : BuiltinTypeCatalogue := ⟨[], List.nodup_nil⟩

/-- The call cannot see the schema, and its edge is definite. -/
theorem lowerCall_outOfSight :
    viewRoutineEdge ⟨"public", "report"⟩ ((holdingLower "other").resolveViewRoutine
        TypeReference.asciiLetters emptyTypes none lowerCall) =
      ⟨⟨"public", "report"⟩, lowerIn "other", .viewUsesRoutine none⟩ ∧
    ¬(holdingLower "other").Selects lowerCall.name (lowerIn "other") := by
  refine ⟨by decide +kernel, fun ⟨_, _, hseen⟩ => ?_⟩
  rcases hseen with hcatalog | ⟨hmem, -⟩
  · revert hcatalog
    decide
  · revert hmem
    decide

theorem lowerCall_seen :
    viewRoutineEdge ⟨"public", "report"⟩ ((holdingLower "public").resolveViewRoutine
        TypeReference.asciiLetters emptyTypes none lowerCall) =
      ⟨⟨"public", "report"⟩, lowerIn "public", .viewUsesRoutine none⟩ ∧
    (holdingLower "public").Selects lowerCall.name (lowerIn "public") := by
  have hfound : (holdingLower "public").uniqueRoutineNamed
      ((holdingLower "public").resolveRoutineNamespaceName lowerCall.name).id =
        some (lowerIn "public") := by decide +kernel
  have hsettled : (holdingLower "public").SettledCall TypeReference.asciiLetters emptyTypes none
      lowerCall := by
    show ∀ id, (holdingLower "public").uniqueRoutineNamed
      ((holdingLower "public").resolveRoutineNamespaceName lowerCall.name).id = some id → _
    intro id hlone
    obtain rfl := Option.some.inj (hfound.symm.trans hlone)
    refine Or.inr ⟨by decide, fun other function _ _ _ hbefore => ?_⟩
    simp [schemasBefore, routineSchemas, routineSearchPath, holdingLower, lowerIn,
      SearchPathEntry.searchedSchema, SearchPathEntry.name, sessionTempSchema] at hbefore
  have hedge : viewRoutineEdge ⟨"public", "report"⟩ ((holdingLower "public").resolveViewRoutine
      TypeReference.asciiLetters emptyTypes none lowerCall) =
        ⟨⟨"public", "report"⟩, lowerIn "public", .viewUsesRoutine none⟩ := by decide +kernel
  have hsound := (viewRoutines_sound_iff (s := holdingLower "public") (by decide)
    TypeReference.asciiLetters emptyTypes none [lowerCall] ⟨"public", "report"⟩).2.mpr
      (List.forall_mem_singleton.mpr hsettled)
  exact ⟨hedge, hsound lowerCall List.mem_cons_self _ hedge⟩

end Samples

end SafeMigrate
