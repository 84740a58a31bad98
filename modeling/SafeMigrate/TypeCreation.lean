import SafeMigrate.CreateTablePlan
import SafeMigrate.TypeCollations

/-! `CREATE TYPE`: the checks on a new type, the routines its options name, and
the multirange and the constructors that a range brings along. -/

namespace SafeMigrate

structure CreateType where
  id : ObjectRef
  kind : TypeKind
  multirangeName : Option ObjectRef

section Options

def baseTypeStorageConflict (storage : String) (internallength : Option BaseTypeLength) :
    Option String :=
  if toAsciiLowercase storage ∉ ["plain", "external", "extended", "main"] then
    some ("storage \"" ++ storage ++ "\" not recognized")
  else match internallength with
    | some (.fixed _) =>
      if eqIgnoreAsciiCase storage "plain" then none
      else some "fixed-size types must have storage PLAIN"
    | _ => none

def baseTypeOptionConflict (options : BaseTypeOptions) : Option String :=
  options.storage.bind fun storage => baseTypeStorageConflict storage options.internallength

/-- `routine_references_mut`. -/
def BaseTypeOptions.mapRoutineReferences (options : BaseTypeOptions) (f : String → String) :
    BaseTypeOptions :=
  { options with
    input := options.input.map f, output := options.output.map f
    receive := options.receive.map f, send := options.send.map f
    typmodIn := options.typmodIn.map f, typmodOut := options.typmodOut.map f
    analyze := options.analyze.map f, subscript := options.subscript.map f }

/-- Two quotation marks in a row stand for one. -/
def unescapeQuotes : List Char → List Char
  | c :: d :: rest =>
    if c = quotationMark ∧ d = quotationMark then quotationMark :: unescapeQuotes rest
    else c :: unescapeQuotes (d :: rest)
  | cs => cs

def unquoteIdentifier (identifier : String) : String :=
  match identifier.toList with
  | first :: rest =>
    match rest.reverse with
    | last :: inner =>
      if first = quotationMark ∧ last = quotationMark then
        String.ofList (unescapeQuotes inner.reverse)
      else identifier
    | [] => identifier
  | [] => identifier

/-- The schema, the name and the argument list of a written routine. -/
def splitRoutineReference (written : String) : Option String × String × Option String :=
  let (head, signature) := match splitOnce '(' written with
    | some (head, args) => (head, some ("(" ++ args))
    | none => (written, none)
  match rsplitOnce '.' head with
  | some (schema, name) => (some (unquoteIdentifier schema), unquoteIdentifier name, signature)
  | none => (none, unquoteIdentifier head, signature)

/-- The name of a routine without its argument list. -/
def routineName (routine : ObjectId) : String :=
  ((splitOnce '(' routine.name).map (·.1)).getD routine.name

def trimQuotes (text : String) : String :=
  String.ofList (((text.toList.dropWhile (· == quotationMark)).reverse.dropWhile
    (· == quotationMark)).reverse)

end Options

namespace AnalysisState

variable (s : AnalysisState)

/-- Routines are never looked for in the temporary schema. -/
def routineSearchPath : List SearchPathEntry :=
  s.searchPath.filter fun entry => entry.name != some sessionTempSchema

def presentRoutinesNamed (schema name : String) : List ObjectId :=
  (s.functions.entries.filter fun entry =>
    entry.1.schema == schema && routineName entry.1 == name && entry.2.isPresent).map (·.1)

/-- The routine with this name in the first schema that has any, if it is the
only one there. -/
def findUniqueRoutine (name : String) (signature : Option String) :
    List String → Option ObjectId
  | [] => none
  | schema :: schemas =>
    match signature with
    | some signature =>
      if s.routineIsPresent ⟨schema, name ++ signature⟩ then some ⟨schema, name ++ signature⟩
      else findUniqueRoutine name (some signature) schemas
    | none =>
      match s.presentRoutinesNamed schema name with
      | [] => findUniqueRoutine name none schemas
      | [routine] => some routine
      | _ => none

def resolveUniqueRoutineReference (written : String) : Option ObjectId :=
  let (schemaHint, name, signature) := splitRoutineReference written
  s.findUniqueRoutine name signature (match schemaHint with
    | some schema => [schema]
    | none => s.routineSearchPath.filterMap SearchPathEntry.searchedSchema)

def canonicalizeBaseTypeOptions (options : BaseTypeOptions) : BaseTypeOptions :=
  options.mapRoutineReferences fun written =>
    match s.resolveUniqueRoutineReference written with
    | some id => id.display
    | none => written

/-- The routine that a range names, with the argument list it must have. -/
def resolveInternalRoutineId (written signature : String) : Option ObjectId :=
  match rsplitOnce '.' written with
  | some (schema, name) =>
    let id : ObjectId := ⟨trimQuotes schema, trimQuotes name ++ "(" ++ signature ++ ")"⟩
    if s.routineIsPresent id then some id else none
  | none => s.routineSearchPath.findSome? fun entry => do
    let schema ← entry.searchedSchema
    let id : ObjectId := ⟨schema, trimQuotes written ++ "(" ++ signature ++ ")"⟩
    if s.routineIsPresent id then some id else none

end AnalysisState

/-- The types that the parts of a new type are declared with. -/
def TypeKind.declaredTypes : TypeKind → List String
  | .composite fields => fields.map (·.dataType)
  | .domain state => [state.baseType]
  | .range state => state.subtype.toList
  | .base _ options => options.element.toList
  | .enum _ | .multirange _ => []

def TypeKind.optionConflict : TypeKind → Option String
  | .base _ options => baseTypeOptionConflict options
  | _ => none

def TypeKind.repeatedLabel : TypeKind → Option String
  | .enum variants => CreateTable.firstRepeated [] variants
  | _ => none

def checkCreatedType (text : SqlText) (kind : TypeKind) : Statement Unit := do
  refuseFound kind.optionConflict fun reason => reason
  refuseFound kind.repeatedLabel fun label => "enum label \"" ++ label ++ "\" already exists"
  kind.declaredTypes.forM (checkDeclaredType text)

namespace CreateType

variable (create : CreateType) (text : TypeText)

def multirangeId : ObjectRef :=
  create.multirangeName.getD ⟨multirangeCompanionId create.id.id, false⟩

/-- A range with the routines its options name. -/
def resolveRangeRoutines (s : AnalysisState) (range : RangeState) : RangeState :=
  let canonicalId := match range.canonical with
    | some canonical => s.resolveInternalRoutineId canonical create.id.display
    | none => range.canonicalId
  let signature := (range.subtypeId.map ObjectId.display) <|> range.subtype
  let subtypeDiffId := match range.subtypeDiff, signature with
    | some subtypeDiff, some signature =>
      s.resolveInternalRoutineId subtypeDiff (signature ++ "," ++ signature)
    | _, _ => range.subtypeDiffId
  { range with canonicalId, subtypeDiffId }

def resolveField (field : CompositeFieldState) : Statement CompositeFieldState := do
  let (collation, collationId) ←
    resolveCollation text field.dataType (field.collation.map WrittenName.parse)
  pure { field with collation, collationId }

/-- A constructor of a range or a multirange, which belongs to that type. -/
def makeConstructor (id : ObjectId) (argTypes : List String) (argTypeIds : List (Option ObjectId))
    (owner : ObjectRef) : FunctionState :=
  { id, routineKind := .function, argTypes, argTypeIds, returnType := owner.display,
    returnsSet := false, parameters := [], defaultCount := 0, returnTypeId := some owner.id,
    volatility := .immutable, language := "internal", security := .invoker,
    internalTypeOwner := some owner.id, aggregate := none }

/-- The constructors that come with a range, those of its multirange in the
schema of the range. -/
def constructors (range : RangeState) : List FunctionState :=
  let subtype := range.subtype.getD "anyelement"
  let id := create.id.id
  let multirange := create.multirangeId
  let routine (name args : String) : ObjectId := ⟨id.schema, name ++ "(" ++ args ++ ")"⟩
  [ makeConstructor (routine id.name (subtype ++ "," ++ subtype)) [subtype, subtype]
      [range.subtypeId, range.subtypeId] create.id,
    makeConstructor (routine id.name (subtype ++ "," ++ subtype ++ ",text"))
      [subtype, subtype, "text"]
      [range.subtypeId, range.subtypeId, some ⟨systemCatalogSchema, "text"⟩] create.id,
    makeConstructor (routine multirange.id.name "") [] [] multirange,
    makeConstructor (routine multirange.id.name id.name) [id.name] [some id] multirange,
    makeConstructor (routine multirange.id.name ("VARIADIC " ++ id.name ++ "[]")) [id.name ++ "[]"]
      [some (arrayTypeId id)] multirange ]

/-- What the type is created as: with its names resolved, and for a range with
the multirange it is going to have. -/
def resolveKind : Statement TypeKind :=
  match create.kind with
  | .base false options => do pure (.base false ((← get).canonicalizeBaseTypeOptions options))
  | .composite fields => do pure (.composite (← fields.mapM (resolveField text)))
  | .range range => do
    let range := create.resolveRangeRoutines (← get) range
    refuseIf ((← get).relationNamespaceIsTaken create.multirangeId.id)
      ("type '" ++ create.multirangeId.display ++ "' already exists")
    ensureCreationTarget create.multirangeId
    pure (.range { range with multirange := some create.multirangeId.id })
  | kind => pure kind

end CreateType

namespace AnalysisState

/-- `snapshot_function` followed by an insertion. -/
def putFunction (s : AnalysisState) (f : FunctionState) : AnalysisState :=
  let s := s.snapshotFunction f.id
  s.setFunctions (s.functions.insert f.id (.present f))

/-- A type of the current role and the current generation. -/
def insertType (s : AnalysisState) (id : ObjectId) (kind : TypeKind) : AnalysisState :=
  s.setTypes (s.types.insert id
    (.present { id, generation := s.generationCounter, owner := ⟨"", s.currentRole⟩, kind }))

/-- `snapshot_type` and an insertion under a new generation. -/
def putNewType (s : AnalysisState) (id : ObjectId) (kind : TypeKind) : AnalysisState :=
  ((s.snapshotType id).bumpGeneration).insertType id kind

/-- The generation that follows is covered by the entry of the one before. -/
def putCompanionType (s : AnalysisState) (id : ObjectId) (kind : TypeKind) : AnalysisState :=
  let s := s.snapshotType id
  (s.setGenerationCounter (s.generationCounter + 1)).insertType id kind

end AnalysisState

namespace CreateType

variable (create : CreateType) (text : TypeText)

/-- A shell keeps its identity when its definition arrives. -/
def completeShell (existing : TypeState) : Statement MutationResult :=
  match existing.kind, create.kind with
  | .base true _, .base false options => do
    refuseFound (baseTypeOptionConflict options) fun reason => reason
    modify fun s =>
      let options := s.canonicalizeBaseTypeOptions options
      let s := s.snapshotType create.id.id
      s.setTypes (s.types.insert create.id.id
        (.present { existing with kind := .base false options }))
    pure .applied
  | _, _ => refuse ("type '" ++ create.id.display ++ "' already exists")

/-- The writes of an accepted creation: constructors, the type, its multirange. -/
def introduce (kind : TypeKind) (s : AnalysisState) : AnalysisState :=
  match kind with
  | .range range =>
    (((create.constructors range).foldl AnalysisState.putFunction s).putNewType create.id.id
      kind).putCompanionType create.multirangeId.id (.multirange (some create.id.id))
  | _ => s.putNewType create.id.id kind

def applyNew : Statement MutationResult := do
  refuseIf ((← get).relationNamespaceIsTaken create.id.id)
    ("type '" ++ create.id.display ++ "' already exists")
  checkCreatedType text.toSqlText create.kind
  let kind ← create.resolveKind text
  modify (create.introduce kind)
  pure .applied

def apply : Statement MutationResult := do
  ensureCreationTarget create.id
  match (← get).types.lookup create.id.id with
  | some (.present existing) => create.completeShell existing
  | _ => create.applyNew text

end CreateType

end SafeMigrate
