import SafeMigrate.DropTable
import SafeMigrate.MapRebuild
import SafeMigrate.Statement

/-! `DROP SCHEMA`: the refusals, and the sweep of CASCADE over types,
relations, sequences, routines, triggers, constraints, publications and edges. -/

namespace SafeMigrate

section DefaultText

def singleQuote : Char := Char.ofNat 39

def doubleQuote : Char := Char.ofNat 34

/-- The text of a string literal after its opening quote. -/
def literalText : List Char → List Char
  | [] => []
  | [c] => if c = singleQuote then [] else [c]
  | c :: d :: rest =>
    if c = singleQuote then
      if d = singleQuote then singleQuote :: literalText rest else []
    else c :: literalText (d :: rest)

/-- Everything before the first `::`. -/
def beforeCast : List Char → List Char
  | [] => []
  | [c] => [c]
  | c :: d :: rest => if c = ':' ∧ d = ':' then [] else c :: beforeCast (d :: rest)

def trimMatches (c : Char) (text : List Char) : List Char :=
  ((text.dropWhile (· == c)).reverse.dropWhile (· == c)).reverse

def quoteAlways (identifier : String) : String :=
  String.ofList (doubleQuote :: (identifier.toList.flatMap fun c =>
    if c = doubleQuote then [doubleQuote, doubleQuote] else [c]) ++ [doubleQuote])

def sequenceLiteralMatches (raw : String) (sequence : ObjectId) : Bool :=
  let trimmed := (trimText raw).toList
  let value := String.ofList <|
    match trimmed with
    | c :: rest =>
      if c = singleQuote then literalText rest else trimMatches doubleQuote (beforeCast trimmed)
    | [] => []
  [sequence.schema ++ "." ++ sequence.name,
    quoteAlways sequence.schema ++ "." ++ quoteAlways sequence.name,
    sequence.schema ++ "." ++ quoteAlways sequence.name,
    quoteAlways sequence.schema ++ "." ++ sequence.name,
    sequence.name, quoteAlways sequence.name].contains value

def isNextvalName (name : String) : Bool :=
  eqIgnoreAsciiCase (((rsplitOnce '.' name).map (·.2)).getD name) "nextval"

def expressionReferencesSequence (sequence : ObjectId) : ExprIr → Bool
  | .functionCall name args =>
    (isNextvalName name && referencesFirst args) || referencesAny args
  | .literal value => sequenceLiteralMatches value sequence
  | .binaryOp left _ right =>
    expressionReferencesSequence sequence left || expressionReferencesSequence sequence right
  | .cast expr _ => expressionReferencesSequence sequence expr
  | .unaryOp _ expr => expressionReferencesSequence sequence expr
  | .columnRef _ => false
  | .sentinel _ => false
  | .omitted => false
where
  referencesFirst : List ExprIr → Bool
  | [] => false
  | arg :: _ => expressionReferencesSequence sequence arg
  referencesAny : List ExprIr → Bool
  | [] => false
  | arg :: args => expressionReferencesSequence sequence arg || referencesAny args

def rawDefaultReferencesSequence (raw : String) (sequence : ObjectId) : Bool :=
  let lowered := toAsciiLowercase raw
  let tokens := lowered.toList.splitOnP fun c => !(c.isAlphanum || c == '_')
  let enclosed (c : Char) (text : List Char) : List Char := c :: text ++ [c]
  let schemaText := sequence.schema.toList
  let nameText := sequence.name.toList
  let mentions (text : List Char) : Bool := decide (enclosed singleQuote text <:+: raw.toList)
  tokens.contains "nextval".toList &&
    (mentions (schemaText ++ '.' :: nameText) || mentions nameText ||
      mentions (enclosed doubleQuote schemaText ++ '.' :: enclosed doubleQuote nameText) ||
      mentions (enclosed doubleQuote nameText) ||
      decide ((enclosed singleQuote (schemaText ++ '.' :: nameText)).map Char.toLower <:+:
        lowered.toList))

end DefaultText

structure DropSchema where
  names : List String
  ifExists : Bool
  cascade : Bool

namespace AnalysisState

def extensionSchemaDropConflict (s : AnalysisState) (name : String) : Option MutationResult :=
  let extension := s.extensions.entries.findSome? fun entry =>
    match entry.2 with
    | .dropped => none
    | .present extension =>
      if ∃ member ∈ extension.members, member.kind = .schema ∧ member.id.name = name then
        some entry.1
      else none
  extension.map fun extension => .rejected ("cannot drop schema " ++ name ++
    " because extension " ++ extension ++ " requires it")

/-- The columns with a recorded default dependency, and those whose
dependency leads to the sequence. -/
def defaultDependencyColumns (s : AnalysisState) (sequence : Option ObjectId) :
    List (ObjectId × String) :=
  s.graph.edges.filterMap fun edge =>
    match edge.kind with
    | .columnDefaultOnSequence column =>
      if sequence.all (s.graph.resolveRename edge.referenced == ·) then
        some (s.graph.resolveRename edge.dependent, column)
      else none
    | _ => none

/-- The column's default goes with the sequence. A recorded dependency of the
column overrides what its default's text seems to name. -/
def defaultDependsOnSequence (s : AnalysisState) (sequence : ObjectId) (kind : SequenceKind)
    (ownedBy : Option (ObjectId × String)) (relation : ObjectId) (column : Column) : Bool :=
  let key := (relation, column.name)
  let generatedDefault := kind == .serialLike && ownedBy == some key
  let typedDependency := (s.defaultDependencyColumns (some sequence)).contains key
  let referencesSequence := !(s.defaultDependencyColumns none).contains key &&
    (column.default.any (expressionReferencesSequence sequence) ||
      column.defaultExprText.any (rawDefaultReferencesSequence · sequence))
  generatedDefault || typedDependency || referencesSequence

/-- Clears the first column of that name. -/
def clearDefault (name : String) (columns : List Column) : List Column :=
  match columns.findIdx? (·.name == name) with
  | none => columns
  | some i => columns.modify i fun column => { column with default := none, defaultExprText := none }

def clearColumnDefault (s : AnalysisState) (key : ObjectId × String) : AnalysisState :=
  let s := s.snapshotRelation key.1
  match s.relations.lookup key.1 with
  | some (.present relation) =>
    s.setRelations (s.relations.insert key.1
      (.present { relation with columns := clearDefault key.2 relation.columns }))
  | _ => s

def clearSequenceDefaultsOnCascade (s : AnalysisState) (sequence : ObjectId) (kind : SequenceKind)
    (ownedBy : Option (ObjectId × String)) : AnalysisState :=
  let columnsToClear := s.relations.entries.flatMap fun entry =>
    match entry.2 with
    | .present relation => (relation.columns.filter
        (s.defaultDependsOnSequence sequence kind ownedBy entry.1)).map ((entry.1, ·.name))
    | .dropped => []
  columnsToClear.foldl clearColumnDefault s

/-- Whether an object of this identity lives in one of the schemas. -/
def inSchemas (names : List String) (id : ObjectId) : Bool := decide (id.schema ∈ names)

def schemaSequencesToDrop (s : AnalysisState) (names : List String)
    (droppedRelations : List ObjectId) :
    List (ObjectId × SequenceKind × Option (ObjectId × String)) :=
  s.sequences.entries.filterMap fun entry =>
    match entry.2 with
    | .present sequence =>
      let ownedByDroppedRelation := sequence.ownedBy.any fun owner =>
        decide (s.graph.resolveRename owner.1 ∈ droppedRelations)
      if inSchemas names entry.1 || ownedByDroppedRelation then
        some (entry.1, sequence.kind, sequence.ownedBy)
      else none
    | .dropped => none

/-- The edge runs a trigger's routine that is dropped with the schemas. -/
def callsDropped (functions : List ObjectId) (trigger : ObjectId) (edge : DependencyEdge) : Bool :=
  match edge.kind with
  | .triggerOnTable triggerId functionId _ => triggerId == trigger && decide (functionId ∈ functions)
  | _ => false

def schemaTriggersToDrop (s : AnalysisState) (names : List String)
    (droppedRelations functions : List ObjectId) : List ObjectId :=
  s.triggers.entries.filterMap fun entry =>
    match entry.2 with
    | .present trigger =>
      let functionIsDropped := s.graph.edges.any (callsDropped functions entry.1)
      if inSchemas names entry.1 ||
          decide (s.graph.resolveRename trigger.tableId ∈ droppedRelations) ||
            functionIsDropped then some entry.1
      else none
    | .dropped => none

/-- A listed object stays unless its written schema is dropped. -/
def schemaObjectRetained (names : List String) : PublicationObjectFact → Bool
  | .table name .. => name.schema.all fun schema => decide (schema.resolve ∉ names)
  | .schemaTables schema _ => decide (schema ∉ names)
  | _ => true

def retainSchemaObjects (names : List String) (publication : PublicationState) : PublicationState :=
  match publication.scope with
  | .explicit objects =>
    { publication with scope := .explicit (objects.filter (schemaObjectRetained names)) }
  | .allTables _ => publication

/-- Edges that a cascading schema drop keeps. -/
def schemaKeeps (resolve : ObjectId → ObjectId) (names : List String) (closure : CascadeResult)
    (triggers functions : List ObjectId) (edge : DependencyEdge) : Bool :=
  let dependent := resolve edge.dependent
  let referenced := resolve edge.referenced
  if dependent ∈ closure.droppedRelations ∨ referenced ∈ closure.droppedRelations ∨
      dependent ∈ closure.droppedIndexes ∨ inSchemas names edge.dependent = true ∨
        inSchemas names edge.referenced = true then false
  else match edge.kind with
    | .foreignKey (some name) .. => !dropsConstraint closure (dependent, name)
    | .triggerOnTable triggerId functionId _ =>
      decide (triggerId ∉ triggers) && decide (functionId ∉ functions)
    | _ => true

/-- The relations the sweep starts from: those that live in the schemas. -/
def schemaRelations (s : AnalysisState) (names : List String) : List ObjectId :=
  (s.relations.entries.filter fun entry => inSchemas names entry.1 && entry.2.isPresent).map (·.1)

/-- Routines that go with the schemas, tombstones included. -/
def schemaFunctions (s : AnalysisState) (names : List String) : List ObjectId :=
  s.functions.keys.filter (inSchemas names)

/-- A sequence goes with its column defaults and without a snapshot of its own. -/
def dropSchemaSequence (s : AnalysisState)
    (sequence : ObjectId × SequenceKind × Option (ObjectId × String)) : AnalysisState :=
  let s := s.clearSequenceDefaultsOnCascade sequence.1 sequence.2.1 sequence.2.2
  s.setSequences (s.sequences.insert sequence.1 .dropped)

/-- Marks the objects with these identities dropped. -/
def tombstoned {α β : Type} [DecidableEq α] (m : KeyedMap α (Overlay β)) (ids : List α) :
    KeyedMap α (Overlay β) :=
  ids.foldl (fun m id => m.insert id .dropped) m

/-- The sweep behind the type cascade. The namespace snapshot covers its
writes up to the edges. -/
def sweepSchemas (s : AnalysisState) (names : List String) : AnalysisState :=
  let closure := s.cascadeForRelations (s.schemaRelations names)
  let droppedRelations := closure.droppedRelations.filter s.relationIsPresent
  let s := s.taintIncomplete (closure.droppedRelations.any fun id => !s.relationIsPresent id)
  let s := s.setRelations (tombstoned s.relations droppedRelations)
  let s := s.setTypes (tombstoned s.types (s.types.keys.filter (inSchemas names)))
  let s := (s.schemaSequencesToDrop names closure.droppedRelations).foldl dropSchemaSequence s
  let functions := s.schemaFunctions names
  let s := s.setFunctions (tombstoned s.functions functions)
  let triggers := s.schemaTriggersToDrop names closure.droppedRelations functions
  let s := s.setTriggers (tombstoned s.triggers triggers)
  let s := s.removeDroppedConstraints closure.droppedRelations closure.droppedConstraints
  let s := s.setPendingValidation (s.pendingValidation.filter fun key => !inSchemas names key.1)
  let s := s.setPublications
    (MapRebuild.mapValues (Overlay.map (retainSchemaObjects names)) s.publications)
  s.retainGraphEdges (schemaKeeps s.graph.resolveRename names closure triggers functions)

/-- `DROP SCHEMA ... CASCADE` of present schemas. The cascade of the types in
them answers whether it could enumerate every dependent. -/
def dropSchemasCascade (s : AnalysisState)
    (typeCascade : AnalysisState → List ObjectId → Bool × AnalysisState) (names : List String) :
    AnalysisState :=
  let s := s.snapshotNamespace
  let schemaTypes := (s.types.entries.filter fun entry =>
    inSchemas names entry.1 && entry.2.isPresent).map (·.1)
  let s :=
    if schemaTypes.isEmpty then s
    else
      let (complete, s) := typeCascade s schemaTypes
      s.taintIncomplete !complete
  s.sweepSchemas names

def tombstoneSchema (s : AnalysisState) (name : String) : AnalysisState :=
  let s := s.snapshotSchema name
  s.setSchemas (s.schemas.insert name .dropped)

/-- The listed schemas, each of which is found or skipped; the second part
says whether one of them is unknown. -/
def scanDropSchemas (s : AnalysisState) (ifExists : Bool) :
    List String → Bool → Except (MutationResult × AnalysisState) (Bool × AnalysisState)
  | [], unknown => .ok (unknown, s)
  | name :: rest, unknown =>
    match s.schemaLookup name with
    | .tombstone | .authoritativelyAbsent =>
      if ifExists then scanDropSchemas s ifExists rest unknown
      else .error (.rejected ("schema '" ++ name ++ "' does not exist"), s)
    | .unknown => scanDropSchemas (s.taint .unknownObjectState .chain) ifExists rest true
    | _ => scanDropSchemas s ifExists rest unknown

/-- The debug format of a list of strings of printable characters. -/
def debugStrings (texts : List String) : String :=
  let backslash := Char.ofNat 92
  let debugString (text : String) : String :=
    String.ofList (doubleQuote :: (text.toList.flatMap fun c =>
      if c = doubleQuote ∨ c = backslash then [backslash, c] else [c]) ++ [doubleQuote])
  "[" ++ ", ".intercalate (texts.map debugString) ++ "]"

/-- RESTRICT never drops: a schema that looks empty may hold objects of the
families that are not modelled. -/
def restrictDropSchema (s : AnalysisState) (names : List String) : MutationResult × AnalysisState :=
  let holds {β : Type} (m : KeyedMap ObjectId (Overlay β)) : Bool :=
    m.entries.any fun entry => inSchemas names entry.1 && entry.2.isPresent
  if s.graph.edges.any fun edge => s.dependencyEdgeIsCurrent edge && !edge.kind.isRenameTo &&
      inSchemas names edge.referenced && !inSchemas names edge.dependent then
    (.rejected ("schema(s) " ++ debugStrings names ++
      " have dependent objects outside the schema; use CASCADE"), s)
  else if holds s.relations || holds s.types || holds s.sequences || holds s.functions ||
      holds s.triggers then
    (.rejected ("schema(s) " ++ debugStrings names ++
      " still contain objects; use CASCADE to drop them"), s)
  else s.unresolved .unmodeledState

def applyDropSchema (s : AnalysisState)
    (typeCascade : AnalysisState → List ObjectId → Bool × AnalysisState) (drop : DropSchema) :
    MutationResult × AnalysisState :=
  match drop.names.findSome? s.extensionSchemaDropConflict with
  | some result => (result, s)
  | none =>
    match s.scanDropSchemas drop.ifExists drop.names false with
    | .error refused => refused
    | .ok (true, s) => s.unresolved .unknownObjectState
    | .ok (false, s) =>
      let presentNames := drop.names.filter s.schemaIsPresent
      if presentNames.isEmpty then (.noOp, s)
      else if drop.cascade then
        let s := s.dropSchemasCascade typeCascade presentNames
        let s := presentNames.foldl tombstoneSchema s
        (.applied, s.snapshotSearchPath.refreshRoleSensitiveSearchPath)
      else s.restrictDropSchema drop.names

end AnalysisState

end SafeMigrate
