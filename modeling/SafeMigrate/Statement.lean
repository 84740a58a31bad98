import SafeMigrate.Command
import SafeMigrate.Lookup

/-! Statements as computations on the analysis state, the checks they share,
and the names they generate for implicit objects. -/

namespace SafeMigrate

abbrev Statement (α : Type) := Command MutationResult AnalysisState α

/-- `return MutationResult::conflict(reason)`. -/
def refuse {α : Type} (reason : String) : Statement α := throw (.rejected reason)

/-- `return self.unresolved(code)`. -/
def leaveUnresolved {α : Type} (code : EvidenceCode) : Statement α := do
  modify fun s => s.taint code .chain
  throw (.unresolved code)

/-- `return self.unresolved_statement(code)`. -/
def leaveUnresolvedStatement {α : Type} (code : EvidenceCode) : Statement α := do
  modify fun s => s.taint code .statement
  throw (.unresolved code)

def refuseIf (p : Prop) [Decidable p] (reason : String) : Statement Unit :=
  if p then refuse reason else pure ()

/-- Refuses with the reason that the offending element gives. -/
def refuseFound {α : Type} (found : Option α) (reason : α → String) : Statement Unit :=
  match found with
  | some x => refuse (reason x)
  | none => pure ()

def leaveUnresolvedIf (p : Prop) [Decidable p] (code : EvidenceCode) : Statement Unit :=
  if p then leaveUnresolved code else pure ()

def taintIf (p : Prop) [Decidable p] (code : EvidenceCode) (scope : EvidenceScope) :
    Statement Unit :=
  if p then modify fun s => s.taint code scope else pure ()

/-- What `ParsedDataType::parse` says of a declared type. -/
structure DeclaredType where
  isBuiltin : Bool
  isValidDeclaration : Bool
  needsWidenedNumericScale : Bool
  canonicalName : String
  isArray : Bool

/-- Readings of SQL text that rest on the SQL parser and its lexer, and on the
catalogue of built-in types. -/
structure SqlText where
  parseDataType : String → DeclaredType
  parseTypeReference : String → Option (Option String × String × Bool)
  normalizedConstraintExpression : String → String
  canonicalPartitionBound : String → String
  partitionKeys : String → Option (List (String × String))
  partitionCheckClauses :
    String → String → List (String × String) → RelationState → Option (List String)
  renameColumnSource : String → String → String → String → Option String
  renamePartitionKeySource : String → String → String → String → Option String

def trimText (text : String) : String :=
  String.ofList (((text.toList.dropWhile Char.isWhitespace).reverse.dropWhile
    Char.isWhitespace).reverse)

def eqIgnoreAsciiCase (left right : String) : Bool := toAsciiLowercase left == toAsciiLowercase right

/-- Columns an expression reads, if its conversion kept all of them. -/
def ExprIr.referencedColumns : ExprIr → Option (List String)
  | .literal _ => some []
  | .columnRef column => some [column]
  | .functionCall _ args => referencedArgs args
  | .binaryOp left _ right => do
    let before ← left.referencedColumns
    let after ← right.referencedColumns
    pure (before ∪ after)
  | .cast expr _ => expr.referencedColumns
  | .unaryOp _ expr => expr.referencedColumns
  | .sentinel _ => none
  | .omitted => none
where
  referencedArgs : List ExprIr → Option (List String)
  | [] => some []
  | arg :: args => do
    let before ← arg.referencedColumns
    let after ← referencedArgs args
    pure (before ∪ after)

section Names

/-- The lengths left of two name parts once they fit into `available` bytes. -/
def fitNames (available : Nat) : Nat → Nat → Nat → Nat × Nat
  | 0, name1, name2 => (name1, name2)
  | fuel + 1, name1, name2 =>
    if name1 + name2 ≤ available then (name1, name2)
    else if name2 < name1 then fitNames available fuel (name1 - 1) name2
    else fitNames available fuel name1 (name2 - 1)

def truncateBytes (value : String) (maxBytes : Nat) : String :=
  String.ofList (takeBytes maxBytes value.toList)

def postgresObjectName (name1 : String) (name2 : Option String) (label : String) : String :=
  let separators := (if name2.isSome then 1 else 0) + 1
  let available := maxIdentifierBytes - (label.utf8ByteSize + separators)
  let bytes1 := name1.utf8ByteSize
  let bytes2 := (name2.map String.utf8ByteSize).getD 0
  let (bytes1, bytes2) := fitNames available (bytes1 + bytes2) bytes1 bytes2
  match name2 with
  | some name2 => truncateBytes name1 bytes1 ++ "_" ++ truncateBytes name2 bytes2 ++ "_" ++ label
  | none => truncateBytes name1 bytes1 ++ "_" ++ label

def suffixedLabel (label : String) (suffix : Nat) : String :=
  if suffix = 0 then label else label ++ toString suffix

/-- The first candidate that is free, counting from `suffix`. -/
def firstFree {α : Type} (taken : α → Bool) (candidate : Nat → α) : Nat → Nat → α
  | 0, suffix => candidate suffix
  | fuel + 1, suffix =>
    if taken (candidate suffix) then firstFree taken candidate fuel (suffix + 1)
    else candidate suffix

end Names

/-- PostgreSQL identifiers hold no NUL, so the key of a trigger is unambiguous. -/
def triggerKey (tableId : ObjectId) (name : String) : ObjectId :=
  ⟨tableId.schema, tableId.name ++ "\x00" ++ name⟩

def sequenceNextvalDefault (id : ObjectId) : ExprIr :=
  .functionCall "nextval" [.literal (id.schema ++ "." ++ id.name)]

namespace AnalysisState

def relationNamespaceIsTaken (s : AnalysisState) (id : ObjectId) : Bool :=
  s.relationNamespaceObjectIsPresent id || s.typeIsPresent id

def constraintNameIsTaken (s : AnalysisState) (schema name : String) : Bool :=
  s.constraints.keys.any fun key => key.1.schema == schema && key.2 == name

/-- More candidates than names that could be taken. -/
def nameFuel (s : AnalysisState) : Nat :=
  s.relations.keys.length + s.sequences.keys.length + s.types.keys.length +
    s.graph.edges.length + s.constraints.keys.length

def nextGeneratedConstraintNameAvoiding (s : AnalysisState) (table : ObjectId) (name1 : String)
    (name2 : Option String) (label : String) (reserved : List String) : String :=
  firstFree (fun name => decide (name ∈ reserved) || s.constraintNameIsTaken table.schema name)
    (fun suffix => postgresObjectName name1 name2 (suffixedLabel label suffix))
    (reserved.length + s.nameFuel) 0

def nextGeneratedRelationNameAvoiding (s : AnalysisState) (schema name1 : String)
    (name2 : Option String) (label : String) (reserved : List ObjectId) : ObjectId :=
  firstFree (fun id => decide (id ∈ reserved) || s.relationNamespaceIsTaken id)
    (fun suffix => ⟨schema, postgresObjectName name1 name2 (suffixedLabel label suffix)⟩)
    (reserved.length + s.nameFuel) 0

def nextGeneratedStatisticsNameAvoiding (s : AnalysisState) (schema table : String)
    (columns : List String) (reserved : List ObjectId) : ObjectId :=
  let inUse (id : ObjectId) : Bool := s.relations.entries.any fun entry =>
    match entry.2 with
    | .present relation => relation.extendedStatistics.keys.contains id
    | .dropped => false
  firstFree (fun id => decide (id ∈ reserved) || inUse id)
    (fun suffix => ⟨schema, postgresObjectName table (some ("_".intercalate columns))
      (suffixedLabel "stat" suffix)⟩)
    (s.relations.entries.foldl (fun fuel entry =>
      match entry.2 with
      | .present relation => fuel + relation.extendedStatistics.keys.length
      | .dropped => fuel) reserved.length) 0

def nextImplicitSequenceId (s : AnalysisState) (table : ObjectId) (column : String)
    (reserved : List ObjectId) : ObjectId :=
  s.nextGeneratedRelationNameAvoiding table.schema table.name (some column) "seq" reserved

def relationOrIndexLookup (s : AnalysisState) (id : ObjectId) : ObjectLookup :=
  if s.relationIsPresent id || s.indexIsPresent id then .present
  else match s.relations.lookup id with
    | some .dropped => .tombstone
    | _ =>
      if s.baselineCoversFamilyObject id .relations || s.baselineCoversFamilyObject id .indexes then
        .authoritativelyAbsent
      else .unknown

/-- A present relation under this identity. -/
def presentRelation (s : AnalysisState) (id : ObjectId) : Option RelationState :=
  match s.relations.lookup id with
  | some (.present relation) => some relation
  | _ => none

def relationSearchPath (s : AnalysisState) : List SearchPathEntry :=
  if !s.tempNamespaceExists ||
      s.searchPath.any fun entry => entry.searchedSchema == some sessionTempSchema then
    s.searchPath
  else .schema sessionTempSchema :: s.searchPath

def resolveTypeReference (s : AnalysisState) (text : SqlText) (raw : String) : Option ObjectId := do
  let (schema, name, isArray) ← text.parseTypeReference raw
  let found (id : ObjectId) : Bool := s.typeIsPresent id || s.relationIsPresent id
  let asArray (element : ObjectId) : ObjectId :=
    if isArray then ⟨element.schema, name ++ "[]"⟩ else element
  match schema with
  | some schema => if found ⟨schema, name⟩ then some (asArray ⟨schema, name⟩) else none
  | none => s.relationSearchPath.findSome? fun entry => do
    let schema ← entry.searchedSchema
    if found ⟨schema, name⟩ then some (asArray ⟨schema, name⟩) else none

def declaredTypeResolves (s : AnalysisState) (text : SqlText) (declared : String) : Bool :=
  (text.parseDataType declared).isBuiltin || (s.resolveTypeReference text declared).isSome

def noteTempObjectCreated (s : AnalysisState) : AnalysisState :=
  refreshRoleSensitiveSearchPath { s with sawTempObject := true }

end AnalysisState

def widenedNumericScaleVersion : Nat := 150000

/-- Refuses a declared type that the server would refuse. -/
def checkDeclaredType (text : SqlText) (declared : String) : Statement Unit := do
  let s ← get
  let parsed := text.parseDataType declared
  if !parsed.isValidDeclaration then
    refuse ("type '" ++ declared ++ "' is not a valid type declaration")
  else if !s.declaredTypeResolves text declared then
    match text.parseTypeReference declared with
    | none => modify fun s => s.taint .unresolvedReference .statement
    | some (schema, name, _) =>
      if schema.all s.schemaAbsenceIsAuthoritative &&
          s.baselineCoversFamilyObject ⟨schema.getD "", name⟩ .types then
        refuse ("type '" ++ declared ++ "' does not exist")
      else modify fun s => s.taint .unknownObjectState .statement
  else if parsed.needsWidenedNumericScale then
    match s.pgVersion with
    | some version =>
      if version < widenedNumericScaleVersion then
        refuse ("type '" ++ declared ++
          "' requires PostgreSQL 15 or later, but the baseline reports " ++ toString version)
      else pure ()
    | none => modify fun s => s.taint .unsupportedSemantics .statement
  else pure ()

def ensureSchemaTarget (schema : String) : Statement Unit := do
  if isSessionTempSchema schema then pure ()
  else match (← get).schemaLookup schema with
    | .present => pure ()
    | .tombstone | .authoritativelyAbsent =>
      refuse (if schema.isEmpty then "no schema has been selected to create in"
        else "schema '" ++ schema ++ "' does not exist")
    | .wrongKind | .unknown => leaveUnresolved .unknownObjectState

def ensureCreationTarget (r : ObjectRef) : Statement Unit := do
  if isSessionTempSchema r.id.schema then pure ()
  else if (← get).lookupShadowed r then leaveUnresolved .unknownObjectState
  else ensureSchemaTarget r.id.schema

def ensureRelationTarget (r : ObjectRef) (expected : RelationKind → Bool)
    (missingReason wrongKindReason : String) : Statement Unit := do
  match (← get).relationLookup r expected with
  | .present => pure ()
  | .wrongKind => refuse wrongKindReason
  | .authoritativelyAbsent | .tombstone => refuse missingReason
  | .unknown => leaveUnresolved .unknownObjectState

section IsCheck

open Command

variable {α : Type}

theorem isCheck_refuse (reason : String) : IsCheck (refuse reason : Statement α) := IsCheck.throw _

theorem isCheck_leaveUnresolved (code : EvidenceCode) :
    IsCheck (leaveUnresolved code : Statement α) := by
  rintro s a t ⟨⟩

theorem isCheck_refuseIf (p : Prop) [Decidable p] (reason : String) :
    IsCheck (refuseIf p reason) :=
  IsCheck.ite (fun _ => isCheck_refuse _) fun _ => IsCheck.pure _

theorem isCheck_refuseFound (found : Option α) (reason : α → String) :
    IsCheck (refuseFound found reason) := by
  unfold refuseFound
  split
  · exact isCheck_refuse _
  · exact IsCheck.pure _

theorem isCheck_leaveUnresolvedIf (p : Prop) [Decidable p] (code : EvidenceCode) :
    IsCheck (leaveUnresolvedIf p code) :=
  IsCheck.ite (fun _ => isCheck_leaveUnresolved _) fun _ => IsCheck.pure _

theorem isCheck_ensureSchemaTarget (schema : String) : IsCheck (ensureSchemaTarget schema) := by
  unfold ensureSchemaTarget
  split
  · exact IsCheck.pure _
  · refine IsCheck.bind IsCheck.get fun s => ?_
    split
    · exact IsCheck.pure _
    all_goals first | exact isCheck_refuse _ | exact isCheck_leaveUnresolved _

theorem isCheck_ensureCreationTarget (r : ObjectRef) : IsCheck (ensureCreationTarget r) := by
  unfold ensureCreationTarget
  split
  · exact IsCheck.pure _
  · refine IsCheck.bind IsCheck.get fun s => ?_
    split
    · exact isCheck_leaveUnresolved _
    · exact isCheck_ensureSchemaTarget _

theorem isCheck_ensureRelationTarget (r : ObjectRef) (expected : RelationKind → Bool)
    (missingReason wrongKindReason : String) :
    IsCheck (ensureRelationTarget r expected missingReason wrongKindReason) := by
  refine IsCheck.bind IsCheck.get fun s => ?_
  split
  · exact IsCheck.pure _
  · exact isCheck_refuse _
  · exact isCheck_refuse _
  · exact isCheck_refuse _
  · exact isCheck_leaveUnresolved _

theorem refuseIf_ok {p : Prop} [Decidable p] {reason : String} {s t : AnalysisState} {a : Unit}
    (h : (refuseIf p reason).run.run s = (.ok a, t)) : t = s ∧ ¬p := by
  by_cases hp : p
  · rw [refuseIf, if_pos hp] at h
    cases h
  · exact ⟨isCheck_refuseIf p reason s a t h, hp⟩

theorem leaveUnresolvedIf_ok {p : Prop} [Decidable p] {code : EvidenceCode} {s t : AnalysisState}
    {a : Unit} (h : (leaveUnresolvedIf p code).run.run s = (.ok a, t)) : t = s ∧ ¬p := by
  by_cases hp : p
  · rw [leaveUnresolvedIf, if_pos hp] at h
    cases h
  · exact ⟨isCheck_leaveUnresolvedIf p code s a t h, hp⟩

end IsCheck

/-- A part of a statement that, where it ends the statement, does not apply it. -/
def Declines {α : Type} (c : Statement α) : Prop := Command.Throws (· ≠ .applied) c

section Declines

open Command

variable {α β : Type}

theorem declines_pure (a : α) : Declines (pure a) := Throws.pure a

theorem declines_get : Declines (get : Statement AnalysisState) := Throws.get

theorem declines_modify (f : AnalysisState → AnalysisState) :
    Declines (modify f : Statement PUnit) := Throws.modify f

theorem Declines.bind {c : Statement α} {k : α → Statement β} (hc : Declines c)
    (hk : ∀ a, Declines (k a)) : Declines (c >>= k) := Throws.bind hc hk

theorem declines_refuse (reason : String) : Declines (refuse reason : Statement α) :=
  Throws.throw (by simp [MutationResult.rejected])

theorem declines_leaveUnresolved (code : EvidenceCode) :
    Declines (leaveUnresolved code : Statement α) :=
  Declines.bind (declines_modify _) fun _ => Throws.throw (by simp)

theorem declines_refuseIf (p : Prop) [Decidable p] (reason : String) :
    Declines (refuseIf p reason) :=
  Throws.ite (fun _ => declines_refuse _) fun _ => Throws.pure _

theorem declines_refuseFound (found : Option α) (reason : α → String) :
    Declines (refuseFound found reason) := by
  unfold refuseFound
  split
  · exact declines_refuse _
  · exact declines_pure _

theorem declines_leaveUnresolvedIf (p : Prop) [Decidable p] (code : EvidenceCode) :
    Declines (leaveUnresolvedIf p code) :=
  Throws.ite (fun _ => declines_leaveUnresolved _) fun _ => Throws.pure _

theorem declines_taintIf (p : Prop) [Decidable p] (code : EvidenceCode) (scope : EvidenceScope) :
    Declines (taintIf p code scope) :=
  Throws.ite (fun _ => declines_modify _) fun _ => Throws.pure _

theorem declines_checkDeclaredType (text : SqlText) (declared : String) :
    Declines (checkDeclaredType text declared) := by
  refine Declines.bind declines_get fun s => ?_
  dsimp only
  split
  · exact declines_refuse _
  · split
    · split
      · exact declines_modify _
      · split
        · exact declines_refuse _
        · exact declines_modify _
    · split
      · split
        · split
          · exact declines_refuse _
          · exact declines_pure _
        · exact declines_modify _
      · exact declines_pure _

theorem declines_ensureSchemaTarget (schema : String) : Declines (ensureSchemaTarget schema) := by
  unfold ensureSchemaTarget
  split
  · exact declines_pure _
  · refine Declines.bind declines_get fun s => ?_
    split
    · exact declines_pure _
    all_goals first | exact declines_refuse _ | exact declines_leaveUnresolved _

theorem declines_ensureCreationTarget (r : ObjectRef) : Declines (ensureCreationTarget r) := by
  unfold ensureCreationTarget
  split
  · exact declines_pure _
  · refine Declines.bind declines_get fun s => ?_
    split
    · exact declines_leaveUnresolved _
    · exact declines_ensureSchemaTarget _

end Declines

/-- A relation between states that recording evidence keeps. -/
class KeepsEvidence (R : AnalysisState → AnalysisState → Prop) : Prop extends
    Std.Refl R, IsTrans AnalysisState R where
  taint (s : AnalysisState) (code : EvidenceCode) (scope : EvidenceScope) :
    R s (s.taint code scope)

section KeepsEvidence

open Command

variable {R : AnalysisState → AnalysisState → Prop} [KeepsEvidence R] {α : Type}

theorem keeps_taint (code : EvidenceCode) (scope : EvidenceScope) :
    Keeps R (modify fun s => s.taint code scope : Statement PUnit) :=
  Keeps.modify fun s => KeepsEvidence.taint s code scope

theorem keeps_refuse (reason : String) : Keeps R (refuse reason : Statement α) := Keeps.throw _

theorem keeps_leaveUnresolved (code : EvidenceCode) :
    Keeps R (leaveUnresolved code : Statement α) :=
  Keeps.bind (keeps_taint code .chain) fun _ => Keeps.throw _

theorem keeps_leaveUnresolvedStatement (code : EvidenceCode) :
    Keeps R (leaveUnresolvedStatement code : Statement α) :=
  Keeps.bind (keeps_taint code .statement) fun _ => Keeps.throw _

theorem keeps_refuseIf (p : Prop) [Decidable p] (reason : String) : Keeps R (refuseIf p reason) :=
  Keeps.ite (fun _ => keeps_refuse _) fun _ => Keeps.pure _

theorem keeps_refuseFound (found : Option α) (reason : α → String) :
    Keeps R (refuseFound found reason) := by
  unfold refuseFound
  split
  · exact keeps_refuse _
  · exact Keeps.pure _

theorem keeps_leaveUnresolvedIf (p : Prop) [Decidable p] (code : EvidenceCode) :
    Keeps R (leaveUnresolvedIf p code) :=
  Keeps.ite (fun _ => keeps_leaveUnresolved _) fun _ => Keeps.pure _

theorem keeps_taintIf (p : Prop) [Decidable p] (code : EvidenceCode) (scope : EvidenceScope) :
    Keeps R (taintIf p code scope) :=
  Keeps.ite (fun _ => keeps_taint _ _) fun _ => Keeps.pure _

theorem keeps_checkDeclaredType (text : SqlText) (declared : String) :
    Keeps R (checkDeclaredType text declared) := by
  unfold checkDeclaredType
  refine Keeps.bind Keeps.get fun s => ?_
  dsimp only
  split
  · exact keeps_refuse _
  · split
    · split
      · exact keeps_taint _ _
      · split
        · exact keeps_refuse _
        · exact keeps_taint _ _
    · split
      · split
        · split
          · exact keeps_refuse _
          · exact Keeps.pure _
        · exact keeps_taint _ _
      · exact Keeps.pure _

theorem keeps_ensureSchemaTarget (schema : String) : Keeps R (ensureSchemaTarget schema) := by
  unfold ensureSchemaTarget
  split
  · exact Keeps.pure _
  · refine Keeps.bind Keeps.get fun s => ?_
    split
    · exact Keeps.pure _
    all_goals first | exact keeps_refuse _ | exact keeps_leaveUnresolved _

theorem keeps_ensureCreationTarget (r : ObjectRef) : Keeps R (ensureCreationTarget r) := by
  unfold ensureCreationTarget
  split
  · exact Keeps.pure _
  · refine Keeps.bind Keeps.get fun s => ?_
    split
    · exact keeps_leaveUnresolved _
    · exact keeps_ensureSchemaTarget _

theorem keeps_ensureRelationTarget (r : ObjectRef) (expected : RelationKind → Bool)
    (missingReason wrongKindReason : String) :
    Keeps R (ensureRelationTarget r expected missingReason wrongKindReason) := by
  unfold ensureRelationTarget
  refine Keeps.bind Keeps.get fun s => ?_
  split
  · exact Keeps.pure _
  · exact keeps_refuse _
  · exact keeps_refuse _
  · exact keeps_refuse _
  · exact keeps_leaveUnresolved _

end KeepsEvidence

end SafeMigrate
