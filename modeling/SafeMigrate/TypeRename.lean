import SafeMigrate.MapMoves
import SafeMigrate.RelationRename

/-! `ALTER TYPE` and `ALTER DOMAIN` with `RENAME TO` or `SET SCHEMA`. Types
take part in the identities of routines, so some routines move as well. -/

namespace SafeMigrate

open MapRebuild

/-- However many `[]` were written, they name the array type of the element. -/
def arrayTypeId (element : ObjectId) : ObjectId := ⟨element.schema, element.name ++ "[]"⟩

def quotationMark : Char := Char.ofNat 34

def isPlainIdentifier (identifier : String) : Bool :=
  match identifier.toList with
  | [] => true
  | first :: rest =>
    (first.isLower || first == '_') &&
      rest.all fun c => c.isLower || c.isDigit || c == '_' || c == '$'

def quoteIdentifier (identifier : String) : String :=
  if isPlainIdentifier identifier then identifier
  else String.ofList (quotationMark :: (identifier.toList.flatMap fun c =>
    if c = quotationMark then [c, c] else [c]) ++ [quotationMark])

def typeReferenceName (id : ObjectId) (qualified : Bool) : String :=
  if qualified then quoteIdentifier id.schema ++ "." ++ quoteIdentifier id.name
  else quoteIdentifier id.name

/-- A reference keeps the qualification it was written with; a moved type
gains one, or the reference would no longer resolve. -/
def remappedTypeDisplay (text : SqlText) (raw : String) (newId : ObjectId) (schemaChanged : Bool) :
    String :=
  let suffix := String.ofList (raw.toList.dropWhile (· != '['))
  let wasQualified := (text.parseTypeReference raw).any fun reference => reference.1.isSome
  typeReferenceName newId (wasQualified || schemaChanged) ++ suffix

/-- The name of a routine before its argument list. -/
def routineBaseName (id : ObjectId) : String := String.ofList (id.name.toList.takeWhile (· != '('))

def routineIdentity (id : ObjectId) (argTypes : List String) : ObjectId :=
  ⟨id.schema, routineBaseName id ++ "(" ++ ",".intercalate argTypes ++ ")"⟩

def TypeKind.isDomain : TypeKind → Bool
  | .domain _ => true
  | _ => false

structure RoutineMove where
  oldId : ObjectId
  newId : ObjectId
  argTypes : List String
  returnType : String

namespace Rename

variable (rename : Rename) (text : SqlText)

def renamedTypeId (current : ObjectId) : Option ObjectId :=
  if current = rename.oldName then some rename.newName
  else if current = arrayTypeId rename.oldName then some (arrayTypeId rename.newName)
  else none

def retypeId (typeId : Option ObjectId) : Option ObjectId :=
  match typeId.bind rename.renamedTypeId with
  | some newId => some newId
  | none => typeId

/-- The text of a reference whose identity is `typeId`. -/
def retypeText (typeId : Option ObjectId) (raw : String) : String :=
  match typeId.bind rename.renamedTypeId with
  | some _ => remappedTypeDisplay text raw rename.newName rename.isSchemaMove
  | none => raw

def retypeColumn (column : Column) : Column :=
  match column.typeId.bind rename.renamedTypeId with
  | some newId =>
    { column with
      dataType := some (remappedTypeDisplay text (column.dataType.getD "") rename.newName
        rename.isSchemaMove)
      typeId := some newId }
  | none => column

def retypeRelation (relation : RelationState) : RelationState :=
  { relation with columns := relation.columns.map (rename.retypeColumn text) }

def retypeField (field : CompositeFieldState) : CompositeFieldState :=
  { field with
    dataType := rename.retypeText text field.dataTypeId field.dataType
    dataTypeId := rename.retypeId field.dataTypeId }

/-- The type at one end of a range and its multirange. -/
def retypePartner (partner : Option ObjectId) : Option ObjectId :=
  if partner = some rename.oldName then some rename.newName else partner

def retypeElement (element : Option String) : Option String :=
  match element with
  | some element =>
    if element = rename.oldName.name ∨ element = rename.oldId.display then
      some rename.newName.name
    else some element
  | none => none

def retypeKind : TypeKind → TypeKind
  | .domain state => .domain { state with
      baseType := rename.retypeText text state.baseTypeId state.baseType
      baseTypeId := rename.retypeId state.baseTypeId }
  | .composite fields => .composite (fields.map (rename.retypeField text))
  | .range state => .range { state with
      subtype := state.subtype.map (rename.retypeText text state.subtypeId)
      subtypeId := rename.retypeId state.subtypeId
      multirange := rename.retypePartner state.multirange }
  | .multirange rangeId => .multirange (rename.retypePartner rangeId)
  | .base shell options => .base shell { options with element := rename.retypeElement options.element }
  | .enum variants => .enum variants

def retypeType (type : TypeState) : TypeState := { type with kind := rename.retypeKind text type.kind }

/-- The overlay of the renamed type moves to the new identity. -/
def moveType (types : KeyedMap ObjectId TypeOverlay) : KeyedMap ObjectId TypeOverlay :=
  match types.lookup rename.oldName with
  | some (.present type) =>
    (types.erase rename.oldName).insert rename.newName (.present { type with id := rename.newName })
  | _ => types.erase rename.oldName

def renamedArgTypes (f : FunctionState) : List String :=
  f.argTypes.mapIdx fun index raw => rename.retypeText text (f.argTypeIds[index]?).join raw

def renamedReturnType (f : FunctionState) : String :=
  rename.retypeText text f.returnTypeId f.returnType

/-- What becomes of a routine whose identity or type texts change. -/
def routineMove (id : ObjectId) (f : FunctionState) : Option RoutineMove :=
  let argTypes := rename.renamedArgTypes text f
  let returnType := rename.renamedReturnType text f
  let newId := routineIdentity id argTypes
  if newId ≠ id ∨ argTypes ≠ f.argTypes ∨ returnType ≠ f.returnType then
    some { oldId := id, newId, argTypes, returnType }
  else none

/-- The move of an entry of the routine map. -/
def overlayMove (entry : Sigma fun _ : ObjectId => FunctionOverlay) : Option RoutineMove :=
  match entry.2 with
  | .present f => rename.routineMove text entry.1 f
  | .dropped => none

def retypeOwner (f : FunctionState) : FunctionState :=
  { f with internalTypeOwner := rename.retypeId f.internalTypeOwner }

def retypeRoutine (move : RoutineMove) (f : FunctionState) : FunctionState :=
  { f with
    id := move.newId
    argTypes := move.argTypes
    argTypeIds := f.argTypeIds.map rename.retypeId
    returnType := move.returnType
    returnTypeId := rename.retypeId f.returnTypeId }

def retypeMember (member : ExtensionMember) : ExtensionMember :=
  if member.kind = .type ∧ member.id = rename.oldName then { member with id := rename.newName }
  else member

def retypeExtension (extension : ExtensionState) : ExtensionState :=
  { extension with members := extension.members.image rename.retypeMember }

end Rename

namespace DependencyEdge

variable (oldId newId : ObjectId) (e : DependencyEdge)

def renameType : DependencyEdge :=
  match e.kind with
  | .viewUsesType => { e with referenced := renameId oldId newId e.referenced }
  | _ => e

/-- A reference by name alone is resolved against all overloads elsewhere. -/
def renameFunction : DependencyEdge :=
  match e.kind with
  | .triggerOnTable triggerId functionId generation =>
    { e with kind := .triggerOnTable triggerId (renameId oldId newId functionId) generation }
  | .viewUsesRoutine none => { e with referenced := renameId oldId newId e.referenced }
  | _ => e

end DependencyEdge

namespace DependencyGraph

def propagateTypeRename (g : DependencyGraph) (oldId newId : ObjectId) : DependencyGraph :=
  g.mapEdges (DependencyEdge.renameType oldId newId)

def propagateFunctionRename (g : DependencyGraph) (oldId newId : ObjectId) : DependencyGraph :=
  g.mapEdges (DependencyEdge.renameFunction oldId newId)

end DependencyGraph

namespace AnalysisState

variable (s : AnalysisState) (text : SqlText) (rename : Rename)

def typeLookup (r : ObjectRef) (expected : TypeKind → Bool) : ObjectLookup :=
  if s.lookupShadowed r then .unknown
  else match s.types.lookup r.id with
    | some (.present type) => if expected type.kind then .present else .wrongKind
    | some .dropped => .tombstone
    | none =>
      if s.baselineCoversFamilyObject r.id .types then .authoritativelyAbsent else .unknown

def routineMoves : List RoutineMove :=
  s.functions.entries.filterMap (rename.overlayMove text)

/-- The first new identity that two routines share or another overlay holds. -/
def firstTaken (taken : ObjectId → Bool) : List ObjectId → List ObjectId → Option ObjectId
  | _, [] => none
  | seen, id :: ids => if id ∈ seen ∨ taken id = true then some id else firstTaken taken (id :: seen) ids

def routineConflict : Option ObjectId :=
  let moves := s.routineMoves text rename
  firstTaken (fun id => s.functions.keys.contains id && !(moves.map (·.oldId)).contains id) []
    (moves.map (·.newId))

def moveRoutine (move : RoutineMove) : AnalysisState :=
  match s.functions.lookup move.oldId with
  | some (.present f) =>
    let s := s.setFunctions ((s.functions.erase move.oldId).insert move.newId
      (.present (rename.retypeRoutine move f)))
    if move.oldId ≠ move.newId then
      s.setGraph ((s.graph.propagateFunctionRename move.oldId move.newId).addEdge
        ⟨move.oldId, move.newId, .renameTo⟩)
    else s
  | _ => s.setFunctions (s.functions.erase move.oldId)

/-- The writes of an accepted rename. -/
def renameType : AnalysisState :=
  let moves := s.routineMoves text rename
  let retyped := { s.snapshotNamespace with
    graph := s.graph.propagateTypeRename rename.oldName rename.newName
    types := mapValues (Overlay.map (rename.retypeType text)) (rename.moveType s.types)
    relations := mapValues (Overlay.map (rename.retypeRelation text)) s.relations
    functions := mapValues (Overlay.map rename.retypeOwner) s.functions }
  let moved := moves.foldl (fun s move => s.moveRoutine rename move) retyped
  moved.setExtensions (mapValues (Overlay.map rename.retypeExtension) moved.extensions)

def applyRenameType : MutationResult × AnalysisState :=
  match s.typeLookup rename.oldId fun _ => true with
  | .tombstone | .authoritativelyAbsent | .unknown =>
    if s.baselineCoversFamilyObject rename.oldName .types then
      (.rejected ("type '" ++ rename.oldId.display ++ "' does not exist"), s)
    else (.unresolved .unknownObjectState, s.taint .unknownObjectState .chain)
  | .present | .wrongKind =>
    if rename.oldName ≠ rename.newName ∧ s.relationNamespaceIsTaken rename.newName = true then
      (.rejected ("type '" ++ rename.newId.display ++ "' already exists"), s)
    else if rename.isSchemaMove && !s.schemaIsPresent rename.newName.schema then
      if s.schemaAbsenceIsAuthoritative rename.newName.schema then
        (.rejected ("schema '" ++ rename.newName.schema ++ "' does not exist"), s)
      else (.unresolved .unknownObjectState, s.taint .unknownObjectState .chain)
    else match s.routineConflict text rename with
      | some id => (.rejected ("routine '" ++ id.display ++ "' already exists after renaming type '" ++
          rename.oldId.display ++ "'"), s)
      | none => (.applied, s.renameType text rename)

def applyRenameDomain : MutationResult × AnalysisState :=
  match s.typeLookup rename.oldId TypeKind.isDomain with
  | .present => s.applyRenameType text rename
  | .wrongKind => (.rejected ("type '" ++ rename.oldId.display ++ "' is not a domain"), s)
  | .tombstone | .authoritativelyAbsent =>
    (.rejected ("domain '" ++ rename.oldId.display ++ "' does not exist"), s)
  | .unknown => (.unresolved .unknownObjectState, s.taint .unknownObjectState .chain)

end AnalysisState

end SafeMigrate
