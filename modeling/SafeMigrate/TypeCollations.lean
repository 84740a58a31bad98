import SafeMigrate.Bookkeeping
import SafeMigrate.PathCompletion
import SafeMigrate.TypeCascade

/-! The collation that a type brings along, or that is written beside it. -/

namespace SafeMigrate

/-- An unresolved name of a statement. -/
structure WrittenName where
  schema : Option String
  name : String
deriving DecidableEq

def WrittenName.parse (written : String) : WrittenName :=
  match splitOnce '.' written with
  | some (schema, name) => ⟨some schema, name⟩
  | none => ⟨none, written⟩

def CollationCatalogue.lookup (c : CollationCatalogue) (schema name : String) :
    Option ResolvedName :=
  if (⟨schema, name⟩ : ResolvedName) ∈ c.entries then some ⟨schema, name⟩
  else if schema = systemCatalogSchema ∧ name ∈ ["C", "POSIX", "default"] then some ⟨schema, name⟩
  else none

def CollationCatalogue.resolve (c : CollationCatalogue) (written : WrittenName)
    (path : List SearchPathEntry) : Option ResolvedName :=
  match written.schema with
  | some schema => c.lookup schema written.name
  | none => resolveUnqualified (fun schema => c.lookup schema written.name) path

/-- Readings of a declared type and of a default that rest on the catalogue of
built-in types. -/
structure TypeText extends SqlText where
  /-- Whether values of a built-in type are collatable. -/
  builtinCollatable : String → Option Bool
  domainDefaultIsProvablyCoercible : String → ExprIr → Bool

abbrev CollationPair := Option String × Option ObjectId

def defaultCollation : CollationPair := (some "default", some ⟨systemCatalogSchema, "default"⟩)

/-- Takes array brackets off the end, on the characters in reverse. -/
def dropArraySuffixes : Nat → List Char → List Char
  | 0, reversed => reversed
  | fuel + 1, reversed =>
    match reversed with
    | ']' :: '[' :: rest => dropArraySuffixes fuel (rest.dropWhile Char.isWhitespace)
    | _ => reversed

/-- The element type of a declared array type. -/
def elementType (raw : String) : String :=
  let token := (trimText raw).toList.reverse
  String.ofList (dropArraySuffixes token.length token).reverse

def TypeKind.collationPair : TypeKind → Option CollationPair
  | .domain state => some (state.collation, state.collationId)
  | .range state => some (state.collation, state.collationId)
  | .base _ options =>
    match options.collatable with
    | some true => some defaultCollation
    | some false => some (none, none)
    | none => none
  | .enum _ | .composite _ | .multirange _ => some (none, none)

/-- The collation of values of a declared type, if that is known. -/
def AnalysisState.effectiveTypeCollation (s : AnalysisState) (text : TypeText) (raw : String) :
    Option CollationPair :=
  let element := elementType raw
  match text.builtinCollatable element with
  | some true => some defaultCollation
  | some false => some (none, none)
  | none => do
    let id ← s.resolveTypeReference text.toSqlText element
    match s.types.lookup id with
    | some (.present state) => state.kind.collationPair
    | _ => none

/-- The collation of a declared type, with the one that is written beside it. -/
def resolveCollation (text : TypeText) (dataType : String) (written : Option WrittenName) :
    Statement CollationPair := do
  let s ← get
  let inherited := s.effectiveTypeCollation text dataType
  match written with
  | some written =>
    refuseIf (inherited = some (none, none))
      ("collation specified for non-collatable type '" ++ dataType ++ "'")
    match s.collations.resolve written s.searchPath with
    | some resolved => pure (some resolved.name, some ⟨resolved.schema, resolved.name⟩)
    | none => leaveUnresolved .unresolvedReference
  | none =>
    match inherited with
    | some pair => pure pair
    | none => do
      modify fun s => s.taint .unknownObjectState .statement
      pure (none, none)

section Keeps

open Command

theorem keeps_resolveCollation {R : AnalysisState → AnalysisState → Prop} [KeepsEvidence R]
    (text : TypeText) (dataType : String) (written : Option WrittenName) :
    Keeps R (resolveCollation text dataType written) := by
  refine Keeps.bind Keeps.get fun s => ?_
  cases written with
  | some written =>
    refine Keeps.bind (keeps_refuseIf _ _) fun _ => ?_
    split
    · exact Keeps.pure _
    · exact keeps_leaveUnresolved _
  | none =>
    dsimp only
    split
    · exact Keeps.pure _
    · exact Keeps.bind (keeps_taint _ _) fun _ => Keeps.pure _

theorem declines_resolveCollation (text : TypeText) (dataType : String)
    (written : Option WrittenName) : Declines (resolveCollation text dataType written) := by
  refine Declines.bind declines_get fun s => ?_
  cases written with
  | some written =>
    refine Declines.bind (declines_refuseIf _ _) fun _ => ?_
    split
    · exact declines_pure _
    · exact declines_leaveUnresolved _
  | none =>
    dsimp only
    split
    · exact declines_pure _
    · exact Declines.bind (declines_modify _) fun _ => declines_pure _

end Keeps

end SafeMigrate
