import SafeMigrate.PartitionConstants
import SafeMigrate.TypeReferences

/-! Declared data types: the built-in a written name denotes, and what its
modifier means. -/

namespace SafeMigrate

inductive TypeCategory
  | array | boolean | composite | dateTime | enum | geometric | network | numeric | pseudo
  | range | string | timespan | user | bitString | internal | unknown
deriving DecidableEq

structure BuiltinType where
  typname : String
  /-- `format_type(oid, NULL)`. -/
  canonical : String
  category : TypeCategory
  /-- `typlen` in bits, for types of a fixed width. -/
  fixedBits : Option Int
deriving DecidableEq

/-- The catalogue keeps one entry a `typname`. -/
structure BuiltinTypeCatalogue where
  types : List BuiltinType
  distinct : (types.map (·.typname)).Nodup

/-- Spellings of the grammar for a `typname`. -/
def typeAliases : List (String × String) :=
  [("int", "int4"), ("integer", "int4"), ("smallint", "int2"), ("bigint", "int8"),
    ("real", "float4"), ("float", "float8"), ("double precision", "float8"),
    ("decimal", "numeric"), ("dec", "numeric"), ("bit varying", "varbit"), ("char", "bpchar"),
    ("character", "bpchar"), ("character varying", "varchar"), ("national character", "bpchar"),
    ("national char", "bpchar"), ("nchar", "bpchar"), ("nchar varying", "varchar"),
    ("national character varying", "varchar"), ("national char varying", "varchar"),
    ("timestamp without time zone", "timestamp"), ("timestamp with time zone", "timestamptz"),
    ("time without time zone", "time"), ("time with time zone", "timetz")]

def grammarAlias (name : String) : String := (typeAliases.lookup name).getD name

def BuiltinTypeCatalogue.resolve (catalogue : BuiltinTypeCatalogue) (name : String) :
    Option BuiltinType :=
  match catalogue.types.find? fun candidate => candidate.typname = grammarAlias name with
  | some entry => some entry
  | none => catalogue.types.find? fun candidate => candidate.canonical = name

theorem BuiltinTypeCatalogue.mem_of_resolve {catalogue : BuiltinTypeCatalogue} {name : String}
    {entry : BuiltinType} (h : catalogue.resolve name = some entry) : entry ∈ catalogue.types := by
  unfold resolve at h
  split at h
  · next found hfound =>
    cases h
    exact List.mem_of_find?_eq_some hfound
  · exact List.mem_of_find?_eq_some h

namespace BuiltinType

def isTextLike (b : BuiltinType) : Bool := b.category = .string && b.typname ≠ "name"

def isExactNumeric (b : BuiltinType) : Bool := b.typname = "numeric"

end BuiltinType

inductive TypmodKind
  | none | characterLength | bitLength | numeric | fractionalSeconds | intervalFields
deriving DecidableEq

def typmodRules : List (String × TypmodKind) :=
  [("bit", .bitLength), ("bpchar", .characterLength), ("interval", .intervalFields),
    ("numeric", .numeric), ("time", .fractionalSeconds), ("timestamp", .fractionalSeconds),
    ("timestamptz", .fractionalSeconds), ("timetz", .fractionalSeconds), ("varbit", .bitLength),
    ("varchar", .characterLength)]

/-- Spellings that stand for a length of one. -/
def implicitLengthOne : List String := ["char", "character", "bit"]

def typmodKind (typname : String) : TypmodKind := (typmodRules.lookup typname).getD .none

structure CharLength where
  get : Int
  accepted : 1 ≤ get ∧ get ≤ 10485760
deriving DecidableEq

def CharLength.implicit : CharLength := ⟨1, by decide⟩

def CharLength.new (raw : Int) : Option CharLength :=
  if h : 1 ≤ raw ∧ raw ≤ 10485760 then some ⟨raw, h⟩ else none

structure NumericPrecision where
  get : Int
  accepted : 1 ≤ get ∧ get ≤ 1000
deriving DecidableEq

def NumericPrecision.new (raw : Int) : Option NumericPrecision :=
  if h : 1 ≤ raw ∧ raw ≤ 1000 then some ⟨raw, h⟩ else none

structure NumericScale where
  get : Int
  accepted : -1000 ≤ get ∧ get ≤ 1000
deriving DecidableEq

def NumericScale.new (raw : Int) : Option NumericScale :=
  if h : -1000 ≤ raw ∧ raw ≤ 1000 then some ⟨raw, h⟩ else none

inductive TypeTypmod
  | notApplicable
  /-- None declared. -/
  | unbounded
  | characterLength (length : CharLength)
  /-- The scale is absent in `numeric(p)`. -/
  | numeric (precision : NumericPrecision) (scale : Option NumericScale)
  /-- Declared, and rejected by the server. -/
  | outOfRange
deriving DecidableEq

def i32FromStr : String → Option Int := parseInteger (-2147483648) 2147483647

def trimmed (text : String) : String := String.ofList (trimWhitespace text.toList)

section Classify

/-- The text before the first comma, and the text behind it. -/
def splitAtComma (raw : String) : String × Option String :=
  let characters := raw.toList
  (String.ofList (characters.takeWhile (· ≠ ',')),
    match characters.dropWhile (· ≠ ',') with
    | [] => none
    | _ :: rest => some (String.ofList rest))

def classifyLength (typname written : String) : Option String → TypeTypmod
  | none =>
    if (typname = "bpchar" ∨ typname = "bit") ∧ written ∈ implicitLengthOne then
      .characterLength .implicit
    else .unbounded
  | some raw =>
    match (i32FromStr (trimmed raw)).bind CharLength.new with
    | some length => .characterLength length
    | none => .outOfRange

theorem classifyLength_none (typname written : String) : classifyLength typname written none =
    if (typname = "bpchar" ∨ typname = "bit") ∧ written ∈ implicitLengthOne then
      .characterLength .implicit
    else .unbounded := rfl

theorem classifyLength_some (typname written raw : String) :
    classifyLength typname written (some raw) =
      ((i32FromStr (trimmed raw)).bind CharLength.new).elim .outOfRange .characterLength := by
  unfold classifyLength
  dsimp only
  cases (i32FromStr (trimmed raw)).bind CharLength.new <;> rfl

def classifyNumeric : Option String → TypeTypmod
  | none => .unbounded
  | some raw =>
    match (i32FromStr (trimmed (splitAtComma raw).1)).bind NumericPrecision.new with
    | none => .outOfRange
    | some precision =>
      match (splitAtComma raw).2 with
      | none => .numeric precision none
      | some scale =>
        match (i32FromStr (trimmed scale)).bind NumericScale.new with
        | some scale => .numeric precision (some scale)
        | none => .outOfRange

/-- Anything the server would reject is `outOfRange`. -/
def classifyTypmod (builtin : Option BuiltinType) (written : String) (raw : Option String) :
    TypeTypmod :=
  match builtin with
  | none => if raw.isSome then .outOfRange else .notApplicable
  | some b =>
    match typmodKind b.typname with
    | .characterLength | .bitLength => classifyLength b.typname written raw
    | .numeric => classifyNumeric raw
    | .fractionalSeconds | .intervalFields => if raw.isSome then .unbounded else .notApplicable
    | .none => if raw.isSome then .outOfRange else .notApplicable

end Classify

/-- The modifier as it is written, and what it means, of one reading. -/
structure ParsedDataType (catalogue : BuiltinTypeCatalogue) where
  builtin : Option BuiltinType
  originalBase : String
  rawTypmods : Option String
  arrayDimensions : Nat
  typmod : TypeTypmod
  parsed : ∃ written, builtin = catalogue.resolve written ∧
    typmod = classifyTypmod builtin written rawTypmods

section Parse

variable (letters : LetterCase)

def foldUnquotedIdentifierCase (inQuotes : Bool) : List Char → List Char
  | [] => []
  | ch :: rest =>
    match inQuotes, ch, rest with
    | true, '"', '"' :: rest => '"' :: '"' :: foldUnquotedIdentifierCase true rest
    | inQuotes, ch, rest =>
      if ch = '"' then ch :: foldUnquotedIdentifierCase (!inQuotes) rest
      else if inQuotes then ch :: foldUnquotedIdentifierCase inQuotes rest
      else (letters.toLowercase (String.singleton ch)).toList ++
        foldUnquotedIdentifierCase inQuotes rest

/-- Brackets off the end, each with the blanks around what it leaves. -/
def stripArrayDimensions : Nat → List Char → Nat × List Char
  | 0, text => (0, text)
  | fuel + 1, text =>
    match text.reverse with
    | ']' :: '[' :: reversed =>
      let (dimensions, base) := stripArrayDimensions fuel (trimWhitespace reversed.reverse)
      (dimensions + 1, base)
    | _ => (0, text)

/-- The text before the first parenthesis, up to the last, and behind it. -/
def splitTypmods (text : List Char) : Option (List Char × List Char × List Char) :=
  match text.dropWhile (· ≠ '(') with
  | [] => none
  | _ :: inside =>
    match inside.reverse.dropWhile (· ≠ ')') with
    | [] => none
    | _ :: reversed =>
      some (text.takeWhile (· ≠ '('), reversed.reverse,
        (inside.reverse.takeWhile (· ≠ ')')).reverse)

def stripPgCatalogQualifier (name : String) : String :=
  if name.startsWith "pg_catalog." then (name.drop "pg_catalog.".length).toString
  else if name.startsWith "\"pg_catalog\"." then (name.drop "\"pg_catalog\".".length).toString
  else name

def floatPrecision (raw : String) : Option String :=
  match parseInteger 0 4294967295 (trimmed raw) with
  | none => none
  | some bits =>
    if 1 ≤ bits ∧ bits ≤ 24 then some "real"
    else if 25 ≤ bits ∧ bits ≤ 53 then some "double precision"
    else none

/-- `serial` is an integer and a sequence. -/
def serialInteger (name : String) : String :=
  if name = "serial" ∨ name = "serial4" then "integer"
  else if name = "bigserial" ∨ name = "serial8" then "bigint"
  else if name = "smallserial" ∨ name = "serial2" then "smallint"
  else name

/-- The name, the name without what follows the modifier, and the modifier. -/
def splitDeclaration (text : List Char) : String × String × Option String :=
  match splitTypmods text with
  | none => (String.ofList text, String.ofList text, none)
  | some (pre, inside, post) =>
    let pre := trimWhitespace pre
    let post := trimWhitespace post
    (String.ofList (if post = [] then pre else pre ++ ' ' :: post), String.ofList pre,
      some (String.ofList (trimWhitespace inside)))

def expandFloat (text : String) (typmods : Option String) : String × Option String :=
  match text, typmods with
  | "float", some raw =>
    match floatPrecision raw with
    | some width => (width, none)
    | none => (text, typmods)
  | _, _ => (text, typmods)

def ParsedDataType.parse (catalogue : BuiltinTypeCatalogue) (raw : String) :
    ParsedDataType catalogue :=
  let folded := foldUnquotedIdentifierCase letters false (trimWhitespace raw.toList)
  let (arrayDimensions, text) := stripArrayDimensions folded.length folded
  let (text, originalBase, typmods) := splitDeclaration text
  let (text, typmods) := expandFloat (stripPgCatalogQualifier text) typmods
  let written := serialInteger text
  { builtin := catalogue.resolve written
    originalBase := serialInteger (stripPgCatalogQualifier originalBase)
    rawTypmods := typmods
    arrayDimensions
    typmod := classifyTypmod (catalogue.resolve written) written typmods
    parsed := ⟨written, rfl, rfl⟩ }

end Parse

namespace ParsedDataType

variable {catalogue : BuiltinTypeCatalogue}

def isBuiltin (t : ParsedDataType catalogue) : Bool := t.builtin.isSome

def canonicalName (t : ParsedDataType catalogue) : String :=
  match t.builtin with
  | some b => b.canonical
  | none => t.originalBase

def isTextLike (t : ParsedDataType catalogue) : Bool := t.builtin.any (·.isTextLike)

def isExactNumeric (t : ParsedDataType catalogue) : Bool := t.builtin.any (·.isExactNumeric)

def fixedBits (t : ParsedDataType catalogue) : Option Int := t.builtin.bind (·.fixedBits)

def isValidDeclaration (t : ParsedDataType catalogue) : Bool := t.typmod ≠ .outOfRange

/-- No limit for another family or a rejected declaration. -/
def characterLimit (t : ParsedDataType catalogue) : Option Int :=
  match t.typmod with
  | .characterLength length => some length.get
  | _ => none

/-- `numeric(p)` has scale 0. -/
def numericParams (t : ParsedDataType catalogue) : Option (Int × Int) :=
  match t.typmod with
  | .numeric precision scale => some (precision.get, (scale.map (·.get)).getD 0)
  | _ => none

def isLossyNarrowingTo (t newType : ParsedDataType catalogue) : Bool :=
  if t.isBuiltin ∧ newType.isBuiltin ∧ t.canonicalName = newType.canonicalName ∧
      t.rawTypmods = newType.rawTypmods ∧ t.arrayDimensions = newType.arrayDimensions then false
  else if t.arrayDimensions ≠ newType.arrayDimensions then true
  else if t.isExactNumeric ∧ newType.isExactNumeric then
    match t.numericParams, newType.numericParams with
    | _, none => false
    | none, some _ => true
    | some (oldP, oldS), some (newP, newS) => newP < oldP || newS < oldS
  else
    match t.fixedBits, newType.fixedBits with
    | some oldBits, some newBits => newBits < oldBits
    | _, _ =>
      if t.isTextLike ∧ newType.isTextLike then
        match t.characterLimit, newType.characterLimit with
        | some oldLim, some newLim => newLim < oldLim
        | none, some _ => true
        | _, none => false
      else if t.isTextLike then t.characterLimit.isSome
      else false

end ParsedDataType

end SafeMigrate
