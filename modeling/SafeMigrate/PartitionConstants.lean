import SafeMigrate.DropSchema
import SafeMigrate.PartitionLiterals

/-! Constants of partition bounds, from the text of the bound to the text of the
predicate, by the type of the key column. -/

namespace SafeMigrate

/-- What `ParsedDataType::parse` says of a column type for its constants. -/
structure ColumnType where
  /-- The name of the built-in type, if it is one. -/
  typname : Option String
  hasTypmod : Bool
  /-- `zero_padding` of the scale, where one is declared. -/
  zeroPadding : Option Nat
  /-- `to_string`. -/
  display : String
deriving DecidableEq

namespace ColumnType

def isBuiltin (ty : ColumnType) : Bool := ty.typname.isSome

def isNamed (ty : ColumnType) (typname : String) : Bool := ty.typname == some typname

def requiresTextCastForComparison (ty : ColumnType) : Bool := ty.isNamed "varchar"

end ColumnType

section Constants

/-- `str::trim`. -/
def trimWhitespace (text : List Char) : List Char :=
  ((text.dropWhile isWhitespace).reverse.dropWhile isWhitespace).reverse

/-- The text up to a quote that is not doubled. -/
def readQuoted : List Char → Option (List Char)
  | '\'' :: '\'' :: cs => (readQuoted cs).map ('\'' :: ·)
  | '\'' :: _ => some []
  | c :: cs => (readQuoted cs).map (c :: ·)
  | [] => none

def decodeSqlLiteral (raw : String) : Option String :=
  let raw := trimWhitespace raw.toList
  if raw = [] then none
  else
    let raw := trimWhitespace (beforeCast raw)
    match raw with
    | '\'' :: inner => (readQuoted inner).map String.ofList
    | _ =>
      if raw.any fun c => c == '(' || c == ')' || c == '\'' then none
      else some (String.ofList raw)

def isAsciiDigit (c : Char) : Bool := '0' ≤ c && c ≤ '9'

theorem toNat_of_isAsciiDigit {c : Char} (h : isAsciiDigit c = true) :
    48 ≤ c.toNat ∧ c.toNat ≤ 57 := by
  simp only [isAsciiDigit, Bool.and_eq_true, decide_eq_true_eq] at h
  exact ⟨h.1, h.2⟩

def isAsciiHexdigit (c : Char) : Bool :=
  isAsciiDigit c || ('a' ≤ c && c ≤ 'f') || ('A' ≤ c && c ≤ 'F')

/-- `str::parse` for a signed integer type. -/
def parseInteger (low high : Int) (text : String) : Option Int :=
  let (negative, digits) := match text.toList with
    | '-' :: digits => (true, digits)
    | '+' :: digits => (false, digits)
    | digits => (false, digits)
  if digits = [] ∨ digits.all isAsciiDigit = false then none
  else
    let magnitude : Int := digits.foldl (fun n d => 10 * n + (d.toNat - '0'.toNat : Nat)) 0
    let value := if negative then -magnitude else magnitude
    if low ≤ value ∧ value ≤ high then some value else none

def i16FromStr : String → Option Int := parseInteger (-32768) 32767

def i64FromStr : String → Option Int :=
  parseInteger (-9223372036854775808) 9223372036854775807

/-- `YYYY-MM-DD` with digits everywhere else. -/
def isIsoDate (value : String) : Bool :=
  let cs := value.toList
  cs.length == 10 && cs[4]? == some '-' && cs[7]? == some '-' &&
    cs.zipIdx.all fun (c, i) => i == 4 || i == 7 || isAsciiDigit c

/-- Canonical 8-4-4-4-12 hexadecimal form. -/
def isUuid (value : String) : Bool :=
  let cs := value.toList
  cs.length == 36 && ([8, 13, 18, 23].all fun i => cs[i]? == some '-') &&
    cs.all fun c => isAsciiHexdigit c || c == '-'

/-- Starts with a digit and contains `.`, `e`, or `E`. -/
def numericFloatLike (value : String) : Bool :=
  match value.toList with
  | first :: rest => isAsciiDigit first && rest.any fun c => c == '.' || c == 'e' || c == 'E'
  | [] => false

def isPlainInteger (value : String) : Bool :=
  let digits := match value.toList with
    | '+' :: digits => digits
    | '-' :: digits => digits
    | digits => digits
  !digits.isEmpty && digits.all isAsciiDigit

def zeros (n : Nat) : String := String.ofList (List.replicate n '0')

end Constants

/-- A single bound literal as it is deparsed for the column's data type. -/
def deparsePartitionLiteral (ty : ColumnType) (dataType raw : String) : Option String := do
  let decoded ← decodeSqlLiteral raw
  let typname ← ty.typname
  if typname = "bool" then
    if eqIgnoreAsciiCase decoded "true" then some "true"
    else if eqIgnoreAsciiCase decoded "false" then some "false"
    else none
  else if typname = "int4" then
    let value ← i64FromStr decoded
    if -2147483648 ≤ value ∧ value ≤ 2147483647 then
      some (if 0 ≤ value then toString value else "'" ++ toString value ++ "'::integer")
    else none
  else if typname = "int2" then
    let value ← i16FromStr decoded
    some ("'" ++ toString value ++ "'::smallint")
  else if typname = "int8" then
    let value ← i64FromStr decoded
    some ("'" ++ toString value ++ "'::bigint")
  else if typname = "numeric" then
    if ty.hasTypmod then
      let scale := ty.zeroPadding.getD 0
      let scaled := if isPlainInteger decoded ∧ 0 < scale then decoded ++ "." ++ zeros scale
        else decoded
      some (scaled ++ "::" ++ dataType)
    else if numericFloatLike decoded then some decoded
    else some ("'" ++ decoded ++ "'::numeric")
  else if typname = "float4" ∨ typname = "float8" then
    if numericFloatLike decoded then some ("'" ++ decoded ++ "'::" ++ dataType) else none
  else if typname = "date" then
    if isIsoDate decoded then some ("'" ++ decoded ++ "'::date") else none
  else if typname = "uuid" then
    if isUuid decoded then some ("'" ++ decoded ++ "'::uuid") else none
  else if typname ∈ ["text", "name", "varchar", "bpchar", "timestamp"] then
    some ("'" ++ doubleQuotes decoded ++ "'::" ++ ty.display)
  else none

/-- List values in the element syntax of an array constant. -/
def elementsForArray (ty : ColumnType) (values : List String) : Option (List String) := do
  let typname ← ty.typname
  if typname = "bool" then
    values.mapM fun value =>
      if eqIgnoreAsciiCase value "true" then some "t"
      else if eqIgnoreAsciiCase value "false" then some "f"
      else none
  else if typname = "numeric" then
    some (values.map fun value =>
      match ty.zeroPadding with
      | some scale => if isPlainInteger value then value ++ "." ++ zeros scale else value
      | none => value)
  else if typname ∈ ["int2", "int4", "int8", "text", "name", "varchar", "bpchar", "date",
      "timestamp"] then some values
  else none

inductive DatumKind where
  | unboundedMin
  | unboundedMax
  | null
  | const
deriving DecidableEq

structure BoundDatum where
  kind : DatumKind
  text : String
deriving DecidableEq

inductive TypedBound where
  | default
  | inList (datums : List BoundDatum)
  | fromTo (lower upper : List BoundDatum)
  | withModulus (modulus remainder : String)
deriving DecidableEq

/-- Readings of bound text that rest on the SQL parser and on the catalogue of
built-in types. -/
structure BoundText where
  columnType : String → ColumnType
  typedBound : String → Option TypedBound

end SafeMigrate
