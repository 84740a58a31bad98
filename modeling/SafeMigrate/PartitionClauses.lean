import SafeMigrate.PartitionConstants
import SafeMigrate.ThreeValued

/-! The clauses of a partition predicate, as they are built from the bound, their
text, and what they say of a key tuple. -/

namespace SafeMigrate

open ThreeValued ArraySyntax

/-- A key column as the clauses refer to it. -/
structure PartitionKey where
  index : Nat
  key : String
  dataType : String
  ty : ColumnType
  comparisonLeft : String
deriving DecidableEq

inductive CompareOp where
  | eq
  | gt
  | ge
  | lt
  | le
deriving DecidableEq

def CompareOp.text : CompareOp → String
  | eq => "="
  | gt => ">"
  | ge => ">="
  | lt => "<"
  | le => "<="

structure Comparison where
  index : Nat
  left : String
  op : CompareOp
  literal : String
deriving DecidableEq

def Comparison.text (c : Comparison) : String :=
  "(" ++ c.left ++ " " ++ c.op.text ++ " " ++ c.literal ++ ")"

/-- What a list of values asks of the key. -/
inductive ValueCheck where
  | isTrue (index : Nat) (key : String)
  | isFalse (index : Nat) (key : String)
  | equals (c : Comparison)
  | anyOf (index : Nat) (left : String) (values : List String)
  | anyOfArray (index : Nat) (left arrayText typeName : String)
deriving DecidableEq

def ValueCheck.text : ValueCheck → String
  | isTrue _ key => key
  | isFalse _ key => "(NOT " ++ key ++ ")"
  | equals c => c.text
  | anyOf _ left values => "(" ++ left ++ " = ANY (ARRAY[" ++ ", ".intercalate values ++ "]))"
  | anyOfArray _ left arrayText typeName =>
    "(" ++ left ++ " = ANY ('" ++ arrayText ++ "'::" ++ typeName ++ "[]))"

inductive PartitionClause where
  | isNotNull (index : Nat) (key : String)
  | isNull (index : Nat) (key : String)
  | rows (disjuncts : List (List Comparison))
  | value (check : ValueCheck)
  | nullOr (index : Nat) (key : String) (check : ValueCheck)
deriving DecidableEq

/-- One text as it is, several joined in parentheses. -/
def joinClauses (separator : String) : List String → String
  | [clause] => clause
  | clauses => "(" ++ separator.intercalate clauses ++ ")"

def PartitionClause.text : PartitionClause → String
  | isNotNull _ key => "(" ++ key ++ " IS NOT NULL)"
  | isNull _ key => "(" ++ key ++ " IS NULL)"
  | rows disjuncts => joinClauses " OR " (disjuncts.map fun comparisons =>
      joinClauses " AND " (comparisons.map Comparison.text))
  | value check => check.text
  | nullOr _ key check => "((" ++ key ++ " IS NULL) OR " ++ check.text ++ ")"

section Synthesis

def partitionKey (text : BoundText) (relation : RelationState) (key : (String × String) × Nat) :
    Option PartitionKey := do
  let column ← relation.columns.find? fun c => c.name == key.1.1
  let dataType ← column.dataType
  let ty := text.columnType dataType
  if ty.isBuiltin then
    some {
      index := key.2
      key := key.1.2
      dataType
      ty
      comparisonLeft := if ty.requiresTextCastForComparison then "(" ++ key.1.2 ++ ")::text"
        else key.1.2 }
  else none

def comparison (op : CompareOp) (part : PartitionKey × BoundDatum) : Option Comparison :=
  (deparsePartitionLiteral part.1.ty part.1.dataType part.2.text).map fun literal =>
    { index := part.1.index, left := part.1.comparisonLeft, op, literal }

/-- The disjuncts of one bound: after each prefix that agrees, the next place
differs by `op`, and the last place by `last`. -/
def boundRows (op last : CompareOp) :
    List (PartitionKey × BoundDatum) → List (PartitionKey × BoundDatum) →
      Option (List (List Comparison))
  | _, [] => some []
  | before, part :: rest => do
    let agree ← before.mapM (comparison .eq)
    let next ← comparison (if rest.isEmpty then last else op) part
    let rows ← boundRows op last (before ++ [part]) rest
    some ((agree ++ [next]) :: rows)

/-- A bound with no values before its first sentinel asks nothing. -/
def boundClause (op last : CompareOp) (parts : List (PartitionKey × BoundDatum)) :
    Option (List PartitionClause) :=
  if parts.isEmpty then some []
  else (boundRows op last [] parts).map fun rows => [.rows rows]

def isUnboundedMin (datum : BoundDatum) : Bool := datum.kind == .unboundedMin

def isUnbounded (datum : BoundDatum) : Bool :=
  datum.kind == .unboundedMax || datum.kind == .unboundedMin

def rangePartitionClauses (keys : List PartitionKey) (lower upper : List BoundDatum) :
    Option (List PartitionClause) := do
  if lower.length ≠ upper.length ∨ lower.length ≠ keys.length then none
  else
    let notNull := keys.map fun key => PartitionClause.isNotNull key.index key.key
    let kLower := lower.takeWhile fun datum => !isUnboundedMin datum
    let lowerClause ← boundClause .gt .ge (keys.zip kLower)
    let kUpper := upper.takeWhile fun datum => !isUnbounded datum
    let isMaxvalue := (upper.find? isUnbounded).any fun datum => datum.kind == .unboundedMax
    let upperClause ← boundClause .lt (if isMaxvalue then .le else .lt) (keys.zip kUpper)
    some (notNull ++ lowerClause ++ upperClause)

def listValueCheck (key : PartitionKey) : List BoundDatum → Option ValueCheck
  | [] => none
  | [single] => do
    let literal ← deparsePartitionLiteral key.ty key.dataType single.text
    if key.ty.isNamed "bool" then
      if literal = "true" then some (.isTrue key.index key.key)
      else if literal = "false" then some (.isFalse key.index key.key)
      else none
    else some (.equals
      { index := key.index, left := key.comparisonLeft, op := .eq, literal })
  | datums => do
    let values ← datums.mapM fun datum => decodeSqlLiteral datum.text
    let mapped ← elementsForArray key.ty values
    if key.ty.typname ∈ [some "int4", some "int2", some "int8"] then
      some (.anyOf key.index key.comparisonLeft mapped)
    else some (.anyOfArray key.index key.comparisonLeft (serializeArrayLiteral mapped) key.ty.display)

def listPartitionClauses (keys : List PartitionKey) (datums : List BoundDatum) :
    Option (List PartitionClause) := do
  match keys with
  | [key] =>
    let hasNull := datums.any fun datum => datum.kind == .null
    match datums.filter fun datum => datum.kind != .null with
    | [] => if hasNull then some [.isNull key.index key.key] else none
    | values =>
      let check ← listValueCheck key values
      if hasNull then some [.nullOr key.index key.key check]
      else some [.isNotNull key.index key.key, .value check]
  | _ => none

def synthesizePartitionCheckClauses (text : BoundText) (strategy bound : String)
    (keys : List (String × String)) (relation : RelationState) : Option (List PartitionClause) := do
  if keys.isEmpty then none
  else
    let columns ← keys.zipIdx.mapM (partitionKey text relation)
    let typedBound ← text.typedBound bound
    if eqIgnoreAsciiCase strategy "RANGE" then
      match typedBound with
      | .fromTo lower upper => rangePartitionClauses columns lower upper
      | _ => none
    else if eqIgnoreAsciiCase strategy "LIST" then
      match typedBound with
      | .inList datums => listPartitionClauses columns datums
      | _ => none
    else none

end Synthesis

/-- What PostgreSQL reads from the constants of the clauses. -/
structure SqlReading (V : Type) where
  literal : String → V
  element : String → String → V
  isTrue : V → Bool

section Truth

variable {V : Type} [LinearOrder V] (reading : SqlReading V) (t : List (Option V))

def CompareOp.holds (u v : V) : CompareOp → Bool
  | eq => decide (u = v)
  | gt => decide (v < u)
  | ge => decide (v ≤ u)
  | lt => decide (u < v)
  | le => decide (u ≤ v)

/-- The key value at a place of the tuple; `none` is null. -/
def keyValue (t : List (Option V)) (index : Nat) : Option V := (t[index]?).join

def Comparison.truth (c : Comparison) : Truth :=
  (keyValue t c.index).map fun v => c.op.holds v (reading.literal c.literal)

/-- `= ANY` over elements of which some may be null. -/
def anyEqual (value : Option V) (elements : List (Option V)) : Truth :=
  any (elements.map fun element => do
    let v ← value
    let element ← element
    some (decide (v = element)))

def ValueCheck.truth : ValueCheck → Truth
  | isTrue index _ => (keyValue t index).map reading.isTrue
  | isFalse index _ => negate ((keyValue t index).map reading.isTrue)
  | equals c => c.truth reading t
  | anyOf index _ values => anyEqual (keyValue t index) (values.map fun value =>
      if isNullWord value.toList then none else some (reading.literal value))
  | anyOfArray index _ arrayText typeName => do
    let elements ← readArrayLiteral arrayText
    anyEqual (keyValue t index) (elements.map fun element => element.map (reading.element typeName))

def PartitionClause.truth : PartitionClause → Truth
  | isNotNull index _ => some (keyValue t index).isSome
  | isNull index _ => some (keyValue t index).isNone
  | rows disjuncts => any (disjuncts.map fun comparisons =>
      all (comparisons.map (Comparison.truth reading t)))
  | value check => check.truth reading t
  | nullOr index _ check => either (some (keyValue t index).isNone) (check.truth reading t)

/-- The conjunction of the clauses. -/
def clausesTruth (clauses : List PartitionClause) : Truth :=
  all (clauses.map (PartitionClause.truth reading t))

end Truth

end SafeMigrate
