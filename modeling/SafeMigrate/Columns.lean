import SafeMigrate.MapRebuild
import SafeMigrate.Statement

/-! Column actions on a relation, and the provenance of columns. -/

namespace SafeMigrate

/-- Rewrites the first element that satisfies `p`. -/
def updateFirst {α : Type} (p : α → Bool) (f : α → α) : List α → List α
  | [] => []
  | x :: xs => if p x then f x :: xs else x :: updateFirst p f xs

theorem map_updateFirst {α β : Type} {p : α → Bool} {f : α → α} {g : α → β}
    (hf : ∀ x, p x = true → g (f x) = g x) (l : List α) : (updateFirst p f l).map g = l.map g := by
  induction l with
  | nil => rfl
  | cons x xs ih =>
    by_cases hp : p x = true
    · simp [updateFirst, hp, hf x hp]
    · simp [updateFirst, hp, ih]

inductive ColumnAction
  | add (name : String) (dataType : Option String) (notNull : Bool) (default : Option ExprIr)
  | drop (name : String)
  | rename (oldName newName : String)
  | setNotNull (name : String)
  | dropNotNull (name : String)
  | setType (name dataType : String)
  | setDefault (name : String) (default : Option ExprIr)
  | setStorage (name mode : String)
  | setCompression (name : String) (method : Option String)
  | setStatistics (name : String) (target : Option Int)
  | setOptions (name : String) (options : List (String × String))
  | resetOptions (name : String) (names : List String)

def normalizeColumnDefault (default : Option ExprIr) : Option ExprIr :=
  match default with
  | some (.literal value) => if eqIgnoreAsciiCase (trimText value) "null" then none else default
  | _ => default

/-- The storage type behind a serial pseudo-type. -/
def serialType (dataType : Option String) : Option String :=
  match dataType.map fun ty => toAsciiLowercase (trimText ty) with
  | some "smallserial" | some "serial2" => some "smallint"
  | some "serial" | some "serial4" => some "integer"
  | some "bigserial" | some "serial8" => some "bigint"
  | _ => none

/-- The key of an entry moves; an absent entry moves nothing. -/
def moveEntry {β : Type} (m : KeyedMap String β) (oldName newName : String) : KeyedMap String β :=
  match m.lookup oldName with
  | some value => (m.erase oldName).insert newName value
  | none => m

namespace RelationState

def hasColumn (r : RelationState) (name : String) : Bool := r.columns.any fun c => c.name == name

def getColumn (r : RelationState) (name : String) : Option Column :=
  r.columns.find? fun c => c.name == name

def updateColumn (r : RelationState) (name : String) (f : Column → Column) : RelationState :=
  { r with columns := updateFirst (fun c => c.name == name) f r.columns }

def addColumn (r : RelationState) (name : String) (dataType : Option String) (notNull : Bool)
    (default : Option ExprIr) : RelationState :=
  if r.hasColumn name then r
  else
    let serial := serialType dataType
    let default :=
      if serial.isSome then some (.functionCall "nextval" []) else normalizeColumnDefault default
    { r with
      columns := r.columns ++
        [.migrationCreated name (serial <|> dataType) (!(notNull || serial.isSome)) default]
      columnInheritance := r.columnInheritance.insert name ⟨0, true⟩ }

def dropColumn (r : RelationState) (name : String) : RelationState :=
  { r with
    columns := r.columns.filter fun c => c.name != name
    columnInheritance := r.columnInheritance.erase name
    identityColumns := r.identityColumns.erase name
    generatedColumns := r.generatedColumns.erase name }

/-- Every text that mentions the column is renamed with it, where the parser
can follow it. -/
def renameColumn (text : SqlText) (r : RelationState) (oldName newName : String) : RelationState :=
  let source (sql : String) : Option String :=
    text.renameColumnSource sql r.id.name oldName newName
  if !r.hasColumn oldName || r.hasColumn newName then r
  else
    { r with
      columns := updateFirst (fun c => c.name == oldName) (fun c => { c with name := newName })
        r.columns
      columnInheritance := moveEntry r.columnInheritance oldName newName
      partitionBy := r.partitionBy.bind fun sql =>
        text.renamePartitionKeySource sql r.id.name oldName newName
      partitionKeys := r.partitionKeys.map fun key =>
        if key.1 = oldName then (newName, if key.2 = oldName then newName else key.2) else key
      partitionConstraint := r.partitionConstraint.bind source
      identityColumns := moveEntry r.identityColumns oldName newName
      generatedColumns := MapRebuild.mapValues
        (fun g => { g with expression := g.expression.bind source })
        (moveEntry r.generatedColumns oldName newName)
      extendedStatistics := MapRebuild.mapValues
        (fun statistics => { statistics with
          columns := statistics.columns.map fun c => if c = oldName then newName else c
          expressions := statistics.expressions.bind source }) r.extendedStatistics }

def applyColumnAction (text : SqlText) (r : RelationState) : ColumnAction → RelationState
  | .add name dataType notNull default => r.addColumn name dataType notNull default
  | .drop name => r.dropColumn name
  | .rename oldName newName => r.renameColumn text oldName newName
  | .setNotNull name => r.updateColumn name fun c => { c with isNullable := false }
  | .dropNotNull name => r.updateColumn name fun c => { c with isNullable := true }
  | .setType name dataType => r.updateColumn name fun c => { c with
      dataType := some dataType, typeId := none, typeModifier := none, avgWidth := none,
      storage := none, compression := none }
  | .setDefault name default => r.updateColumn name fun c => { c with
      default := normalizeColumnDefault default, defaultExprText := none }
  | .setStorage name mode => r.updateColumn name fun c => { c with
      storage := if eqIgnoreAsciiCase mode "default" then none else some mode }
  | .setCompression name method => r.updateColumn name fun c => { c with compression := method }
  | .setStatistics name target => r.updateColumn name fun c => { c with statisticsTarget := target }
  | .setOptions name options => r.updateColumn name fun c => { c with
      options := options.foldl (fun m option => m.insert option.1 option.2) c.options }
  | .resetOptions name names => r.updateColumn name fun c => { c with
      options := names.foldl (fun m option => m.erase option) c.options }

end RelationState

/-- A default of `nextval` on the implicit sequence of a column. -/
def Column.withSequenceDefault (column : Column) (sequence : ObjectId) : Column :=
  { column with
    default := some (sequenceNextvalDefault sequence)
    defaultExprText := some ("nextval('" ++ sequence.schema ++ "." ++ sequence.name ++ "'::regclass)")
    isNullable := false }

end SafeMigrate
