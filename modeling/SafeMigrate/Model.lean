import SafeMigrate.Identifiers

/-! Catalog objects as the analyzer stores them. An overlay is either a
present object or the tombstone that a drop leaves under its identity. -/

namespace SafeMigrate

/-- Every overlay map pairs an identity with a present object or a tombstone. -/
inductive Overlay (α : Type)
  | present (state : α)
  | dropped
deriving DecidableEq

def Overlay.map {α : Type} (f : α → α) : Overlay α → Overlay α
  | .present state => .present (f state)
  | .dropped => .dropped

def Overlay.isPresent {α : Type} : Overlay α → Bool
  | .present _ => true
  | .dropped => false

structure ResolvedName where
  schema : String
  name : String
deriving DecidableEq

structure CollationCatalogue where
  entries : Finset ResolvedName
deriving DecidableEq

def CollationCatalogue.remapSchema (c : CollationCatalogue) (oldSchema newSchema : String) :
    CollationCatalogue :=
  { entries := c.entries.image fun entry =>
      if entry.schema = oldSchema then { entry with schema := newSchema } else entry }

structure Column where
  name : String
  dataType : Option String
  typeId : Option ObjectId
  isNullable : Bool
  default : Option ExprIr
  avgWidth : Option Int
  defaultExprText : Option String
  typeModifier : Option Int
  storage : Option String
  compression : Option String
  statisticsTarget : Option Int
  options : KeyedMap String String
  generated : Option Bool
deriving DecidableEq

def Column.migrationCreated (name : String) (dataType : Option String) (isNullable : Bool)
    (default : Option ExprIr) : Column :=
  { name, dataType, typeId := none, isNullable, default, avgWidth := none, defaultExprText := none,
    typeModifier := none, storage := none, compression := none, statisticsTarget := none,
    options := ∅, generated := some false }

inductive RelationKind
  | table
  | view
  | materializedView
  | foreignTable
deriving DecidableEq

def RelationKind.isTableLike : RelationKind → Bool
  | .table => true
  | .foreignTable => true
  | _ => false

inductive Persistence
  | permanent
  | temporary
  | unlogged
deriving DecidableEq

inductive OnCommitAction
  | preserveRows
  | deleteRows
  | drop
deriving DecidableEq

inductive RuleEnableMode
  | origin
  | disabled
  | replica
  | always
deriving DecidableEq

inductive IdentityGeneration
  | always
  | byDefault
deriving DecidableEq

inductive GeneratedColumnKind
  | stored
  | virtual
deriving DecidableEq

structure GeneratedColumnState where
  kind : GeneratedColumnKind
  expression : Option String
deriving DecidableEq

structure ExtendedStatisticsState where
  id : ObjectId
  kinds : List String
  columns : List String
  expressions : Option String
  target : Option Int
deriving DecidableEq

structure ColumnInheritance where
  parentCount : Nat
  isLocal : Bool
deriving DecidableEq

inductive ViewUpdatabilityReason
  | distinct
  | groupBy
  | having
  | setOperation
  | with
  | limit
  | aggregate
  | window
  | singleRelation
  | tablesample
  | noUpdatableColumns
deriving DecidableEq

inductive ViewUpdatability
  | unknown
  | updatable
  | notUpdatable (reason : ViewUpdatabilityReason)
deriving DecidableEq

inductive Privilege
  | select
  | insert
  | update
  | delete
  | truncate
  | references
  | trigger
  | all
  | maintain
deriving DecidableEq

structure PrivilegeMatrix where
  grants : KeyedMap ObjectId (Finset Privilege) := ∅
  grantOptions : KeyedMap ObjectId (Finset Privilege) := ∅
  grantors : KeyedMap (ObjectId × Privilege) (Finset ObjectId) := ∅
  grantOptionGrantors : KeyedMap (ObjectId × Privilege) (Finset ObjectId) := ∅
deriving DecidableEq

structure RelationState where
  id : ObjectId
  owner : ObjectId
  columns : List Column := []
  columnInheritance : KeyedMap String ColumnInheritance := ∅
  generation : Nat
  estimatedRows : Option Nat
  relpages : Option Nat := none
  kind : RelationKind
  persistence : Persistence
  onCommit : Option OnCommitAction := none
  triggers : Finset String := ∅
  policies : Finset String := ∅
  rules : KeyedMap String RuleEnableMode := ∅
  identityColumns : KeyedMap String IdentityGeneration := ∅
  generatedColumns : KeyedMap String GeneratedColumnState := ∅
  extendedStatistics : KeyedMap ObjectId ExtendedStatisticsState := ∅
  lastAnalyze : Option String := none
  lastAutoanalyze : Option String := none
  createdAtTxDepth : Nat
  privileges : PrivilegeMatrix := {}
  partitionType : Option String := none
  partitionBy : Option String := none
  partitionKeys : List (String × String) := []
  partitionBound : Option String := none
  partitionConstraint : Option String := none
  isFkDependency : Bool := false
  isPopulated : Option Bool := none
  viewUpdatability : ViewUpdatability := .unknown
  tablespace : Option String := none
  accessMethod : Option String := none
  clusterIndex : Option String := none
  rowSecurity : Option Bool := none
  forceRowSecurity : Option Bool := none
  replicaIdentity : Option String := none
  tableOptions : KeyedMap String String := ∅
  ofType : Option ObjectId := none
  columnsComplete : Bool := true
  hasToastTable : Option Bool := none
deriving DecidableEq

def RelationState.new (id owner : ObjectId) (generation : Nat) (estimatedRows : Option Nat)
    (kind : RelationKind) (persistence : Persistence) (createdAtTxDepth : Nat) : RelationState :=
  { id, owner, generation, estimatedRows, kind, persistence, createdAtTxDepth }

abbrev RelationOverlay := Overlay RelationState

inductive ConstraintKind
  | check
  | foreignKey
  | primaryKey
  | unique
  | exclusion
  | notNull
deriving DecidableEq

structure ConstraintState where
  tableId : ObjectId
  name : String
  kind : ConstraintKind
  validated : Bool
  definition : Option String
  backingIndex : Option ObjectId
deriving DecidableEq

inductive TriggerEnableMode
  | disabled
  | origin
  | replica
  | always
deriving DecidableEq

structure TriggerState where
  name : String
  id : ObjectId
  tableId : ObjectId
  functionId : ObjectId
  rowLevel : Bool
  parentTriggerId : Option ObjectId
  enabledMode : TriggerEnableMode
  generation : Nat
deriving DecidableEq

abbrev TriggerOverlay := Overlay TriggerState

inductive SequenceKind
  | standalone
  | owned
  | serialLike
  | identity
deriving DecidableEq

inductive SequencePersistence
  | permanent
  | temporary
  | unlogged
deriving DecidableEq

structure SequenceParameters where
  dataType : String := "bigint"
  startValue : Int := 1
  increment : Int := 1
  minValue : Int := 1
  maxValue : Int := 9223372036854775807
  cacheSize : Int := 1
  cycle : Bool := false
  persistence : SequencePersistence := .permanent
deriving DecidableEq

structure SequenceRuntime where
  lastValue : Option Int
  isCalled : Option Bool
deriving DecidableEq

def SequenceRuntime.fresh (startValue : Int) : SequenceRuntime :=
  { lastValue := some startValue, isCalled := some false }

structure SequenceState where
  id : ObjectId
  owner : ObjectId
  ownedBy : Option (ObjectId × String)
  kind : SequenceKind
  parameters : SequenceParameters
  runtime : SequenceRuntime
  runtimeExact : Bool
  generation : Nat
deriving DecidableEq

abbrev SequenceOverlay := Overlay SequenceState

structure SchemaState where
  name : String
  owner : ObjectId
  generation : Nat
deriving DecidableEq

abbrev SchemaOverlay := Overlay SchemaState

structure CompositeFieldState where
  name : String
  dataType : String
  dataTypeId : Option ObjectId
  collation : Option String
  collationId : Option ObjectId
deriving DecidableEq

structure DomainConstraintState where
  name : String
  expression : Option ExprIr
  expressionText : Option String
  definition : String
  validated : Bool
deriving DecidableEq

inductive BaseTypeLength
  | fixed (length : Int)
  | variable
deriving DecidableEq

structure BaseTypeOptions where
  input : Option String := none
  output : Option String := none
  receive : Option String := none
  send : Option String := none
  typmodIn : Option String := none
  typmodOut : Option String := none
  analyze : Option String := none
  subscript : Option String := none
  internallength : Option BaseTypeLength := none
  passedByValue : Option Bool := none
  alignment : Option String := none
  storage : Option String := none
  like : Option String := none
  category : Option String := none
  preferred : Option Bool := none
  default : Option String := none
  element : Option String := none
  delimiter : Option String := none
  collatable : Option Bool := none
deriving DecidableEq

structure DomainState where
  baseType : String
  baseTypeId : Option ObjectId
  collation : Option String
  collationId : Option ObjectId
  default : Option ExprIr
  defaultText : Option String
  notNull : Bool
  notNullConstraint : Option String
  constraints : KeyedMap String DomainConstraintState
deriving DecidableEq

structure RangeState where
  subtype : Option String
  subtypeId : Option ObjectId
  multirange : Option ObjectId
  collation : Option String
  collationId : Option ObjectId
  opclass : Option String
  opclassId : Option ObjectId
  canonical : Option String
  canonicalId : Option ObjectId
  subtypeDiff : Option String
  subtypeDiffId : Option ObjectId
deriving DecidableEq

inductive TypeKind
  | enum (variants : List String)
  | domain (state : DomainState)
  | base (shell : Bool) (options : BaseTypeOptions)
  | composite (fields : List CompositeFieldState)
  | range (state : RangeState)
  | multirange (range : Option ObjectId)
deriving DecidableEq

structure TypeState where
  id : ObjectId
  generation : Nat
  owner : ObjectId
  kind : TypeKind
deriving DecidableEq

abbrev TypeOverlay := Overlay TypeState

inductive Volatility
  | volatile
  | stable
  | immutable
deriving DecidableEq

inductive SecurityMode
  | invoker
  | definer
deriving DecidableEq

inductive RoutineKind
  | function
  | procedure
  | aggregate
  | window
deriving DecidableEq

inductive ParameterMode
  | in
  | out
  | inOut
  | variadic
  | table
deriving DecidableEq

structure RoutineParameter where
  name : Option String
  mode : ParameterMode
  ty : String
deriving DecidableEq

inductive AggregateKind
  | normal
  | orderedSet
  | hypothetical
deriving DecidableEq

structure AggregateMetadata where
  kind : AggregateKind
  directCount : Nat
deriving DecidableEq

structure FunctionState where
  id : ObjectId
  routineKind : RoutineKind
  argTypes : List String
  argTypeIds : List (Option ObjectId)
  returnType : String
  returnsSet : Bool
  parameters : List RoutineParameter
  defaultCount : Nat
  returnTypeId : Option ObjectId
  volatility : Volatility
  language : String
  security : SecurityMode
  internalTypeOwner : Option ObjectId
  aggregate : Option AggregateMetadata
deriving DecidableEq

abbrev FunctionOverlay := Overlay FunctionState

inductive ExtensionMemberKind
  | schema
  | relation
  | sequence
  | index
  | type
  | routine
  | constraint
  | trigger
  | collation
  | cast
  | unmodeled (kind : String)
deriving DecidableEq

structure ExtensionMember where
  kind : ExtensionMemberKind
  id : ObjectId
deriving DecidableEq

structure ExtensionConfigTable where
  table : ObjectId
  condition : Option String
deriving DecidableEq

structure ExtensionState where
  name : String
  schema : Option String
  version : Option String
  relocatable : Option Bool
  owner : ObjectId
  members : Finset ExtensionMember
  membersComplete : Bool
  configTables : List ExtensionConfigTable
  generation : Nat
deriving DecidableEq

abbrev ExtensionOverlay := Overlay ExtensionState

inductive PublicationRowFilter
  | parsed (expr : ExprIr)
  | catalogSql (text : String)
deriving DecidableEq

inductive PublicationObjectFact
  | table (name : QualifiedName) (only includePartitions : Bool) (columns : Option (List String))
      (rowFilter : Option PublicationRowFilter)
  | schemaTables (schema : String) (rowFilter : Option PublicationRowFilter)
  | currentSchemaShorthand
  | unknown
deriving DecidableEq

inductive PublicationScope
  | allTables (except : List String)
  | explicit (objects : List PublicationObjectFact)
deriving DecidableEq

structure AttributeFact where
  name : String
  value : Option String
  «namespace» : Option String
deriving DecidableEq

structure PublicationState where
  name : String
  owner : Option String
  scope : PublicationScope
  params : List AttributeFact
  generation : Nat
deriving DecidableEq

abbrev PublicationOverlay := Overlay PublicationState

inductive ConnectionTarget
  | literal (text : Option String)
  | server (name : Option String)
  | redacted
deriving DecidableEq

structure SubscriptionState where
  name : String
  owner : Option String
  connection : ConnectionTarget
  publications : List String
  params : Option (List AttributeFact)
  enabled : Bool
  slotName : Option String
  generation : Nat
deriving DecidableEq

abbrev SubscriptionOverlay := Overlay SubscriptionState

structure RoleState where
  id : ObjectId
  canLogin : Bool
  isSuperuser : Bool
  inherits : Bool
  memberOf : List ObjectId
  canAdministerMembership : List ObjectId
  canInheritFrom : List ObjectId
  canSetRoleTo : List ObjectId
deriving DecidableEq

abbrev RoleOverlay := Overlay RoleState

structure RoleMembershipGrantor where
  member : ObjectId
  role : ObjectId
  grantor : ObjectId
  admin : Bool
  inherit : Bool
  set : Bool
deriving DecidableEq

inductive IndexOrder
  | default
  | descNullsLast
  | ascNullsFirst
deriving DecidableEq

inductive IndexKeyKind
  | column (name : String)
  | expression (expr : Option ExprIr)
deriving DecidableEq

inductive KeyOpclass
  | default (family : Option ResolvedName)
  | explicit (family : ResolvedName)
  | unresolved
deriving DecidableEq

inductive KeyCollation
  | notCollatable
  | derived
  | resolved (name : ResolvedName)
  | unresolved
deriving DecidableEq

structure IndexKey where
  kind : IndexKeyKind
  opclass : KeyOpclass
  collation : KeyCollation
  order : IndexOrder
deriving DecidableEq

inductive IndexPredicate
  | none
  | parsed (expr : ExprIr)
  | opaquePredicate
deriving DecidableEq

structure IndexDefinition where
  method : Option String
  keys : List IndexKey
  included : List IndexKey
  expressionKeys : Nat
  unique : Bool
  nullsNotDistinct : Option Bool
  predicate : IndexPredicate
  unestablished : Bool
  valid : Bool
  ready : Bool
  live : Bool
deriving DecidableEq

end SafeMigrate
