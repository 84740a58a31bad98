import SafeMigrate.TypeCollations

/-! `CREATE DOMAIN` and `ALTER DOMAIN ... ADD`: each goes through constraint
clauses in a loop of its own, names them and records them. -/

namespace SafeMigrate

open Saturation

structure DomainCheckFact where
  name : Option String
  expression : ExprIr
  expressionText : String
  definition : String
  notValid : Bool

inductive DomainConstraintFact
  | check (check : DomainCheckFact)
  | notNull (name : Option String)
  | null

structure DomainDefaultFact where
  expression : ExprIr
  text : String
  isNull : Bool

structure CreateDomain where
  id : ObjectRef
  baseType : String
  collation : Option WrittenName
  default : Option DomainDefaultFact
  constraints : List DomainConstraintFact

def DomainState.hasConstraintNamed (d : DomainState) (name : String) : Bool :=
  d.constraints.keys.contains name || d.notNullConstraint == some name

def DomainState.constraintNames (d : DomainState) : List String :=
  d.notNullConstraint.toList ++ d.constraints.keys

/-- The domain that an entry of the catalog holds, with the identity in its record. -/
def TypeOverlay.domain : TypeOverlay → Option (ObjectId × DomainState)
  | .present state =>
    match state.kind with
    | .domain d => some (state.id, d)
    | _ => none
  | .dropped => none

def DomainCheckFact.state (check : DomainCheckFact) (name : String) : DomainConstraintState :=
  { name, expression := some check.expression, expressionText := some check.expressionText,
    definition := check.definition, validated := !check.notValid }

namespace AnalysisState

variable (s : AnalysisState)

/-- A domain among those with a selected identity has a constraint by this name. -/
def domainsHaveConstraint (selected : ObjectId → Bool) (name : String) : Bool :=
  s.types.entries.any fun entry =>
    (TypeOverlay.domain entry.2).any fun (id, d) => selected id && d.hasConstraintNamed name

def domainConstraintNameIsTaken (domain : ObjectId) (name : String) : Bool :=
  s.domainsHaveConstraint (· == domain) name

def namespaceConstraintNameIsTaken (schema name : String) : Bool :=
  s.constraintNameIsTaken schema name || s.domainsHaveConstraint (·.schema == schema) name

def domainConstraintNames : List String :=
  s.types.entries.flatMap fun entry =>
    ((TypeOverlay.domain entry.2).map fun (_, d) => d.constraintNames).getD []

/-- A name for a constraint that was given none, beside those that are reserved. -/
def allocateDomainConstraintName (domain : ObjectId) (label : String) (reserved : List String) :
    String :=
  firstFree
    (fun name => decide (name ∈ reserved) || s.namespaceConstraintNameIsTaken domain.schema name)
    (fun suffix => postgresObjectName domain.name none (suffixedLabel label suffix))
    (reserved.length + s.constraints.keys.length + s.domainConstraintNames.length) 0

end AnalysisState

section Containers

/-- Takes array brackets off the end, on the characters in reverse. -/
def dropBrackets : List Char → List Char
  | ']' :: '[' :: rest => dropBrackets rest
  | reversed => reversed

def stripArrayTypeId (id : ObjectId) : ObjectId × Bool :=
  let reversed := id.name.toList.reverse
  let stripped := dropBrackets reversed
  (⟨id.schema, String.ofList stripped.reverse⟩, decide (stripped.length < reversed.length))

/-- A domain over a member of the closure joins it. -/
def takeDomain (acc : Finset ObjectId × Bool) (entry : Sigma fun _ : ObjectId => TypeOverlay) :
    Finset ObjectId × Bool :=
  if entry.1 ∈ acc.1 then acc
  else match TypeOverlay.domain entry.2 with
    | some (_, d) =>
      if d.baseTypeId.any fun base => decide (base ∈ acc.1) then (insert entry.1 acc.1, true)
      else acc
    | none => acc

/-- The identities that the values of a type are made of. -/
def TypeKind.containedTypes : TypeKind → List ObjectId
  | .composite fields => fields.filterMap (·.dataTypeId)
  | .range state => state.subtypeId.toList
  | .multirange source => source.toList
  | .enum _ | .domain _ | .base .. => []

namespace AnalysisState

variable (s : AnalysisState)

/-- The domain and those that are, in the end, over it. -/
def domainClosure (domain : ObjectId) : Finset ObjectId :=
  (saturate (fun _ domains => s.types.entries.foldl takeDomain (domains, false))
    (s.types.entries.length + 2) 0 ⟨[domain], List.nodup_singleton domain⟩).getD ∅

/-- What the values of a present type are made of. -/
def partsOf (id : ObjectId) : List ObjectId :=
  match s.types.lookup id with
  | some (.present state) => state.kind.containedTypes
  | _ => []

/-- `type_stores_domain_in_container`, with the identities visited so far. -/
def typeStoresDomain (domains : Finset ObjectId) :
    Nat → ObjectId → Finset ObjectId → Bool × Finset ObjectId
  | 0, _, visiting => (false, visiting)
  | fuel + 1, id, visiting =>
    if id ∈ visiting then (false, visiting)
    else
      let contains (acc : Bool × Finset ObjectId) (part : ObjectId) : Bool × Finset ObjectId :=
        if acc.1 then acc
        else if (stripArrayTypeId part).1 ∈ domains then (true, acc.2)
        else typeStoresDomain domains fuel (stripArrayTypeId part).1 acc.2
      if (stripArrayTypeId id).2 then contains (false, insert id visiting) (stripArrayTypeId id).1
      else (s.partsOf id).foldl contains (false, insert id visiting)

/-- More steps than there are types, one of which is the domain itself. -/
def containerFuel (domain : ObjectId) : Nat := (s.types.erase domain).entries.length + 3

def columnStoresDomain (domain : ObjectId) (column : Column) : Bool :=
  column.typeId.any fun id =>
    (s.typeStoresDomain (s.domainClosure domain) (s.containerFuel domain) id ∅).1

/-- Values of the domain are stored inside others, where they cannot be checked. -/
def domainContainerValidationConflict (domain : ObjectId) (shown : String) : Option String :=
  s.relations.entries.findSome? fun entry =>
    match entry.2 with
    | .present relation => (relation.columns.find? (s.columnStoresDomain domain)).map fun column =>
      "cannot alter type '" ++ shown ++ "' because column '" ++ relation.id.display ++ "." ++
        column.name ++ "' uses it"
    | .dropped => none

/-- Some relation has a column of the domain, or of one over it. -/
def usesDomain (domain : ObjectId) : Bool :=
  s.relations.entries.any fun entry =>
    match entry.2 with
    | .present relation => relation.columns.any fun column => column.typeId.any fun id =>
      !(stripArrayTypeId id).2 && decide ((stripArrayTypeId id).1 ∈ s.domainClosure domain)
    | .dropped => false

def taintDomainValidationIfDataScanned (domain : ObjectId) : AnalysisState :=
  if s.usesDomain domain then s.taint .unmodeledState .statement else s

/-- Not-null constraints of domains are recorded from PostgreSQL 18 on. -/
def recordsDomainNotNull : Bool := s.pgVersion.any fun version => decide (180000 ≤ version)

end AnalysisState

end Containers

namespace CreateDomain

variable (create : CreateDomain) (text : TypeText)

/-- What the loop over the clauses has collected. -/
structure Clauses where
  reserved : List String := []
  constraints : KeyedMap String DomainConstraintState := ∅
  notNullConstraint : Option String := none
  sawNull : Bool := false

def nameInUse (name : String) : String :=
  "constraint '" ++ name ++ "' for domain '" ++ create.id.display ++ "' already exists"

/-- The name for a clause: its own, if it is not reserved, or one allocated for it. -/
def reserveName (s : AnalysisState) (name : Option String) (label : String)
    (reserved : List String) : Except String String :=
  match name with
  | some name => if name ∈ reserved then .error (create.nameInUse name) else .ok name
  | none => .ok (s.allocateDomainConstraintName create.id.id label reserved)

def addClause (s : AnalysisState) (acc : Clauses) :
    DomainConstraintFact → Except String Clauses
  | .check check => do
    let name ← create.reserveName s check.name "check" acc.reserved
    pure { acc with
      reserved := name :: acc.reserved
      constraints := acc.constraints.insert name (check.state name) }
  | .notNull name =>
    if acc.notNullConstraint.isSome then .error "redundant NOT NULL constraint definition"
    else if acc.sawNull then .error "conflicting NULL/NOT NULL constraints"
    else do
      let name ← create.reserveName s name "not_null" acc.reserved
      pure { acc with reserved := name :: acc.reserved, notNullConstraint := some name }
  | .null =>
    if acc.notNullConstraint.isSome then .error "conflicting NULL/NOT NULL constraints"
    else pure { acc with sawNull := true }

/-- What is checked and resolved before the clauses. -/
def checkDomain : Statement CollationPair := do
  ensureCreationTarget create.id
  refuseIf ((← get).relationNamespaceIsTaken create.id.id)
    ("type '" ++ create.id.display ++ "' already exists")
  checkDeclaredType text.toSqlText create.baseType
  resolveCollation text create.baseType create.collation

/-- A default that is not folded away. -/
def writtenDefault : Option DomainDefaultFact := create.default.filter fun d => !d.isNull

def taintUnprovenDefault (s : AnalysisState) : AnalysisState :=
  match create.writtenDefault with
  | some d =>
    if text.domainDefaultIsProvablyCoercible create.baseType d.expression then s
    else s.taint .unknownObjectState .statement
  | none => s

def domainState (s : AnalysisState) (collation : CollationPair) (clauses : Clauses) :
    DomainState :=
  { baseType := create.baseType
    baseTypeId := s.resolveTypeReference text.toSqlText create.baseType
    collation := collation.1
    collationId := collation.2
    default := create.writtenDefault.map (·.expression)
    defaultText := create.writtenDefault.map (·.text)
    notNull := clauses.notNullConstraint.isSome
    notNullConstraint := clauses.notNullConstraint
    constraints := clauses.constraints }

def install (collation : CollationPair) (clauses : Clauses) (s : AnalysisState) : AnalysisState :=
  let d := create.domainState text s collation clauses
  let s := (s.snapshotType create.id.id).bumpGeneration
  s.setTypes (s.types.insert create.id.id (.present
    { id := create.id.id, generation := s.generationCounter, owner := ⟨"", s.currentRole⟩,
      kind := .domain d }))

def apply : Statement MutationResult := do
  let collation ← create.checkDomain text
  match create.constraints.foldlM (create.addClause (← get)) {} with
  | .error reason => refuse reason
  | .ok clauses =>
    modify (create.taintUnprovenDefault text)
    modify (create.install text collation clauses)
    pure .applied

end CreateDomain

section AddConstraint

variable (domain : ObjectRef)

/-- `get_mut` on a present domain. -/
def AnalysisState.modifyDomain (s : AnalysisState) (id : ObjectId)
    (f : DomainState → DomainState) : AnalysisState :=
  match s.types.lookup id with
  | some (.present state) =>
    match state.kind with
    | .domain d => s.setTypes (s.types.insert id (.present { state with kind := .domain (f d) }))
    | _ => s
  | _ => s

def ensureDomain : Statement Unit := do
  let isDomain : TypeKind → Bool
    | .domain _ => true
    | _ => false
  match (← get).typeLookup domain isDomain with
  | .present => pure ()
  | .wrongKind => refuse ("type '" ++ domain.display ++ "' is not a domain")
  | .authoritativelyAbsent | .tombstone =>
    refuse ("domain '" ++ domain.display ++ "' does not exist")
  | .unknown => leaveUnresolved .unknownObjectState

def constraintNameInUse (name : String) : String :=
  "constraint '" ++ name ++ "' for domain '" ++ domain.display ++ "' already exists"

def addNamedCheck (check : DomainCheckFact) (name : String) : Statement MutationResult := do
  let s ← get
  refuseIf (s.domainConstraintNameIsTaken domain.id name) (constraintNameInUse domain name)
  if check.notValid then pure ()
  else do
    refuseFound (s.domainContainerValidationConflict domain.id domain.display) fun message => message
    modify fun s => s.taintDomainValidationIfDataScanned domain.id
  modify fun s => (s.snapshotType domain.id).modifyDomain domain.id fun d =>
    { d with constraints := d.constraints.insert name (check.state name) }
  pure .applied

def addNamedNotNull (name : String) : Statement MutationResult := do
  let s ← get
  refuseIf (s.namespaceConstraintNameIsTaken domain.id.schema name) (constraintNameInUse domain name)
  refuseFound (s.domainContainerValidationConflict domain.id domain.display) fun message => message
  modify fun s => s.taintDomainValidationIfDataScanned domain.id
  modify fun s => (s.snapshotType domain.id).modifyDomain domain.id fun d =>
    { d with
      notNull := true
      notNullConstraint := if s.recordsDomainNotNull then some name else none }
  pure .applied

def addDomainCheck (check : DomainCheckFact) : Statement MutationResult := do
  let s ← get
  addNamedCheck domain check
    (check.name.getD (s.allocateDomainConstraintName domain.id "check" []))

def addDomainNotNull (name : Option String) : Statement MutationResult := do
  let s ← get
  match (s.types.lookup domain.id).bind TypeOverlay.domain with
  | some (_, d) =>
    if d.notNull then pure .noOp
    else
      let name := name.getD (s.allocateDomainConstraintName domain.id "not_null" [])
      addNamedNotNull domain name
  | none => refuse ("domain '" ++ domain.display ++ "' does not exist")

/-- `ALTER DOMAIN ... ADD` with one clause. -/
def addDomainConstraint (constraint : DomainConstraintFact) : Statement MutationResult := do
  ensureDomain domain
  match constraint with
  | .check check => addDomainCheck domain check
  | .notNull name => addDomainNotNull domain name
  | .null => leaveUnresolved .unsupportedSemantics

end AddConstraint

end SafeMigrate
