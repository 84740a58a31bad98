import SafeMigrate.RelationRename
import SafeMigrate.Roles
import SafeMigrate.Sequences
import SafeMigrate.Writes

/-! `CREATE SEQUENCE` and `ALTER SEQUENCE`: the option list, the merged
parameters, the value that the sequence stands at, and ownership. -/

namespace SafeMigrate

/-- An integer as a statement writes it, if it fits into 64 bits. -/
def parseI64 (text : String) : Option Int :=
  let value := match (trimText text).toList with
    | '-' :: digits => (parseDigits digits).map fun n => -(n : Int)
    | '+' :: digits => (parseDigits digits).map fun n => (n : Int)
    | digits => (parseDigits digits).map fun n => (n : Int)
  value.filter fun n => decide (-9223372036854775808 ≤ n ∧ n ≤ 9223372036854775807)
where
  parseDigits (digits : List Char) : Option Nat :=
    if digits.isEmpty || !digits.all Char.isDigit then none
    else some (digits.foldl (fun n c => 10 * n + (c.toNat - '0'.toNat)) 0)

/-- A clause of `CREATE SEQUENCE` or of an identity column, as it is parsed. -/
inductive SequenceClause
  | asType (ty : Option String)
  | cache (expr : Option String)
  | cycle
  | noCycle
  | increment (expr : Option String)
  | maxValue (expr : Option String)
  | noMaxValue
  | minValue (expr : Option String)
  | noMinValue
  | start (expr : Option String)
  | logged
  | unlogged
  | sequenceName (name : Option ObjectRef)
  | ownedBy (owner : Option (ObjectRef × String))
  | restart

namespace SequenceClause

/-- Clauses of one kind share a name. -/
def name : SequenceClause → String
  | asType _ => "as"
  | cache _ => "cache"
  | cycle | noCycle => "cycle"
  | increment _ => "increment"
  | maxValue _ | noMaxValue => "maxvalue"
  | minValue _ | noMinValue => "minvalue"
  | start _ => "start"
  | logged | unlogged => "logged"
  | sequenceName _ => "sequence_name"
  | ownedBy _ => "owned_by"
  | restart => "restart"

def owner : SequenceClause → Option (ObjectRef × String)
  | ownedBy owner => owner
  | _ => none

/-- One round of `extract_sequence_options`. A clause that is not understood
leaves the whole statement out. -/
def extract (result : IdentitySequenceOptions) : SequenceClause → Option IdentitySequenceOptions
  | asType ty => ty.map fun ty => { result with dataType := some ty }
  | cache expr => (expr.bind parseI64).map fun n => { result with cacheSize := some n }
  | cycle => some { result with cycle := some true }
  | noCycle => some { result with cycle := some false }
  | increment expr => (expr.bind parseI64).map fun n => { result with increment := some n }
  | maxValue expr => (expr.bind parseI64).map fun n => { result with maxValue := some (some n) }
  | noMaxValue => some { result with maxValue := some none }
  | minValue expr => (expr.bind parseI64).map fun n => { result with minValue := some (some n) }
  | noMinValue => some { result with minValue := some none }
  | start expr => (expr.bind parseI64).map fun n => { result with startValue := some n }
  | logged => some { result with persistence := some true }
  | unlogged => some { result with persistence := some false }
  | sequenceName name => name.map fun name => { result with sequenceName := some name }
  | ownedBy _ => some result
  | restart => none

end SequenceClause

def extractSequenceOptions (clauses : List SequenceClause) : Option IdentitySequenceOptions :=
  clauses.foldlM SequenceClause.extract {}

inductive SequenceOption
  | asType (dataType : String)
  | cache (value : Int)
  | cycle (value : Bool)
  | increment (value : Int)
  | logged (value : Bool)
  | maxValue (value : Option Int)
  | minValue (value : Option Int)
  | ownedBy (owner : Option (ObjectRef × String))
  | sequenceName (name : String)
  | start (value : Int)
  | restart (value : Option Int)
deriving DecidableEq

namespace SequenceOption

/-- The name that a repeated option is recognized by. -/
def name : SequenceOption → String
  | asType _ => "as"
  | cache _ => "cache"
  | cycle _ => "cycle"
  | increment _ => "increment"
  | logged _ => "logged"
  | maxValue _ => "maxvalue"
  | minValue _ => "minvalue"
  | ownedBy _ => "owned_by"
  | sequenceName _ => "sequence_name"
  | start _ => "start"
  | restart _ => "restart"

/-- Ownership is a graph transition and the name is documentation, neither is a
parameter. -/
def collect (set : SequenceOptionSet) : SequenceOption → SequenceOptionSet
  | asType dataType => { set with asType := some dataType }
  | cache value => { set with cache := some value }
  | cycle value => { set with cycle := some value }
  | increment value => { set with increment := some value }
  | logged value => { set with logged := some value }
  | maxValue value => { set with maxValue := some value }
  | minValue value => { set with minValue := some value }
  | start value => { set with start := some value }
  | restart value => { set with restart := some value }
  | ownedBy _ | sequenceName _ => set

def owner : SequenceOption → Option (Option (ObjectRef × String))
  | ownedBy owner => some owner
  | _ => none

end SequenceOption

/-- A repeated option is rejected, the others are collected by name. -/
def sequenceOptionSet (options : List SequenceOption) : Except String SequenceOptionSet :=
  go [] {} options
where
  go (seen : List String) (set : SequenceOptionSet) :
      List SequenceOption → Except String SequenceOptionSet
  | [] => .ok set
  | option :: options =>
    if option.name ∈ seen then
      .error ("conflicting or redundant options: \"" ++ option.name ++
        "\" specified more than once")
    else go (option.name :: seen) (option.collect set) options

/-- Whether the merged bounds exclude values that the old bounds admitted. -/
def sequenceBoundsNarrowed (current merged : SequenceParameters) : Bool :=
  decide (current.minValue < merged.minValue) || decide (merged.maxValue < current.maxValue)

/-- The check of the value that the sequence stands at. A value that is not exact
proves a conflict only if the old direction cannot have moved it back. -/
def sequenceRuntimeBoundsConflict (current : SequenceState) (parameters : SequenceParameters) :
    Option String :=
  current.runtime.lastValue.bind fun lastValue =>
    if lastValue < parameters.minValue ∧ (current.runtimeExact = true ∨
        current.parameters.cycle = false ∧ current.parameters.increment < 0) then
      some ("RESTART value (" ++ toString lastValue ++ ") cannot be less than MINVALUE (" ++
        toString parameters.minValue ++ ")")
    else if parameters.maxValue < lastValue ∧ (current.runtimeExact = true ∨
        current.parameters.cycle = false ∧ 0 < current.parameters.increment) then
      some ("RESTART value (" ++ toString lastValue ++ ") cannot be greater than MAXVALUE (" ++
        toString parameters.maxValue ++ ")")
    else none

structure CreateSequence where
  id : ObjectRef
  ifNotExists : Bool
  ownedBy : Option (ObjectRef × String)
  persistence : SequencePersistence
  options : IdentitySequenceOptions

inductive AlterSequenceAction
  | ownerTo (owner : RoleFact)
  | renameTo (newId : ObjectId)
  | setSchema (newId : ObjectId)
deriving DecidableEq

structure AlterSequence where
  id : ObjectRef
  ifExists : Bool
  options : List SequenceOption
  action : Option AlterSequenceAction

namespace AnalysisState

def presentSequence (s : AnalysisState) (id : ObjectId) : Option SequenceState :=
  match s.sequences.lookup id with
  | some (.present sequence) => some sequence
  | _ => none

def sequenceLookup (s : AnalysisState) (r : ObjectRef) : ObjectLookup :=
  if s.lookupShadowed r then .unknown
  else match s.sequences.lookup r.id with
    | some (.present _) => .present
    | some .dropped => .tombstone
    | none =>
      if s.baselineCoversFamilyObject r.id .sequences then .authoritativelyAbsent else .unknown

/-- `snapshot_sequence` followed by a write to the present sequence. -/
def updateSequence (s : AnalysisState) (id : ObjectId) (f : SequenceState → SequenceState) :
    AnalysisState :=
  let s := s.snapshotSequence id
  match s.presentSequence id with
  | some sequence => s.setSequences (s.sequences.insert id (.present (f sequence)))
  | none => s

end AnalysisState

section Ownership

def sameSchemaReason : String := "sequence must be in the same schema as its owning table"

def sameOwnerReason : String := "sequence and table must have the same owner"

def isTable (kind : RelationKind) : Bool := decide (kind = .table)

def ensureSequenceOwner (table : ObjectRef) : Statement Unit :=
  ensureRelationTarget table isTable ("relation '" ++ table.display ++ "' does not exist")
    ("sequence owner '" ++ table.display ++ "' is not a table")

def missingOwnerColumn (table : ObjectRef) (column : String) : String :=
  "column '" ++ table.display ++ "." ++ column ++ "' does not exist"

end Ownership

namespace CreateSequence

/-- The statement that the clauses amount to. The name of an identity sequence
has no place in it. -/
def ofClauses (id : ObjectRef) (ifNotExists : Bool) (persistence : SequencePersistence)
    (clauses : List SequenceClause) : Option CreateSequence :=
  (extractSequenceOptions clauses).map fun options =>
    { id, ifNotExists, ownedBy := clauses.findSome? SequenceClause.owner, persistence,
      options := { options with sequenceName := none } }

variable (create : CreateSequence)

def checkOwner : Statement Unit := do
  match create.ownedBy with
  | none => pure ()
  | some (table, column) => do
    refuseIf (table.id.schema ≠ create.id.id.schema) sameSchemaReason
    ensureSequenceOwner table
    let s ← get
    match s.presentRelation table.id with
    | some relation => do
      refuseIf (relation.hasColumn column = false) (missingOwnerColumn table column)
      refuseIf (s.currentRoleKnown = true ∧ relation.owner.name ≠ s.currentRole) sameOwnerReason
    | none =>
      if s.baselineCoversFamilyObject table.id .relations then
        refuse ("relation '" ++ table.display ++ "' does not exist")
      else leaveUnresolved .unknownObjectState

def parameters : Except String SequenceParameters :=
  let set := SequenceOptionSet.fromIdentityOptions create.options
  (initSequenceParameters { persistence := create.persistence } set true).map fun parameters =>
    { parameters with persistence := set.persistence.getD parameters.persistence }

/-- The sequence under the generation that was drawn for it. -/
def write (parameters : SequenceParameters) (s : AnalysisState) : AnalysisState :=
  let s := s.setSequences (s.sequences.insert create.id.id (.present
    { id := create.id.id, owner := ⟨"", s.currentRole⟩,
      ownedBy := create.ownedBy.map fun owner => (owner.1.id, owner.2),
      kind := if create.ownedBy.isSome then .owned else .standalone,
      parameters, runtime := .fresh parameters.startValue, runtimeExact := true,
      generation := s.generationCounter }))
  match create.ownedBy with
  | some (table, column) => s.addGraphEdge ⟨create.id.id, table.id, .sequenceOwnedBy column⟩
  | none => s

def command : Statement MutationResult := do
  ensureCreationTarget create.id
  let taken := (← get).relationNamespaceIsTaken create.id.id
  if create.ifNotExists && taken then throw .noOp
  refuseIf (taken = true) ("relation '" ++ create.id.display ++ "' already exists")
  create.checkOwner
  modify fun s => (s.snapshotSequence create.id.id).bumpGeneration
  match create.parameters with
  | .error reason => refuse reason
  | .ok parameters => do
    modify (create.write parameters)
    pure .applied

end CreateSequence

namespace AlterSequence

variable (alter : AlterSequence)

def missing : String := "sequence '" ++ alter.id.display ++ "' does not exist"

/-- The sequence as the statement finds it. -/
def checkTarget : Statement SequenceState := do
  let s ← get
  match s.sequenceLookup alter.id with
  | .present => match s.presentSequence alter.id.id with
    | some current => pure current
    | none => leaveUnresolved .unknownObjectState
  | .authoritativelyAbsent => if alter.ifExists then throw .noOp else refuse alter.missing
  | .tombstone =>
    if s.baselineCoversFamilyObject alter.id.id .sequences then refuse alter.missing
    else if alter.ifExists then throw .noOp
    else leaveUnresolved .unknownObjectState
  | _ => leaveUnresolved .unknownObjectState

/-- The parameters that the options amount to, over those the sequence has. -/
def merged (current : SequenceParameters) (set : SequenceOptionSet) :
    Except String SequenceParameters :=
  (initSequenceParameters current set false).map fun merged =>
    { merged with persistence := set.persistence.getD merged.persistence }

def checkRuntime (current : SequenceState) (merged : SequenceParameters) : Statement Unit := do
  match sequenceRuntimeBoundsConflict current merged with
  | some reason => refuse reason
  | none =>
    taintIf (sequenceBoundsNarrowed current.parameters merged = true ∧
      current.runtimeExact = false) .baselineStale .chain

def writeParameters (current : SequenceState) (merged : SequenceParameters)
    (restart : Option (Option Int)) : Statement Unit :=
  match restart with
  | some value => modify fun s => s.updateSequence alter.id.id fun sequence =>
      { sequence with parameters := merged, runtimeExact := true,
                      runtime := .fresh (value.getD merged.startValue) }
  | none => do
    checkRuntime current merged
    if merged ≠ current.parameters then
      modify fun s => s.updateSequence alter.id.id fun sequence =>
        { sequence with parameters := merged }

def alterParameters (current : SequenceState) : Statement Unit :=
  match sequenceOptionSet alter.options with
  | .error reason => refuse reason
  | .ok set => match merged current.parameters set with
    | .error reason => refuse reason
    | .ok merged => alter.writeParameters current merged set.restart

def writeOwner (owner : Option (ObjectRef × String)) (s : AnalysisState) : AnalysisState :=
  let s := (s.snapshotSequence alter.id.id).snapshotGraphFull
  let s := s.setGraph (s.graph.retainEdges fun e =>
    !(e.kind.isSequenceOwnedBy && e.dependent == alter.id.id))
  let s := match s.presentSequence alter.id.id with
    | some sequence => s.setSequences (s.sequences.insert alter.id.id (.present { sequence with
        ownedBy := owner.map fun owner => (owner.1.id, owner.2),
        kind := if owner.isSome then .owned else .standalone }))
    | none => s
  match owner with
  | some (table, column) =>
    s.setGraph (s.graph.addEdge ⟨alter.id.id, table.id, .sequenceOwnedBy column⟩)
  | none => s

/-- `OWNED BY` comes after the parameters and before any other action. -/
def alterOwnedBy (current : SequenceState) (owner : Option (ObjectRef × String)) :
    Statement Unit := do
  refuseIf (current.kind = .identity) "cannot change ownership of an identity sequence"
  match owner with
  | none => pure ()
  | some (table, column) => do
    refuseIf (table.id.schema ≠ alter.id.id.schema) sameSchemaReason
    ensureSequenceOwner table
    match (← get).presentRelation table.id with
    | none => leaveUnresolved .unknownObjectState
    | some relation => do
      refuseIf (relation.hasColumn column = false) (missingOwnerColumn table column)
      refuseIf (relation.owner ≠ current.owner) sameOwnerReason
  modify (alter.writeOwner owner)

def independentReason : String := "cannot alter an identity sequence independently"

/-- The owning table was resolved when the sequence became its own. -/
def ownerTo (current : SequenceState) (owner : RoleFact) : Statement Unit := do
  refuseIf (current.kind = .identity) independentReason
  let s ← get
  match s.roleFactIdentity owner with
  | none => leaveUnresolved .unresolvedReference
  | some (name, known) => do
    refuseIf (known = true ∧ s.rolesKnown = true ∧ s.presentRole name = none)
      ("role '" ++ name ++ "' does not exist")
    taintIf (known = true ∧ s.rolesKnown = false) .catalogCoverageIncomplete .chain
    match current.ownedBy with
    | none => pure ()
    | some (table, _) => do
      ensureSequenceOwner ⟨table, false⟩
      match (← get).presentRelation table with
      | none => leaveUnresolved .unknownObjectState
      | some relation => refuseIf (relation.owner.name ≠ name) sameOwnerReason
    modify fun s => s.updateSequence alter.id.id fun sequence => { sequence with owner := ⟨"", name⟩ }

def move (newId : ObjectId) (s : AnalysisState) : AnalysisState :=
  let s := s.snapshotNamespace
  let s := match s.presentSequence alter.id.id with
    | some sequence => s.setSequences ((s.sequences.erase alter.id.id).insert newId
        (.present { sequence with id := newId }))
    | none => s
  let s := s.setGraph ((s.graph.propagateSequenceRename alter.id.id newId).addEdge
    ⟨alter.id.id, newId, .renameTo⟩)
  { s with baselineSequences := Rename.moveMember (alter.id.id, newId) s.baselineSequences }

def moveTo (current : SequenceState) (newId : ObjectId) : Statement Unit := do
  refuseIf (current.kind = .identity) independentReason
  ensureSchemaTarget newId.schema
  refuseIf ((← get).relationNamespaceIsTaken newId = true)
    ("relation '" ++ newId.display ++ "' already exists")
  refuseIf (current.ownedBy.any fun owner => owner.1.schema ≠ newId.schema) sameSchemaReason
  modify (alter.move newId)

def execute (current : SequenceState) : Statement Unit :=
  match alter.options.findSome? SequenceOption.owner with
  | some owner => alter.alterOwnedBy current owner
  | none => match alter.action with
    | some (.ownerTo owner) => alter.ownerTo current owner
    | some (.renameTo newId) => alter.moveTo current newId
    | some (.setSchema newId) => alter.moveTo current newId
    | none => pure ()

def command : Statement MutationResult := do
  let current ← alter.checkTarget
  alter.alterParameters current
  alter.execute current
  pure .applied

end AlterSequence

end SafeMigrate
