import SafeMigrate.DropSchema
import SafeMigrate.SequenceCommands

/-! `DROP SEQUENCE`: the checks of the listed sequences, and what becomes of the column
defaults with `CASCADE`. -/

namespace SafeMigrate

open Command

namespace DependencyKind

def isColumnDefaultOnSequence : DependencyKind → Bool
  | columnDefaultOnSequence _ => true
  | _ => false

end DependencyKind

structure DropSequence where
  ids : List ObjectRef
  ifExists : Bool
  cascade : Bool

namespace AnalysisState

/-- The catalog cannot tell of everything that depends on the sequence. -/
def sequenceBeyondCoverage (s : AnalysisState) (id : ObjectId) : Bool :=
  decide (id ∈ s.baselineSequences) &&
    (!s.baselineHasCoverage .dependencies || s.baselineScopedFamilyObject id .sequences)

/-- A column default names the sequence by the identity it has now. -/
def hasDefaultDependencies (s : AnalysisState) (id : ObjectId) : Bool :=
  s.graph.edges.any fun edge => edge.referenced == id && edge.kind.isColumnDefaultOnSequence &&
    decide (s.graph.resolveRename edge.dependent ∉ s.coDroppedObjects)

end AnalysisState

namespace DropSequence

variable (drop : DropSequence)

def checkMember (r : ObjectRef) : Statement Unit := do
  match (← get).extensionMemberDropConflict .sequence r "sequence" with
  | some result => throw result
  | none => pure ()

/-- A lookup of sequences has no kind to be wrong about. -/
def checkTarget (r : ObjectRef) : Statement Unit := do
  match (← get).sequenceLookup r with
  | .present => pure ()
  | .authoritativelyAbsent | .tombstone =>
    refuseIf (drop.ifExists = false) ("sequence '" ++ r.display ++ "' does not exist")
  | _ => leaveUnresolved .unknownObjectState

/-- The listed sequences that are present. -/
def targets : Statement (List ObjectRef) := do
  drop.ids.forM checkMember
  drop.ids.forM drop.checkTarget
  let s ← get
  let present := drop.ids.filter fun r => s.sequenceIsPresent r.id
  if present = [] then throw .noOp
  leaveUnresolvedIf (present.any (fun r => s.sequenceBeyondCoverage r.id) = true)
    .catalogCoverageIncomplete
  pure present

def checkDependents (r : ObjectRef) : Statement Unit := do
  let s ← get
  match s.presentSequence r.id with
  | none => pure ()
  | some sequence => do
    refuseIf (sequence.kind = .identity)
      ("cannot drop identity sequence '" ++ r.display ++ "' independently")
    refuseIf ((sequence.kind = .serialLike ∨ s.hasDefaultDependencies r.id = true) ∧
      drop.cascade = false) ("sequence '" ++ r.display ++ "' still has dependent defaults")

def clearDefaults (present : List ObjectId) (s : AnalysisState) : AnalysisState :=
  let sequences := present.filterMap fun id => (s.presentSequence id).map fun sequence =>
    (id, sequence.kind, sequence.ownedBy)
  sequences.foldl (fun s sequence =>
    s.clearSequenceDefaultsOnCascade sequence.1 sequence.2.1 sequence.2.2) s

def write (present : List ObjectId) (s : AnalysisState) : AnalysisState :=
  let s := if drop.cascade then clearDefaults present s else s
  let s := present.foldl AnalysisState.tombstoneSequence s
  s.retainGraphEdges fun edge =>
    match edge.kind with
    | .sequenceOwnedBy _ => decide (edge.dependent ∉ present)
    | .columnDefaultOnSequence _ => decide (edge.referenced ∉ present)
    | _ => true

def command : Statement MutationResult := do
  let present ← drop.targets
  present.forM drop.checkDependents
  modify (drop.write (present.map (·.id)))
  pure .applied

end DropSequence

def AnalysisState.applyDropSequence (s : AnalysisState) (drop : DropSequence) :
    MutationResult × AnalysisState := drop.command.outcome s

end SafeMigrate
