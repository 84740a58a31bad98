import SafeMigrate.DropTable

/-! Transaction control: frames are opened, merged and unwound as the
statements ask, and an aborted transaction runs nothing but its end. -/

namespace SafeMigrate

inductive TransactionControl
  | begin
  | commit (chain : Bool)
  | rollback (chain : Bool)
  | savepoint (name : String)
  | releaseSavepoint (name : String)
  | rollbackToSavepoint (name : String)
deriving DecidableEq

namespace AnalysisState

def rollbackFrames (s : AnalysisState) (frames : List TransactionFrame) : AnalysisState :=
  frames.foldl rollbackFrame s

def applyBeginTransaction (s : AnalysisState) : MutationResult × AnalysisState :=
  match s.transactions with
  | [] => (.applied, s.setTransactions [rootFrame])
  | _ :: _ => (.noOp, s)

def onCommitActions (s : AnalysisState) : List (ObjectId × OnCommitAction) :=
  s.relations.entries.filterMap fun entry =>
    match entry.2 with
    | .present relation =>
      if relation.persistence = .temporary then relation.onCommit.map (entry.1, ·) else none
    | .dropped => none

/-- `inferred` is the schema mark that the map keeps with its keys. -/
def applyOnCommitAction (inferred : ObjectId → Bool) (s : AnalysisState)
    (action : ObjectId × OnCommitAction) : AnalysisState :=
  match action.2 with
  | .preserveRows => s
  | .deleteRows =>
    match s.relations.lookup action.1 with
    | some (.present relation) =>
      s.setRelations (s.relations.insert action.1
        (.present { relation with estimatedRows := some 0, relpages := some 0 }))
    | _ => s
  | .drop =>
    (s.applyDropTable
      { ids := [⟨action.1, inferred action.1⟩], ifExists := false, cascade := true } none).2

def applyOnCommitActions (inferred : ObjectId → Bool) (s : AnalysisState) : AnalysisState :=
  s.onCommitActions.foldl (applyOnCommitAction inferred) s

def applyCommitTransaction (inferred : ObjectId → Bool) (s : AnalysisState) (chain : Bool) :
    MutationResult × AnalysisState :=
  if chain && s.transactions.isEmpty then
    (.rejected "COMMIT AND CHAIN can only be used in transaction blocks",
      s.taint .transactionStateUnknown .chain)
  else
    let s :=
      if s.transactionAborted then (s.rollbackFrames s.transactions).setTransactions []
      else applyOnCommitActions inferred (s.setTransactions []).restorePersistentRoleContext
    let s := s.setTransactionAborted false
    (.applied, if chain then s.setTransactions (rootFrame :: s.transactions) else s)

def applyRollbackTransaction (s : AnalysisState) (chain : Bool) : MutationResult × AnalysisState :=
  if chain && s.transactions.isEmpty then
    (.rejected "ROLLBACK AND CHAIN can only be used in transaction blocks",
      s.taint .transactionStateUnknown .chain)
  else
    let s := ((s.rollbackFrames s.transactions).setTransactions []).setTransactionAborted false
    (.applied, if chain then s.setTransactions [rootFrame] else s)

/-- A savepoint name that no open frame carries. -/
def unknownSavepoint (s : AnalysisState) (name : String) : MutationResult × AnalysisState :=
  let s := s.taint .transactionStateUnknown .chain
  (.rejected ("savepoint '" ++ name ++ "' does not exist"),
    if s.transactions.isEmpty then s else s.setTransactionAborted true)

def applyRollbackToSavepoint (s : AnalysisState) (name : String) :
    MutationResult × AnalysisState :=
  match s.transactions.dropWhile fun frame => !isNamedSavepoint name frame.kind with
  | [] => s.unknownSavepoint name
  | frame :: outer =>
    let rolledBack := s.transactions.takeWhile fun frame => !isNamedSavepoint name frame.kind
    let s := (s.setTransactions (frame :: outer)).rollbackFrames rolledBack
    let s := s.setTransactions ({ frame with undoLog := [] } :: outer)
    (.applied, (s.rollbackUndoLog frame.undoLog).setTransactionAborted false)

def applySavepoint (s : AnalysisState) (name : String) : MutationResult × AnalysisState :=
  if s.transactions.isEmpty then
    (.rejected "SAVEPOINT can only be used in transaction blocks",
      s.taint .transactionStateUnknown .chain)
  else (.applied, s.setTransactions (savepointFrame name :: s.transactions))

def applyReleaseSavepoint (s : AnalysisState) (name : String) : MutationResult × AnalysisState :=
  match s.transactions.dropWhile fun frame => !isNamedSavepoint name frame.kind with
  | [] => s.unknownSavepoint name
  | [_] =>
    (.rejected ("savepoint '" ++ name ++ "' is not inside a transaction"),
      s.taint .transactionStateUnknown .chain)
  | frame :: outer :: rest =>
    let inner := s.transactions.takeWhile fun frame => !isNamedSavepoint name frame.kind
    let released := (inner ++ [frame]).reverse
    (.applied, s.setTransactions
      ({ outer with undoLog := outer.undoLog ++ released.flatMap (·.undoLog) } :: rest))

def applyTransactionInner (inferred : ObjectId → Bool) (s : AnalysisState) :
    TransactionControl → MutationResult × AnalysisState
  | .begin => s.applyBeginTransaction
  | .commit chain => s.applyCommitTransaction inferred chain
  | .rollback chain => s.applyRollbackTransaction chain
  | .savepoint name => s.applySavepoint name
  | .releaseSavepoint name => s.applyReleaseSavepoint name
  | .rollbackToSavepoint name => s.applyRollbackToSavepoint name

def runsWhenAborted : TransactionControl → Bool
  | .commit _ => true
  | .rollback _ => true
  | .rollbackToSavepoint _ => true
  | _ => false

/-- `apply` on a transaction-control mutation. -/
def applyTransactionControl (inferred : ObjectId → Bool) (s : AnalysisState)
    (control : TransactionControl) : MutationResult × AnalysisState :=
  if s.transactionAborted && !runsWhenAborted control then (.notExecuted, s)
  else match s.applyTransactionInner inferred control with
    | (.conflict kind, s) =>
      (.conflict kind, if s.transactions.isEmpty then s else s.setTransactionAborted true)
    | result => result

end AnalysisState

end SafeMigrate
