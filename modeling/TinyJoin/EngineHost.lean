import TinyJoin.Lib.Effect
import TinyJoin.Messages

/-! The host of one engine: it checks every request against the transaction it has open, makes the
engine's calls, and notes what the engine publishes. -/
namespace TinyJoin
namespace Coordination

/-! ## The engine -/

inductive EngineCall where
  | executeSql (sql : String) (params : List JsValue) (rowMode : Option RowMode)
  | prepareSql (sql : String)
  | executePrepared (statementId : Nat) (params : List JsValue) (rowMode : Option RowMode)
  | closePrepared (statementId : Nat)
  | execSql (sql : String) (rowMode : Option RowMode)
  | beginTransaction
  | commitTransaction
  | rollbackTransaction
  | inTransaction
  | revision
  | check
  | schema
  | setSchema (schema : JsValue) (drop : Bool)
  | close

namespace EngineCall

/-- What a call returns. -/
abbrev Result (ν : Type) : EngineCall → Type
  | .executeSql .. | .executePrepared .. => StatementOutcome ν
  | .execSql .. => List (SqlResult ν)
  | .prepareSql _ | .revision => Nat
  | .commitTransaction | .setSchema .. => Changes.ApplyOutcome ν
  | .inTransaction => Bool
  | .schema => JsValue
  | .closePrepared _ | .beginTransaction | .rollbackTransaction | .check | .close => Unit

/-- Whether it executes a statement or a script. -/
def executes : EngineCall → Bool
  | .executeSql .. | .executePrepared .. | .execSql .. => true
  | _ => false

end EngineCall

/-- An engine whose states are of the type `E`. -/
structure WorkerEngine (E ν : Type) where
  run : (call : EngineCall) → Effect E Thrown (call.Result ν)
  /-- The states in which a database is opened. -/
  Opens : E → Prop

/-- A request that is being served, for the client that sent it. -/
structure Serving where
  client : String
  request : WorkerRequest

/-- A call that was made: the request it was made for, if any, the engine's state, and whether it
threw. -/
structure Called (E : Type) where
  serving : Option Serving
  call : EngineCall
  before : E
  threw : Bool

/-! ## The host -/

/-- A host whose engine is open. Beside its variables stand the calls it has made, and whose request
it is serving. -/
structure Host (E ν : Type) where
  engine : E
  queuedRequests : Nat
  activeTransactionId : Option String
  nextTransactionId : Nat
  changes : Changes.Host ν
  serving : Option Serving
  calls : List (Called E)

namespace Host
variable {E ν : Type}

def start (engine : E) : Host E ν := ⟨engine, 0, none, 1, .start, none, []⟩

def alreadyActive : Thrown :=
  workerError "TRANSACTION_ACTIVE" "A TinyJoin transaction is already active"

def notActive : Thrown :=
  workerError "TRANSACTION_NOT_ACTIVE" "The TinyJoin transaction is no longer active"

def useActive : Thrown :=
  workerError "TRANSACTION_ACTIVE" "Use the active TinyJoin transaction for this operation"

def emitInvalidation (outcome : Changes.ApplyOutcome ν) : Effect (Host E ν) Thrown Unit :=
  Effect.modify fun host => { host with changes := host.changes.emitInvalidation outcome }

/-- Announces a result, unless it is staged in a transaction or published nothing. -/
def emitUnlessInTransaction (outcome : StatementOutcome ν) : Effect (Host E ν) Thrown Unit := do
  match outcome with
  | .flat _ => return ()
  | .result result =>
    let host ← Effect.get
    if host.activeTransactionId.isNone ∧ 0 < result.outcome.tables.length then
      emitInvalidation result.outcome

def assertNoTransaction : Effect (Host E ν) Thrown Unit := do
  let host ← Effect.get
  if host.activeTransactionId.isSome then Effect.fail alreadyActive

def assertTransactionId (requestedId : Option String) : Effect (Host E ν) Thrown Unit := do
  let host ← Effect.get
  if host.activeTransactionId.isNone then
    if requestedId.isSome then Effect.fail notActive
  else if requestedId ≠ host.activeTransactionId then Effect.fail useActive

def clearTransaction (requestedId : String) : Effect (Host E ν) Thrown Unit := do
  assertTransactionId (some requestedId)
  Effect.modify fun host => { host with activeTransactionId := none }

section
variable (numbers : Changes.NumberText ν) (engine : WorkerEngine E ν)

def call (call : EngineCall) : Effect (Host E ν) Thrown (call.Result ν) := fun host =>
  let (result, state) := engine.run call host.engine
  (result, { host with
    engine := state
    calls := host.calls ++ [⟨host.serving, call, host.engine, result.toOption.isNone⟩] })

def executeSql (sql : String) (params : List JsValue) (transactionId : Option String)
    (rowMode : Option RowMode) : Effect (Host E ν) Thrown (StatementOutcome ν) := do
  assertTransactionId transactionId
  let result ← call engine (.executeSql sql params rowMode)
  emitUnlessInTransaction result
  return result

def executePrepared (statementId : Nat) (params : List JsValue) (transactionId : Option String)
    (rowMode : Option RowMode) : Effect (Host E ν) Thrown (StatementOutcome ν) := do
  assertTransactionId transactionId
  let result ← call engine (.executePrepared statementId params rowMode)
  emitUnlessInTransaction result
  return result

/-- Announces a script's results as one, once their keys are merged. -/
def emitScript (results : List (SqlResult ν)) : Effect (Host E ν) Thrown Unit := fun host =>
  let active := host.activeTransactionId.isSome
  match Changes.Host.execSql numbers (results.map SqlResult.outcome)
      { host.changes with transactionActive := active } with
  | .ok changes => (.ok (), { host with changes })
  | .error .notIterable => (.error (.uncoded "incoming is not iterable"), host)

def execSql (sql : String) (transactionId : Option String) (rowMode : Option RowMode) :
    Effect (Host E ν) Thrown (List (SqlResult ν)) := do
  assertTransactionId transactionId
  let results ← call engine (.execSql sql rowMode)
  emitScript numbers results
  return results

def prepareSql (sql : String) : Effect (Host E ν) Thrown Nat := do
  assertNoTransaction
  call engine (.prepareSql sql)

def closePrepared (statementId : Nat) : Effect (Host E ν) Thrown Unit := do
  assertNoTransaction
  call engine (.closePrepared statementId)

def beginTransaction : Effect (Host E ν) Thrown String := do
  assertNoTransaction
  call engine .beginTransaction
  let host ← Effect.get
  let transactionId := "tx-" ++ toString host.nextTransactionId
  Effect.modify fun host => { host with
    activeTransactionId := some transactionId
    nextTransactionId := host.nextTransactionId + 1 }
  return transactionId

/-- Whether a failed commit left no transaction, or the one it left is rolled back. A failure here
leaves the token active, so that the client may roll back again. -/
def cleanUp : Effect (Host E ν) Thrown Bool :=
  Effect.orElse (do
    if ← call engine .inTransaction then call engine .rollbackTransaction
    return true) fun _ => return false

def commitTransaction (transactionId : String) : Effect (Host E ν) Thrown Nat := do
  assertTransactionId (some transactionId)
  Effect.orElse (do
    let outcome ← call engine .commitTransaction
    emitInvalidation outcome
    clearTransaction transactionId
    return outcome.revision) fun error => do
      if ← cleanUp engine then clearTransaction transactionId
      Effect.fail error

def rollbackTransaction (transactionId : String) : Effect (Host E ν) Thrown Unit := do
  assertTransactionId (some transactionId)
  call engine .rollbackTransaction
  clearTransaction transactionId

def setSchema (schema : JsValue) (drop : Bool) : Effect (Host E ν) Thrown Bool := do
  assertNoTransaction
  let revision ← call engine .revision
  let outcome ← call engine (.setSchema schema drop)
  emitInvalidation outcome
  return outcome.revision ≠ revision

def handleRequest (method : Method) : Effect (Host E ν) Thrown (Value ν) :=
  match method with
  | .init _ => do
    assertNoTransaction
    return .revision (← call engine .revision)
  | .executeSql sql params transactionId rowMode =>
    .statement <$> executeSql engine sql params transactionId rowMode
  | .prepareSql sql => .prepared <$> prepareSql engine sql
  | .executePrepared statementId params transactionId rowMode =>
    .statement <$> executePrepared engine statementId params transactionId rowMode
  | .closePrepared statementId => do
    closePrepared engine statementId
    return .undefined
  | .execSql sql transactionId rowMode =>
    .results <$> execSql numbers engine sql transactionId rowMode
  | .beginTransaction => .transaction <$> beginTransaction engine
  | .commitTransaction transactionId => .revision <$> commitTransaction engine transactionId
  | .rollbackTransaction transactionId => do
    rollbackTransaction engine transactionId
    return .undefined
  | .check => do
    assertNoTransaction
    call engine .check
    return .undefined
  | .schema => .schema <$> call engine .schema
  | .setSchema schema drop => .changed <$> setSchema engine schema drop
  -- a close goes to the engine by another way, and never comes here
  | .close => return .undefined

/-- The close that releases the engine, after which no event is made. -/
def releaseResources : Effect (Host E ν) Thrown Unit := do
  Effect.modify fun host => { host with changes := { host.changes with closed := true } }
  call engine .close

/-! ### Serving at once -/

/-- Whether nothing is ahead of a request that the engine can serve. -/
def canServeNow (method : Method) (host : Host E ν) : Bool :=
  host.queuedRequests == 0 && !method.isInit && !method.isClose

/-- The outcome of a request served at once, or nothing where it must wait. -/
def requestNow (method : Method) (host : Host E ν) : Option (Except Thrown (Value ν) × Host E ν) :=
  if canServeNow method host then
    some (match handleRequest numbers engine method host with
      | (.ok value, host) => (.ok value, host)
      | (.error error, host) => (.error (rejection error), host))
  else none

/-- The run of a statement whose parameters are read where they arrived. -/
def runStatement (request : StatementRequest) (target : Target) (transactionId : Option String) :
    Effect (Host E ν) Thrown (StatementOutcome ν) := do
  let host ← Effect.get
  -- a difference is an error, which the check tells apart
  if transactionId ≠ host.activeTransactionId then assertTransactionId transactionId
  let result ← match target with
    | .prepared statementId =>
      call engine (.executePrepared statementId request.params request.rowMode)
    | .sql sql => call engine (.executeSql sql request.params request.rowMode)
  match result with
  | .flat _ => return result
  | .result published =>
    let host ← Effect.get
    if host.activeTransactionId.isNone ∧ 0 < published.outcome.tables.length then
      emitInvalidation published.outcome
    return result

/-- The outcome of a statement served at once, or nothing where it must wait. -/
def statementNow (request : StatementRequest) (target : Target) (transactionId : Option String)
    (host : Host E ν) : Option (Except Thrown (StatementOutcome ν) × Host E ν) :=
  if host.queuedRequests == 0 then some (runStatement engine request target transactionId host)
  else none

end
end Host
end Coordination
end TinyJoin
