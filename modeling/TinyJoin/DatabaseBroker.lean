import TinyJoin.EngineHost
import TinyJoin.Lib.Distinct

/-! The broker of a database's owner: what it keeps for each connected client, the transaction one of
them has open, and what each request comes to. Its requests to the host in the same Worker are settled
before they return, so no other task comes between the steps of one. -/
namespace TinyJoin
namespace Coordination

structure Connection where
  prepared : InsertionMap Nat Nat
  /-- Whether the request for its client's lock, which is granted once the client is gone, waits. -/
  watching : Bool

structure Queued where
  message : RoutedRequest
  bytes : Nat

/-- The host's token for the active transaction, and the id its client knows it by, which also names
the owner's epoch. -/
structure ActiveTransaction where
  client : String
  token : String
  id : String
deriving DecidableEq

/-- A broker, beside the host of the engine it serves. While it is busy, `running` is the request it has
taken from its queue and waits for, if any. -/
structure Broker (E ν : Type) where
  host : Host E ν
  epoch : String
  compatibility : String
  connections : InsertionMap String Connection
  queue : List Queued
  abandoned : List String
  queuedBytes : Nat
  busy : Bool
  running : Option RoutedRequest
  closed : Bool
  transaction : Option ActiveTransaction

namespace Broker
variable {E ν : Type}

def start (host : Host E ν) (epoch compatibility : String) : Broker E ν :=
  ⟨host, epoch, compatibility, .empty, [], [], 0, false, none, false, none⟩

def preparedClosed : Thrown :=
  workerError "PREPARED_STATEMENT_CLOSED" "The prepared statement is no longer available"

/-- Whether `client` has the active transaction. -/
def holds (broker : Broker E ν) (client : String) : Bool :=
  broker.transaction.any fun transaction => transaction.client == client

/-- A client's name for a prepared statement, as the engine knows it. -/
def statementId (broker : Broker E ν) (client : String) (logicalId : Nat) : Option Nat :=
  (broker.connections.get client).bind fun connection => connection.prepared.get logicalId

/-- Changes what a client has prepared. -/
def modifyPrepared (client : String) (f : InsertionMap Nat Nat → InsertionMap Nat Nat)
    (broker : Broker E ν) : Broker E ν :=
  match broker.connections.get client with
  | none => broker
  | some connection => { broker with
      connections := broker.connections.set client
        { connection with prepared := f connection.prepared } }

def abandon (client : String) (broker : Broker E ν) : Broker E ν :=
  { broker with abandoned := Distinct.add broker.abandoned client }

def endTransaction (broker : Broker E ν) : Broker E ν := { broker with transaction := none }

/-- Names whose request the host serves. -/
def serve (serving : Option Serving) (broker : Broker E ν) : Broker E ν :=
  { broker with host := { broker.host with serving } }

/-- A request to the host, whose errors come back as a client's would. -/
def rpc {α : Type} (request : Effect (Host E ν) Thrown α) : Effect (Broker E ν) Thrown α :=
  (Effect.focus host (fun host broker => { broker with host }) request).orElse
    fun error => Effect.fail (rejection error)

section
variable (numbers : Changes.NumberText ν) (engine : WorkerEngine E ν)

/-- Rolls back the active transaction, if it is the client's. -/
def rollback (client : String) : Effect (Broker E ν) Thrown Unit := do
  match (← Effect.get).transaction with
  | none => return ()
  | some transaction =>
    if transaction.client = client then
      rpc (Host.rollbackTransaction engine transaction.token)
      Effect.modify endTransaction

/-- Drops a client that is gone, unless another client's transaction is active. -/
def forget (client : String) : Effect (Broker E ν) Thrown Unit := do
  match (← Effect.get).connections.get client with
  | none => return ()
  | some connection =>
    Effect.modify (serve none)
    (rollback engine client).orElse fun error => do
      Effect.modify endTransaction
      Effect.fail error
    if (← Effect.get).transaction.isNone then
      Effect.forEach (fun statementId : Nat =>
        (rpc (Host.closePrepared engine statementId)).orElse fun _ => return ())
        (connection.prepared.entries.map Prod.snd)
      Effect.modify fun broker => { broker with
        connections := broker.connections.delete client
        abandoned := broker.abandoned.filter (· ≠ client) }

/-- The pass over the clients that are gone. -/
def forgetAbandoned : Effect (Broker E ν) Thrown Unit := do
  Effect.forEach (fun client => do
    let broker ← Effect.get
    if broker.transaction.isNone ∨ broker.holds client then forget engine client)
    (← Effect.get).abandoned

/-- Prepares a statement again that the client had prepared with an earlier owner. -/
def restore (client : String) (statement : Nat × String) : Effect (Broker E ν) Thrown Unit := do
  if ((← Effect.get).statementId client statement.1).isNone then
    let statementId ← rpc (Host.prepareSql engine statement.2)
    Effect.modify (modifyPrepared client fun prepared => prepared.set statement.1 statementId)

def begin (client : String) (statements : List (Nat × String)) :
    Effect (Broker E ν) Thrown (Value ν) := do
  Effect.forEach (restore engine client) statements
  let token ← rpc (Host.beginTransaction engine)
  let id := (← Effect.get).epoch ++ "/" ++ token
  Effect.modify fun broker => { broker with transaction := some ⟨client, token, id⟩ }
  return .transaction id

/-- A request under the host's name for its transaction, if it names the one its client has. -/
def forwardTransaction (client : String) (method : Method) :
    Effect (Broker E ν) Thrown (Method) := do
  match method.transactionId with
  | none => return method
  | some named =>
    match (← Effect.get).transaction with
    | none => Effect.fail (.coded transactionLost)
    | some transaction =>
      if transaction.client ≠ client ∨ named ≠ transaction.id then
        Effect.fail (.coded transactionLost)
      else return method.withTransactionId (some transaction.token)

/-- A request under the engine's name for its statement, which is prepared again after a handover. -/
def forwardPrepared (client : String) (statementSql : Option String) (method : Method) :
    Effect (Broker E ν) Thrown (Method) := do
  match method with
  | .executePrepared logicalId params transactionId rowMode =>
    match (← Effect.get).statementId client logicalId, statementSql with
    | some statementId, _ => return .executePrepared statementId params transactionId rowMode
    | none, none => Effect.fail preparedClosed
    | none, some sql =>
      let statementId ← rpc (Host.prepareSql engine sql)
      Effect.modify (modifyPrepared client fun prepared => prepared.set logicalId statementId)
      return .executePrepared statementId params transactionId rowMode
  | _ => return method

/-- The host's answer to a request, which may end the transaction. -/
def forward (original forwarded : Method) : Effect (Broker E ν) Thrown (Value ν) :=
  Effect.orElse (do
    let result ← rpc (Host.handleRequest numbers engine forwarded)
    if original.isFinish then Effect.modify endTransaction
    return result) fun error => do
      match original with
      | .commitTransaction _ =>
        -- the host may already have discarded the transaction
        match (← Effect.get).transaction with
        | none => pure ()
        | some transaction =>
          (rpc (Host.rollbackTransaction engine transaction.token)).orElse fun _ => return ()
        Effect.modify endTransaction
      | _ => pure ()
      Effect.fail error

/-- What becomes of a request once its turn has come, where the database's revision is `revision`. -/
def handle (revision : Nat) (message : RoutedRequest) : Effect (Broker E ν) Thrown (Value ν) :=
  let client := message.client
  let request := message.request
  match request.method with
  | .init _ => return .revision revision
  | .close => do
    Effect.modify (abandon client)
    rollback engine client
    return .undefined
  | .prepareSql sql => do
    let statementId ← rpc (Host.prepareSql engine sql)
    Effect.modify (modifyPrepared client fun prepared => prepared.set request.id statementId)
    return .prepared request.id
  | .closePrepared logicalId => do
    let statementId := (← Effect.get).statementId client logicalId
    Effect.modify (modifyPrepared client fun prepared => prepared.delete logicalId)
    match statementId with
    | none => pure ()
    | some statementId => rpc (Host.closePrepared engine statementId)
    return .undefined
  | .beginTransaction => begin engine client message.statements
  | method => do
    let forwarded ← forwardTransaction client method
    let forwarded ← forwardPrepared engine client message.statementSql forwarded
    forward numbers engine method forwarded

end

/-! ## Serving at once -/

/-- The host's name for the transaction that a request names, if it is the active one. -/
def immediateTransaction (broker : Broker E ν) : Option String → Option (Option String)
  | none => some none
  | some named =>
    match broker.transaction with
    | none => none
    | some transaction => if named = transaction.id then some (some transaction.token) else none

/-- What the host is asked for a client's statement that can be served at once. -/
def immediateParams (client : String) (request : WorkerRequest) (broker : Broker E ν) :
    Option (Method) :=
  if broker.busy ∨ 0 < broker.queue.length ∨ 0 < broker.abandoned.length ∨
      ¬request.method.isStatement ∨ (broker.transaction.isSome ∧ ¬broker.holds client) then none
  else do
    let transactionId ← broker.immediateTransaction request.method.transactionId
    match request.method with
    | .executePrepared logicalId params _ rowMode =>
      let statementId ← broker.statementId client logicalId
      return .executePrepared statementId params transactionId rowMode
    | method => return method.withTransactionId transactionId

/-- What a statement request asks the host for, if it can be served at once: its target and its
transaction under the names the engine and the host gave them. -/
def immediateStatement (localClient : String) (request : StatementRequest) (broker : Broker E ν) :
    Option (Target × Option String) :=
  if broker.closed ∨ broker.busy ∨ 0 < broker.queue.length ∨ 0 < broker.abandoned.length then none
  else do
    let token ← match broker.transaction with
      | some transaction =>
        if transaction.client ≠ localClient then none
        else match request.transaction with
          | none => some none
          | some named => if named ≠ transaction.id then none else some (some transaction.token)
      | none => if request.transaction.isSome then none else some none
    match request.target with
    | .prepared logicalId =>
      let statementId ← broker.statementId localClient logicalId
      return (.prepared statementId, token)
    | .sql sql => return (.sql sql, token)

/-- Whether the pass over the clients that are gone has one to forget. -/
def forgets (broker : Broker E ν) : Bool :=
  broker.abandoned.any fun client => broker.transaction.isNone || broker.holds client

/-- Whether a request taken from the queue comes from a client that is gone. -/
def lacks (broker : Broker E ν) (client : String) : Bool :=
  decide (client ∈ broker.abandoned) || !broker.connections.has client

/-- Whether a request may be taken up: one that a transaction does not keep waiting. -/
def eligible (broker : Broker E ν) (message : RoutedRequest) : Bool :=
  broker.transaction.isNone || broker.holds message.client ||
    message.request.method.isClose || message.request.method.isInit

/-- Whether a request may go beyond the bounds of the queue. -/
def priority (broker : Broker E ν) (message : RoutedRequest) : Bool :=
  message.request.method.isClose ||
    (broker.holds message.client && message.request.method.isFinish)

/-- Whether the queue has no room for a request. -/
def isFull (broker : Broker E ν) (message : RoutedRequest) (bytes : Nat) : Bool :=
  let priority := broker.priority message
  decide (maxQueuedBytes < bytes) ||
    decide (maxPendingRequests + (if priority then 8 else 0) ≤ broker.queue.length) ||
    decide (maxQueuedBytes + (if priority then 8192 else 0) < broker.queuedBytes + bytes)

def push (message : RoutedRequest) (bytes : Nat) (broker : Broker E ν) : Broker E ν :=
  { broker with
    queue := broker.queue ++ [⟨message, bytes⟩]
    queuedBytes := broker.queuedBytes + bytes }

/-- The queue without its request of an index. -/
def take (index : Nat) (queued : Queued) (broker : Broker E ν) : Broker E ν :=
  { broker with
    queue := broker.queue.eraseIdx index
    queuedBytes := broker.queuedBytes - queued.bytes }

def connect (client : String) (broker : Broker E ν) : Broker E ν :=
  { broker with connections := broker.connections.set client ⟨.empty, true⟩ }

/-- A client's lock is granted, which its request then waits for no more. -/
def gone (client : String) (broker : Broker E ν) : Broker E ν :=
  match broker.connections.get client with
  | none => broker
  | some connection => abandon client { broker with
      connections := broker.connections.set client { connection with watching := false } }

def close (broker : Broker E ν) : Broker E ν :=
  { broker with closed := true, connections := .empty, queue := [] }

end Broker
end Coordination
end TinyJoin
