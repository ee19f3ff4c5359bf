import TinyJoin.Notifications

/-! What passes between pages, Workers and their databases. The numbers in changed keys are of the type
`ν`. -/
namespace TinyJoin
namespace Coordination

/-! ## Errors -/

/-- An error as a response carries it. -/
structure SerializedError where
  code : String
  message : String
  retryable : Option Bool
deriving DecidableEq

/-- What code throws: something with a code, or the text that describes anything else. -/
inductive Thrown where
  | coded (error : SerializedError)
  | uncoded (message : String)
deriving DecidableEq

def coordinationError (code message : String) : SerializedError := ⟨code, message, none⟩

/-- A Worker's own error, which an object with a code stands for. -/
def workerError (code message : String) : Thrown := .coded ⟨code, message, none⟩

/-- The error a response carries for whatever a request threw. -/
def serializeError : Thrown → SerializedError
  | .coded error => error
  | .uncoded message => coordinationError "WORKER_OPERATION_FAILED" message

/-- `new ClientError(error)`, which is retryable only if it is said to be. -/
def clientError (error : SerializedError) : Thrown :=
  .coded { error with retryable := some (error.retryable.getD false) }

/-- What a request to a host in the same Worker rejects with. -/
def rejection (thrown : Thrown) : Thrown := clientError (serializeError thrown)

def leaderChanged : SerializedError := coordinationError "LEADER_CHANGED"
  "The database owner changed. The pending operation may have committed; reconcile its outcome before retrying."

def transactionLost : SerializedError := coordinationError "TRANSACTION_LOST"
  "The TinyJoin transaction ended when its database owner disconnected"

def versionMismatch : SerializedError := coordinationError "DATABASE_VERSION_MISMATCH"
  "Another tab is using an incompatible TinyJoin release. Close the old tabs and reload."

/-! ## Requests -/

inductive RowMode where
  | array | object
deriving DecidableEq

inductive StorageOptions where
  | memory
  | opfs (name : String)
deriving DecidableEq

/-- A request's method, with its parameters. -/
inductive Method where
  | init (storage : StorageOptions)
  | executeSql (sql : String) (params : List JsValue) (transactionId : Option String)
      (rowMode : Option RowMode)
  | prepareSql (sql : String)
  | executePrepared (statementId : Nat) (params : List JsValue) (transactionId : Option String)
      (rowMode : Option RowMode)
  | closePrepared (statementId : Nat)
  | execSql (sql : String) (transactionId : Option String) (rowMode : Option RowMode)
  | beginTransaction
  | commitTransaction (transactionId : String)
  | rollbackTransaction (transactionId : String)
  | check
  | schema
  | setSchema (schema : JsValue) (drop : Bool)
  | close

namespace Method

def isInit : Method → Bool
  | .init _ => true
  | _ => false

def isClose : Method → Bool
  | .close => true
  | _ => false

/-- Whether it ends a transaction. -/
def isFinish : Method → Bool
  | .commitTransaction _ | .rollbackTransaction _ => true
  | _ => false

/-- Whether it runs a statement or a script. -/
def isStatement : Method → Bool
  | .executeSql .. | .executePrepared .. | .execSql .. => true
  | _ => false

/-- `params.transactionId` -/
def transactionId : Method → Option String
  | .executeSql _ _ id _ | .executePrepared _ _ id _ | .execSql _ id _ => id
  | .commitTransaction id | .rollbackTransaction id => some id
  | _ => none

/-- `{...params, transactionId}`, where it has one. -/
def withTransactionId (id : Option String) : Method → Method
  | .executeSql sql params _ rowMode => .executeSql sql params id rowMode
  | .executePrepared statementId params _ rowMode => .executePrepared statementId params id rowMode
  | .execSql sql _ rowMode => .execSql sql id rowMode
  | .commitTransaction old => .commitTransaction (id.getD old)
  | .rollbackTransaction old => .rollbackTransaction (id.getD old)
  | method => method

end Method

structure WorkerRequest where
  id : Nat
  method : Method

/-- What a statement request names: SQL text, or a prepared statement. -/
inductive Target where
  | sql (sql : String)
  | prepared (statementId : Nat)
deriving DecidableEq

/-- A statement sent as one flat array. -/
structure StatementRequest where
  id : Nat
  target : Target
  transaction : Option String
  arrayRows : Bool
  params : List JsValue

def StatementRequest.rowMode (request : StatementRequest) : Option RowMode :=
  if request.arrayRows then some .array else none

/-- The request a statement request stands for. -/
def statementRequest (request : StatementRequest) : WorkerRequest where
  id := request.id
  method := match request.target with
    | .sql sql => .executeSql sql request.params request.transaction request.rowMode
    | .prepared statementId =>
      .executePrepared statementId request.params request.transaction request.rowMode

/-! ## Results and responses -/

/-- A statement's result as an object: what it published, and the rest, which goes on unread. -/
structure SqlResult (ν : Type) where
  outcome : Changes.ApplyOutcome ν
  rest : JsValue

/-- What an engine returns for a statement: the slots of a flat array, behind the first two, where it
published nothing, or a result. -/
inductive StatementOutcome (ν : Type) where
  | flat (slots : List JsValue)
  | result (result : SqlResult ν)

/-- What a request settles with. -/
inductive Value (ν : Type) where
  | undefined
  | revision (revision : Nat)
  | statement (outcome : StatementOutcome ν)
  | results (results : List (SqlResult ν))
  | prepared (statementId : Nat)
  | transaction (transactionId : String)
  | schema (schema : JsValue)
  | changed (changed : Bool)

/-- A response: a flat array, a result or an error, for the request of its id. -/
inductive Response (ν : Type) where
  | flat (id : Nat) (slots : List JsValue)
  | ok (id : Nat) (result : Value ν)
  | failed (id : Nat) (error : SerializedError)

def Response.id {ν : Type} : Response ν → Nat
  | .flat id _ | .ok id _ | .failed id _ => id

def Response.isFlat {ν : Type} : Response ν → Bool
  | .flat _ _ => true
  | .ok _ _ | .failed _ _ => false

/-- What a Worker posts to its page. -/
inductive Posted (ν : Type) where
  | response (response : Response ν)
  | event (event : Changes.WorkerEvent ν)

/-- An event as another thread receives it. -/
def clonedEvent {ν : Type} (event : Changes.WorkerEvent ν) : Changes.WorkerEvent ν :=
  { event with payload.keys := event.payload.keys.structuredClone }

/-- `isWorkerEvent`, of an event that a Worker made: whether its changed keys are a plain object. -/
def isWorkerEvent {ν : Type} (event : Changes.WorkerEvent ν) : Bool :=
  event.payload.keys.prototype.isNone

/-! ## What Workers post to one another -/

/-- A request on its way to the database's owner, with the texts of the statements it may need. -/
structure RoutedRequest where
  client : String
  epoch : String
  compatibility : String
  request : WorkerRequest
  statementSql : Option String
  statements : List (Nat × String)

structure Announcement where
  epoch : String
  compatibility : String
  ready : Bool
  revision : Nat
  ownerId : String
deriving DecidableEq

inductive GroupMessage (ν : Type) where
  | leader (announcement : Announcement)
  | discover
  | event (epoch : String) (event : Changes.WorkerEvent ν)
  | failed (epoch : String) (error : SerializedError)

/-- An owner's answer to another tab's request. -/
structure RoutedResponse (ν : Type) where
  epoch : String
  response : Response ν

def maxPendingRequests : Nat := 256
def maxQueuedBytes : Nat := 8 * 1024 * 1024
def maxConnections : Nat := 128
def maxPrepared : Nat := 128

/-- What the requests measure, in bytes. -/
structure Sizes where
  statementBytes : StatementRequest → Nat
  requestBytes : WorkerRequest → Nat
  routedBytes : RoutedRequest → Nat

end Coordination
end TinyJoin
