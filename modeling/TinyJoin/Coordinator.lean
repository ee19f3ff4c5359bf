import TinyJoin.DatabaseBroker

/-! One tab's Worker: the requests its page waits for, the owner it sends them to, and, once it holds
the database's lock, the owner it is itself. Each function is what the source's function of its name
does to the Worker, and a task runs to its end before the next. -/
namespace TinyJoin
namespace Coordination

structure Pending where
  request : WorkerRequest
  bytes : Nat
  epoch : Option String

/-- How far a Worker has come to own the database. -/
inductive Election where
  | idle -- its client's own lock is not yet granted
  | waiting -- for the database's lock
  | querying (epoch : String) -- for the name under which it holds the lock
  | opening (starting : Announcement)
  | owning
  | leaving -- it holds the lock until the browser takes it back
  | left
deriving DecidableEq

def Election.holdsLock : Election → Bool
  | .querying _ | .opening _ | .owning | .leaving => true
  | .idle | .waiting | .left => false

/-- The place of a Worker that gives up the lock, or the wait for it. -/
def Election.leave : Election → Election
  | .idle | .waiting | .left => .left
  | .querying _ | .opening _ | .owning | .leaving => .leaving

inductive Purpose where
  | announcement (sequence : Nat) (message : Announcement)
  | election
deriving DecidableEq

/-- A question who holds the database's lock, and the browser's answer once it has looked. -/
structure Query where
  purpose : Purpose
  held : Option (Option String)
deriving DecidableEq

/-- A request that an owner has served, and its outcome. -/
structure Served (ν : Type) where
  client : String
  request : WorkerRequest
  outcome : Except Thrown (Value ν)

/-- A Worker. Behind its variables stand what it has posted, to its page, the group, its owner and its
clients, the ids of the requests it has sent to an owner, and the requests it has served as one. -/
structure Coordinator (E ν : Type) where
  client : String
  compatibility : String
  name : String
  pending : InsertionMap Nat Pending
  prepared : InsertionMap Nat String
  leader : Option Announcement
  outgoing : Option String
  owner : Option (Broker E ν)
  engineOpen : Bool
  election : Election
  releaseLeader : Bool
  releaseClient : Bool
  closed : Bool
  initialized : Bool
  refreshRequested : Bool
  terminalError : Option SerializedError
  localRevision : Nat
  announcementSequence : Nat
  acceptedSequence : Nat
  pendingBytes : Nat
  preparedBytes : Nat
  queries : List Query
  finishing : Option (Response ν)
  gone : Bool
  page : List (Posted ν)
  group : List (GroupMessage ν)
  routed : List (String × RoutedRequest)
  replies : List (String × RoutedResponse ν)
  dispatched : List Nat
  served : List (Served ν)

namespace Coordinator
variable {E ν : Type}

def start (client compatibility name : String) : Coordinator E ν where
  client := client
  compatibility := compatibility
  name := name
  pending := .empty
  prepared := .empty
  leader := none
  outgoing := none
  owner := none
  engineOpen := false
  election := .idle
  releaseLeader := false
  releaseClient := false
  closed := false
  initialized := false
  refreshRequested := false
  terminalError := none
  localRevision := 0
  announcementSequence := 0
  acceptedSequence := 0
  pendingBytes := 0
  preparedBytes := 0
  queries := []
  finishing := none
  gone := false
  page := []
  group := []
  routed := []
  replies := []
  dispatched := []
  served := []

/-! ## Requests that wait -/

def post (message : Response ν) (worker : Coordinator E ν) : Coordinator E ν :=
  { worker with page := worker.page ++ [.response message] }

def postEvent (event : Changes.WorkerEvent ν) (worker : Coordinator E ν) : Coordinator E ν :=
  { worker with page := worker.page ++ [.event event] }

def postGroup (message : GroupMessage ν) (worker : Coordinator E ν) : Coordinator E ν :=
  { worker with group := worker.group ++ [message] }

def removePending (id : Nat) (worker : Coordinator E ν) : Coordinator E ν :=
  { worker with
    pendingBytes := worker.pendingBytes - (worker.pending.get id).elim 0 Pending.bytes
    pending := worker.pending.delete id }

def fail (id : Nat) (error : SerializedError) (worker : Coordinator E ν) : Coordinator E ν :=
  (worker.removePending id).post (.failed id error)

def failPending (error : SerializedError) (dispatchedOnly : Bool) (worker : Coordinator E ν) :
    Coordinator E ν :=
  worker.pending.entries.foldl (fun worker entry =>
    if !dispatchedOnly || entry.2.epoch.isSome then worker.fail entry.1 error else worker) worker

def resyncEvent (revision : Nat) : Changes.WorkerEvent ν :=
  ⟨.resync, ⟨revision, [], .empty⟩⟩

def resync (revision : Nat) (worker : Coordinator E ν) : Coordinator E ν :=
  if worker.initialized then worker.postEvent (resyncEvent revision) else worker

def modifyOwner (f : Broker E ν → Broker E ν) (worker : Coordinator E ν) : Coordinator E ν :=
  { worker with owner := worker.owner.map f }

/-- What a prepared statement's text is charged. -/
def textBytes (sql : String) : Nat := (Utf16.ofString sql).length * 2

/-- What a successful response confirms of its request. -/
def confirm (request : WorkerRequest) (result : Value ν) (worker : Coordinator E ν) :
    Coordinator E ν :=
  match request.method, result with
  | .init _, _ => { worker with initialized := true }
  | .prepareSql sql, .prepared statementId => { worker with
      prepared := worker.prepared.set statementId sql
      preparedBytes := worker.preparedBytes + textBytes sql }
  | .closePrepared statementId, _ => { worker with
      preparedBytes := worker.preparedBytes - (worker.prepared.get statementId).elim 0 textBytes
      prepared := worker.prepared.delete statementId }
  | _, _ => worker

/-- What a response confirms. A flat one confirms nothing. -/
def confirmed (request : WorkerRequest) (message : Response ν) (worker : Coordinator E ν) :
    Coordinator E ν :=
  match message with
  | .ok _ result => worker.confirm request result
  | .flat _ _ | .failed _ _ => worker

/-! ## The owner's end -/

def leave (worker : Coordinator E ν) : Coordinator E ν :=
  { worker with election := worker.election.leave }

section
variable (numbers : Changes.NumberText ν) (engine : WorkerEngine E ν)

/-- The close of the engine that this Worker has open, if any. -/
def closeEngine (worker : Coordinator E ν) : Except Thrown Unit × Coordinator E ν :=
  match worker.engineOpen, worker.owner with
  | true, some broker =>
    let (result, host) := Host.releaseResources engine { broker.host with serving := none }
    (result, { worker with engineOpen := false, owner := some { broker with host } })
  | _, _ => (.ok (), worker)

/-- The last response of a Worker, and its end. -/
def finish (message : Response ν) (result : Except Thrown Unit) (worker : Coordinator E ν) :
    Coordinator E ν :=
  let worker := worker.leave.post (match result with
    | .ok () => message
    | .error thrown => .failed message.id (serializeError (rejection thrown)))
  { worker with gone := true }

/-- What `shutdown` does before it waits for the engine to close. -/
def shutdown (worker : Coordinator E ν) : Coordinator E ν :=
  let worker := { worker with closed := true }
  let worker := match worker.owner, worker.leader with
    | some _, some leader => worker.postGroup (.leader { leader with ready := false })
    | _, _ => worker
  worker.modifyOwner Broker.close

/-- Shuts down and then answers. An engine that is still being opened is closed once it is open. -/
def finishClose (message : Response ν) (worker : Coordinator E ν) : Coordinator E ν :=
  if worker.closed then finish message (.ok ()) worker
  else
    let worker := worker.shutdown
    match worker.election with
    | .opening _ => { worker with finishing := some message }
    | _ =>
      let (result, worker) := closeEngine engine worker
      finish message result worker

def response (message : Response ν) (worker : Coordinator E ν) : Coordinator E ν :=
  match worker.pending.get message.id with
  | none => worker
  | some entry =>
    let worker := (worker.removePending message.id).confirmed entry.request message
    if entry.request.method.isClose ∧ ¬message.isFlat then finishClose engine message worker
    else worker.post message

/-- What an owner's failure is to a Worker that accepts its epoch. -/
def onFailed (epoch : String) (error : SerializedError) (worker : Coordinator E ν) :
    Coordinator E ν :=
  if worker.leader.any (fun leader => leader.epoch == epoch) then
    ({ worker with terminalError := some error }).failPending error false
  else worker

/-- Closes the broker and its engine, and gives up the lock. -/
def closeOwner (worker : Coordinator E ν) : Coordinator E ν :=
  (closeEngine engine (worker.modifyOwner Broker.close)).2.leave

/-- Ends this Worker's ownership for an error that left the engine beyond use. -/
def retire (error : SerializedError) (worker : Coordinator E ν) : Coordinator E ν :=
  match worker.owner with
  | none => worker
  | some broker =>
    closeOwner engine ((worker.postGroup (.failed broker.epoch error)).onFailed broker.epoch error)

/-! ## Settling -/

def reply (client : String) (message : Response ν) (worker : Coordinator E ν) : Coordinator E ν :=
  if client = worker.client then worker.response engine message
  else
    match worker.owner with
    | none => worker
    | some broker =>
      if broker.connections.has client then
        { worker with replies := worker.replies ++ [(client, ⟨broker.epoch, message⟩)] }
      else worker

def replyFailed (message : RoutedRequest) (error : SerializedError) (worker : Coordinator E ν) :
    Coordinator E ν :=
  reply engine message.client (.failed message.request.id error) worker

/-- The codes of the errors that leave an engine beyond use. -/
def fatalCodes : List String :=
  ["RECOVERY_REQUIRED", "STORAGE_COMMIT_OUTCOME_UNKNOWN", "STORAGE_ENGINE_POISONED"]

/-- The revisions that a result tells of. -/
def revisions : Value ν → List Nat
  | .revision revision => [revision]
  | .statement (.result result) => [result.outcome.revision]
  | .results results => results.map fun result => result.outcome.revision
  | _ => []

def noteResult (result : Value ν) (worker : Coordinator E ν) : Coordinator E ν :=
  let localRevision := (revisions result).foldl max worker.localRevision
  { worker with
    localRevision
    leader := worker.leader.map fun leader => { leader with revision := localRevision } }

section
variable (post : Response ν → Coordinator E ν → Coordinator E ν)

def settleFailure (id : Nat) (thrown : Thrown) (worker : Coordinator E ν) : Coordinator E ν :=
  let error := serializeError thrown
  let worker := post (.failed id error) worker
  if error.code ∈ fatalCodes then retire engine error worker else worker

def settleStatement (id : Nat) (outcome : StatementOutcome ν) (worker : Coordinator E ν) :
    Coordinator E ν :=
  match outcome with
  | .flat slots => post (.flat id slots) worker
  | .result _ =>
    let value : Value ν := .statement outcome
    post (.ok id value) (worker.noteResult value)

def settle (request : WorkerRequest) (outcome : Except Thrown (Value ν))
    (worker : Coordinator E ν) : Coordinator E ν :=
  match outcome with
  | .error thrown => settleFailure engine post request.id thrown worker
  | .ok (.statement outcome) => settleStatement post request.id outcome worker
  | .ok value => post (.ok request.id value) (worker.noteResult value)

end

/-! ## The broker at work -/

def noteServed (client : String) (request : WorkerRequest) (outcome : Except Thrown (Value ν))
    (worker : Coordinator E ν) : Coordinator E ν :=
  { worker with served := worker.served ++ [⟨client, request, outcome⟩] }

/-- Serves a client's statement at once, if it can be. -/
def serveNow (client : String) (request : WorkerRequest)
    (post : Response ν → Coordinator E ν → Coordinator E ν) (worker : Coordinator E ν) :
    Option (Coordinator E ν) :=
  match worker.owner with
  | none => none
  | some broker =>
    match broker.immediateParams client request with
    | none => none
    | some params =>
      match Host.requestNow numbers engine params (broker.serve (some ⟨client, request⟩)).host with
      | none => none
      | some (outcome, host) =>
        some (settle engine post request outcome
          ({ worker with owner := some { broker with host } }.noteServed client request outcome))

/-- Serves a statement request of the local client at once, if it can be. -/
def serveStatement (request : StatementRequest) (worker : Coordinator E ν) :
    Option (Coordinator E ν) :=
  match worker.owner with
  | none => none
  | some broker =>
    match broker.immediateStatement worker.client request with
    | none => none
    | some (target, token) =>
      let routed := statementRequest request
      match Host.statementNow engine request target token
          (broker.serve (some ⟨worker.client, routed⟩)).host with
      | none => none
      | some (.error thrown, host) =>
        some (settleFailure engine Coordinator.post request.id (rejection thrown)
          ({ worker with owner := some { broker with host } }.noteServed worker.client routed
            (.error (rejection thrown))))
      | some (.ok outcome, host) =>
        some (settleStatement Coordinator.post request.id outcome
          ({ worker with owner := some { broker with host } }.noteServed worker.client routed
            (.ok (.statement outcome))))

def serveLocal (request : WorkerRequest) (worker : Coordinator E ν) : Option (Coordinator E ν) :=
  if worker.owner.any Broker.closed then none
  else serveNow numbers engine worker.client request Coordinator.post worker

/-- An action of the broker this Worker has. -/
def onOwner {α : Type} (action : Effect (Broker E ν) Thrown α) : Effect (Coordinator E ν) Thrown α :=
  fun worker =>
    match worker.owner with
    | none => (.error (.uncoded "owner is undefined"), worker)
    | some broker =>
      let (result, broker) := action broker
      (result, { worker with owner := some broker })

/-- The Worker once its broker has handled a request, but for the answer. -/
def handled (message : RoutedRequest) (worker : Coordinator E ν) :
    Except Thrown (Value ν) × Coordinator E ν :=
  let (outcome, worker) := onOwner (do
    Effect.modify (Broker.serve (some ⟨message.client, message.request⟩))
    Broker.handle numbers engine worker.localRevision message) worker
  (outcome, worker.noteServed message.client message.request outcome)

def clientClosed : SerializedError :=
  coordinationError "CLIENT_CLOSED" "The TinyJoin client is closed"

/-- What becomes of a request taken from the queue. -/
def serveQueued (message : RoutedRequest) (worker : Coordinator E ν) : Coordinator E ν :=
  let (outcome, worker) := handled numbers engine message worker
  settle engine (reply engine message.client) message.request outcome worker

/-- The first request of the queue that may be taken up, with its index. -/
def nextQueued (worker : Coordinator E ν) : Option (Nat × Queued) := do
  let broker ← worker.owner
  let index ← broker.queue.findIdx? fun queued => broker.eligible queued.message
  let queued ← broker.queue[index]?
  return (index, queued)

def setBusy (busy : Bool) (worker : Coordinator E ν) : Coordinator E ν :=
  worker.modifyOwner fun broker => { broker with busy }

def setRunning (running : Option RoutedRequest) (worker : Coordinator E ν) : Coordinator E ν :=
  worker.modifyOwner fun broker => { broker with running }

/-- How many requests wait at this Worker's broker. -/
def queueLength (worker : Coordinator E ν) : Nat :=
  worker.owner.elim 0 fun broker => broker.queue.length

/-- The loop of `pump`, of at most so many rounds, up to where it waits: for clients to be forgotten,
unless it has just done so, or for a request to be handled. -/
def takeUp : Nat → Bool → Coordinator E ν → Coordinator E ν
  | 0, _, worker => worker
  | fuel + 1, forgotten, worker =>
    if worker.owner.all Broker.closed then worker.setBusy false
    else if !forgotten && worker.owner.any Broker.forgets then worker
    else
      match worker.nextQueued with
      | none => worker.setBusy false
      | some (index, queued) =>
        let worker := worker.modifyOwner (Broker.take index queued)
        if worker.owner.any fun broker => broker.lacks queued.message.client then
          takeUp fuel false (replyFailed engine queued.message clientClosed worker)
        else worker.setRunning (some queued.message)

/-- The loop of `pump`, of at most so many rounds, from where it waits. -/
def pumpLoop : Nat → Effect (Coordinator E ν) Thrown Unit
  | 0 => pure ()
  | fuel + 1 => do
    match (← Effect.get).owner.bind Broker.running with
    | some message =>
      Effect.modify fun worker =>
        serveQueued numbers engine message (worker.setRunning none)
      Effect.modify fun worker => takeUp engine (worker.queueLength + 1) false worker
    | none =>
      onOwner (Broker.forgetAbandoned engine)
      Effect.modify fun worker => takeUp engine (worker.queueLength + 1) true worker
    if (← Effect.get).owner.any Broker.busy then pumpLoop fuel

def abandonFailed : SerializedError := coordinationError "STORAGE_ENGINE_POISONED"
  "The database owner could not discard an abandoned transaction. Close and reopen the database before continuing."

/-- `pump`, up to where it first waits. The task goes on from here, and `pump` only after it. -/
def startPump (worker : Coordinator E ν) : Coordinator E ν :=
  if worker.owner.all fun broker => broker.busy || broker.closed then worker
  else takeUp engine (worker.queueLength + 1) false (worker.setBusy true)

/-- The rest of a `pump` that waits. -/
def resumePump (worker : Coordinator E ν) : Coordinator E ν :=
  if worker.owner.any Broker.busy then
    match pumpLoop numbers engine (2 * worker.queueLength + 2) worker with
    | (.ok (), worker) => worker
    | (.error _, worker) => (retire engine abandonFailed worker).setBusy false
  else worker

/-- An answer to a client that has no connection. -/
def refuse (client : String) (message : Response ν) (worker : Coordinator E ν) : Coordinator E ν :=
  if client = worker.client then worker.response engine message
  else
    match worker.owner with
    | none => worker
    | some broker => { worker with replies := worker.replies ++ [(client, ⟨broker.epoch, message⟩)] }

/-- The checks of the broker's `receive`: the Worker once the request may be queued, or once it is
dealt with. -/
def checkReceived (message : RoutedRequest) (bytes : Nat) (broker : Broker E ν) (worker : Coordinator E ν) :
    Except (Coordinator E ν) (Coordinator E ν) :=
  if ¬broker.connections.has message.client ∧
      maxConnections ≤ broker.connections.entries.length then
    .error (refuse engine message.client (.failed message.request.id (coordinationError
      "RESOURCE_LIMIT" "The TinyJoin database has too many connected clients")) worker)
  else
    let worker := if broker.connections.has message.client then worker
      else worker.modifyOwner (Broker.connect message.client)
    if message.compatibility ≠ broker.compatibility then
      .error (startPump engine
        ((replyFailed engine message versionMismatch worker).modifyOwner
          (Broker.abandon message.client)))
    else if message.epoch ≠ broker.epoch then .error worker
    else if broker.isFull message bytes then
      .error (replyFailed engine message (coordinationError "RESOURCE_LIMIT"
        "The TinyJoin multi-tab request queue is full") worker)
    else .ok worker

/-- Queues a request, and has the queue served. -/
def queue (message : RoutedRequest) (bytes : Nat) (worker : Coordinator E ν) : Coordinator E ν :=
  startPump engine (worker.modifyOwner (Broker.push message bytes))

/-- The broker's `receive`, of a request that measures `bytes`. -/
def ownerReceive (message : RoutedRequest) (bytes : Nat) (worker : Coordinator E ν) :
    Coordinator E ν :=
  match worker.owner with
  | none => worker
  | some broker =>
    if broker.closed then worker
    else
      match checkReceived engine message bytes broker worker with
      | .error worker => worker
      | .ok worker =>
        (serveNow numbers engine message.client message.request (reply engine message.client)
          worker).getD (queue engine message bytes worker)

/-- The owner is granted the lock of a client, which is so known to be gone. -/
def clientGone (client : String) (worker : Coordinator E ν) : Coordinator E ν :=
  resumePump numbers engine (startPump engine (worker.modifyOwner (Broker.gone client)))

/-! ## Requests to the owner -/

/-- Whether a request names a transaction of another epoch. -/
def isLost (epoch : String) (method : Method) : Bool :=
  method.transactionId.any fun id =>
    id != "" && !(epoch ++ "/").toList.isPrefixOf id.toList

def routedRequest (epoch : String) (request : WorkerRequest) (worker : Coordinator E ν) :
    RoutedRequest where
  client := worker.client
  epoch := epoch
  compatibility := worker.compatibility
  request := request
  statementSql := match request.method with
    | .executePrepared statementId _ _ _ => worker.prepared.get statementId
    | _ => none
  statements := match request.method with
    | .beginTransaction => worker.prepared.entries
    | _ => []

def dispatch (id : Nat) (worker : Coordinator E ν) : Coordinator E ν :=
  match worker.pending.get id, worker.leader with
  | some entry, some leader =>
    if worker.closed ∨ ¬worker.releaseClient ∨ entry.epoch.isSome ∨ ¬leader.ready then worker
    else if isLost leader.epoch entry.request.method then worker.fail id transactionLost
    else
      let message := worker.routedRequest leader.epoch entry.request
      let worker := { worker with
        pending := worker.pending.set id { entry with epoch := some leader.epoch }
        dispatched := worker.dispatched ++ [id] }
      match worker.owner, worker.outgoing with
      | some _, _ => ownerReceive numbers engine message entry.bytes worker
      | none, some channel => { worker with routed := worker.routed ++ [(channel, message)] }
      | none, none => worker
  | _, _ => worker

def dispatchAll (worker : Coordinator E ν) : Coordinator E ν :=
  (worker.pending.entries.map Prod.fst).foldl (fun worker id => dispatch numbers engine id worker)
    worker

/-- Turns to an announcement's owner, where it is not the one that is accepted already. -/
def turnTo (message : Announcement) (worker : Coordinator E ν) : Coordinator E ν :=
  if worker.leader.any (fun leader => leader.epoch == message.epoch) then
    { worker with leader := some message }
  else
    let worker := worker.failPending leaderChanged true
    { worker with
      outgoing := some message.epoch
      refreshRequested := worker.initialized
      leader := some message }

def announce (message : Announcement) (worker : Coordinator E ν) : Coordinator E ν :=
  if worker.closed then worker
  else if message.compatibility ≠ worker.compatibility then
    let worker := worker.failPending leaderChanged true
    ({ worker with terminalError := some versionMismatch }).failPending versionMismatch false
  else
    let worker := worker.turnTo message
    if message.ready then
      let worker := dispatchAll numbers engine worker
      let worker := if worker.refreshRequested then
          ({ worker with refreshRequested := false }).resync message.revision
        else worker
      resumePump numbers engine worker
    else worker

/-! ## The group -/

def onEvent (epoch : String) (event : Changes.WorkerEvent ν) (worker : Coordinator E ν) :
    Coordinator E ν :=
  match worker.leader with
  | none => worker
  | some leader =>
    if leader.epoch = epoch ∧ isWorkerEvent event then
      let localRevision := max worker.localRevision event.payload.revision
      ({ worker with
        localRevision
        leader := some { leader with revision := localRevision } }).postEvent event
    else worker

def onGroup (message : GroupMessage ν) (worker : Coordinator E ν) : Coordinator E ν :=
  match message with
  | .discover =>
    match worker.releaseLeader, worker.leader with
    | true, some leader => worker.postGroup (.leader leader)
    | _, _ => worker
  | .leader announcement =>
    let sequence := worker.announcementSequence + 1
    { worker with
      announcementSequence := sequence
      queries := worker.queries ++ [⟨.announcement sequence announcement, none⟩] }
  | .event epoch event => worker.onEvent epoch event
  | .failed epoch error => worker.onFailed epoch error

def publish (message : GroupMessage ν) (worker : Coordinator E ν) : Coordinator E ν :=
  match message with
  | .leader announcement => announce numbers engine announcement (worker.postGroup message)
  | _ => (worker.postGroup message).onGroup message

/-! ## The page -/

/-- A message from the page. One of no other kind has an id, or none. -/
inductive PageMessage where
  | statement (request : StatementRequest)
  | request (request : WorkerRequest)
  | resync
  | invalid (id : Option Nat)

variable (sizes : Sizes)

def queueFull (id : Nat) (worker : Coordinator E ν) : Coordinator E ν :=
  worker.fail id (coordinationError "RESOURCE_LIMIT" "The TinyJoin client request queue is full")

def enqueue (request : WorkerRequest) (bytes : Nat) (worker : Coordinator E ν) : Coordinator E ν :=
  resumePump numbers engine (dispatch numbers engine request.id { worker with
    pending := worker.pending.set request.id ⟨request, bytes, none⟩
    pendingBytes := worker.pendingBytes + bytes })

def receiveStatement (request : StatementRequest) (worker : Coordinator E ν) : Coordinator E ν :=
  match worker.terminalError with
  | some error => worker.fail request.id error
  | none =>
    let bytes := sizes.statementBytes request
    let waiting := worker.pending.entries.length
    if maxPendingRequests ≤ waiting ∨ maxQueuedBytes < worker.pendingBytes + bytes then
      worker.queueFull request.id
    else
      (if waiting = 0 then serveStatement engine request worker else none).getD
        (enqueue numbers engine (statementRequest request) bytes worker)

/-- The error that a request meets before it is measured, if any. -/
def refusal (request : WorkerRequest) (worker : Coordinator E ν) : Option SerializedError :=
  match worker.terminalError with
  | some error => some error
  | none =>
    match request.method with
    | .init storage =>
      if storage = .opfs worker.name then none
      else some (coordinationError "STORAGE_ALREADY_INITIALIZED"
        "The TinyJoin worker is already initialized with different storage")
    | .prepareSql sql =>
      if maxPrepared ≤ worker.prepared.entries.length ∨
          maxQueuedBytes < worker.preparedBytes + textBytes sql then
        some (coordinationError "RESOURCE_LIMIT"
          "The TinyJoin client prepared statement registry is full")
      else none
    | _ => none

def receiveRequest (request : WorkerRequest) (worker : Coordinator E ν) : Coordinator E ν :=
  if request.method.isClose ∧
      (worker.terminalError.isSome ∨ ¬worker.leader.any Announcement.ready) then
    finishClose engine (.ok request.id .undefined) worker
  else
    match worker.refusal request with
    | some error => worker.fail request.id error
    | none =>
      let cleanup := request.method.isClose || request.method.isFinish
      let bytes := sizes.requestBytes request
      let waiting := worker.pending.entries.length
      if maxQueuedBytes < bytes ∨ maxPendingRequests + (if cleanup then 8 else 0) ≤ waiting ∨
          maxQueuedBytes + (if cleanup then 8192 else 0) < worker.pendingBytes + bytes then
        worker.queueFull request.id
      else
        (if waiting = 0 then serveLocal numbers engine request worker else none).getD
          (enqueue numbers engine request bytes worker)

/-- The page asks for everything to be read again. -/
def receiveResync (worker : Coordinator E ν) : Coordinator E ν :=
  let worker := { worker with refreshRequested := true }
  if worker.owner.isSome ∧ worker.leader.isSome then
    { worker.resync worker.localRevision with refreshRequested := false }
  else worker.postGroup .discover

def receive (message : PageMessage) (worker : Coordinator E ν) : Coordinator E ν :=
  if worker.closed then worker
  else
    match message with
    | .statement request => receiveStatement numbers engine sizes request worker
    | .request request => receiveRequest numbers engine sizes request worker
    | .resync => worker.receiveResync
    | .invalid id => worker.post (.failed (id.getD 0) (coordinationError "PROTOCOL_MISMATCH"
        "The worker received an invalid TinyJoin protocol request"))

/-- An answer from the inbox, which is taken only from the accepted owner. -/
def onInbox (answer : RoutedResponse ν) (worker : Coordinator E ν) : Coordinator E ν :=
  if worker.leader.any (fun leader => leader.epoch == answer.epoch) then
    worker.response engine answer.response
  else worker

/-- The most texts that may come with a request. -/
def maxRoutedStatements : Nat := 256

/-- A request from another tab, on the channel of this owner's epoch. -/
def onOwnerInbox (message : RoutedRequest) (worker : Coordinator E ν) : Coordinator E ν :=
  if worker.owner.any (fun broker => message.epoch == broker.epoch) ∧
      (Utf16.ofString message.client).length ≤ 64 ∧ message.statements.length ≤ maxRoutedStatements then
    resumePump numbers engine (ownerReceive numbers engine message (sizes.routedBytes message) worker)
  else worker

/-! ## The election -/

def clientLockGranted (worker : Coordinator E ν) : Coordinator E ν :=
  if worker.closed then worker
  else
    let worker := dispatchAll numbers engine { worker with releaseClient := true }
    { worker.postGroup .discover with election := .waiting }

/-- The database's lock is granted: the Worker that still wants it asks under which name it has it. -/
def databaseLockGranted (epoch : String) (worker : Coordinator E ν) : Coordinator E ν :=
  if worker.closed ∨ worker.terminalError.isSome then { worker with election := .leaving }
  else { worker with
    releaseLeader := true
    election := .querying epoch
    queries := worker.queries ++ [⟨.election, none⟩] }

def electionLost : SerializedError := coordinationError "WORKER_OPERATION_FAILED"
  "Error: The TinyJoin database election lock was lost"

def elect (epoch : String) (held : Option String) (worker : Coordinator E ν) : Coordinator E ν :=
  match held with
  | none =>
    ({ worker with election := .leaving, terminalError := some electionLost }).failPending
      electionLost false
  | some ownerId =>
    let starting : Announcement :=
      ⟨epoch, worker.compatibility, false, worker.localRevision, ownerId⟩
    publish numbers engine (.leader starting) { worker with election := .opening starting }

/-- The first question is answered. -/
def queryAnswered (worker : Coordinator E ν) : Coordinator E ν :=
  match worker.queries with
  | ⟨purpose, some held⟩ :: queries =>
    let worker := { worker with queries }
    match purpose with
    | .announcement sequence message =>
      if worker.acceptedSequence < sequence ∧ held = some message.ownerId then
        announce numbers engine message { worker with acceptedSequence := sequence }
      else worker
    | .election =>
      match worker.election with
      | .querying epoch =>
        if worker.closed then worker.leave else elect numbers engine epoch held worker
      | _ => worker
  | _ => worker

/-- The engine could not be opened. -/
def openFailed (thrown : Thrown) (worker : Coordinator E ν) : Coordinator E ν :=
  match worker.election with
  | .opening starting =>
    match worker.finishing with
    | some message => finish message (.error thrown) worker
    | none =>
      (publish numbers engine (.failed starting.epoch (serializeError (rejection thrown))) worker).leave
  | _ => worker

/-- The engine is open, and its host answers the `init` it was opened for. -/
def opened (state : E) (worker : Coordinator E ν) : Coordinator E ν :=
  match worker.election with
  | .opening starting =>
    match Host.handleRequest numbers engine (.init (.opfs worker.name)) (Host.start state) with
    | (.ok (.revision revision), host) =>
      let broker := Broker.start host starting.epoch worker.compatibility
      let worker := { worker with localRevision := revision, engineOpen := true, owner := some broker }
      match worker.finishing with
      | some message =>
        let (result, worker) := closeEngine engine (worker.modifyOwner Broker.close)
        finish message result worker
      | none =>
        publish numbers engine (.leader { starting with ready := true, revision })
          { worker with election := .owning }
    | (.ok _, _) => worker
    | (.error thrown, _) => openFailed numbers engine thrown worker
  | _ => worker

/-- The task that makes the event of what the engine has published. -/
def onTimer (worker : Coordinator E ν) : Coordinator E ν :=
  match worker.owner with
  | none => worker
  | some broker =>
    match Changes.Host.announce numbers broker.host.changes with
    | (result, changes) =>
      let worker := { worker with
        owner := some { broker with host := { broker.host with changes } } }
      match result with
      | .ok (some event) => publish numbers engine (.event broker.epoch event) worker
      | _ => worker

end
end Coordinator
end Coordination
end TinyJoin
