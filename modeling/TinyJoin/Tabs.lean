import TinyJoin.Coordinator

/-! The tabs of one database, the locks and channels between them, and their runs. A channel is what
its senders have posted, and how much of it each receiver has been given: messages keep their order
from one sender to one receiver, and wait as long as they like. -/
namespace TinyJoin
namespace Coordination

open Coordinator (PageMessage)

/-- The tabs, by their clients' names. Beside them stand the holder of the database's lock, the epochs
it was granted for, how far every channel has been read, the ids each page has used and the requests
it has posted, and the requests that owners have served, each with its epoch. -/
structure System (E ν : Type) where
  tabs : String → Option (Coordinator E ν)
  holder : Option String
  epochs : List (String × String)
  groupRead : String → String → Nat
  routedRead : String → String → Nat
  repliesRead : String → String → Nat
  usedIds : String → List Nat
  posted : String → List WorkerRequest
  executed : List (String × Served ν)

inductive Action (E : Type) where
  | start (tab compatibility : String) (init : Nat)
  | post (tab : String) (message : PageMessage)
  | grantClient (tab : String)
  | grantDatabase (tab epoch : String)
  /-- The browser looks who holds the lock, for a question of the tab's. -/
  | look (tab : String) (index : Nat)
  | answer (tab : String)
  | opened (tab : String) (state : E)
  | openFails (tab : String) (thrown : Thrown)
  | deliverGroup (sender receiver : String)
  | deliverRequest (client owner : String)
  | deliverReply (owner client : String)
  | timer (tab : String)
  | clientGone (owner client : String)
  | release (tab : String)
  | crash (tab : String)

/-- The id that a page's message has. -/
def Coordinator.PageMessage.id? : PageMessage → Option Nat
  | .statement sent => some sent.id
  | .request sent => some sent.id
  | .resync => none
  | .invalid id => id

/-- The request that a page's message is, or stands for. -/
def Coordinator.PageMessage.request? : PageMessage → Option WorkerRequest
  | .statement sent => some (statementRequest sent)
  | .request sent => some sent
  | .resync | .invalid _ => none

/-- A message of the group as another tab receives it. -/
def GroupMessage.cloned {ν : Type} : GroupMessage ν → GroupMessage ν
  | .event epoch published => .event epoch (clonedEvent published)
  | message => message

namespace System
variable {E ν : Type}

def start : System E ν where
  tabs := fun _ => none
  holder := none
  epochs := []
  groupRead := fun _ _ => 0
  routedRead := fun _ _ => 0
  repliesRead := fun _ _ => 0
  usedIds := fun _ => []
  posted := fun _ => []
  executed := []

/-- A tab that still runs. -/
def live (system : System E ν) (tab : String) : Option (Coordinator E ν) :=
  (system.tabs tab).filter fun worker => !worker.gone

/-- Adds a tab, which receives what the others post from then on. -/
def addTab (tab : String) (worker : Coordinator E ν) (system : System E ν) : System E ν :=
  { system with
    tabs := fun name => if name = tab then some worker else system.tabs name
    groupRead := fun receiver sender =>
      if receiver = tab then (system.tabs sender).elim 0 fun worker => worker.group.length
      else system.groupRead receiver sender }

/-- What an owner has served since `before`, with its epoch. -/
def newlyServed (before after : Coordinator E ν) : List (String × Served ν) :=
  match after.owner with
  | none => []
  | some broker => (after.served.drop before.served.length).map fun served => (broker.epoch, served)

def setTab (tab : String) (worker : Coordinator E ν) (system : System E ν) : System E ν :=
  { system with tabs := fun name => if name = tab then some worker else system.tabs name }

/-- A tab's task. -/
def task (tab : String) (f : Coordinator E ν → Coordinator E ν) (system : System E ν) :
    Option (System E ν) := do
  let worker ← system.live tab
  let after := f worker
  let system := system.setTab tab after
  return { system with executed := system.executed ++ newlyServed worker after }

/-- Notes the id and the request of a page's message. -/
def notePosted (tab : String) (message : PageMessage) (system : System E ν) : System E ν :=
  { system with
    usedIds := fun name =>
      if name = tab then system.usedIds tab ++ message.id?.toList else system.usedIds name
    posted := fun name =>
      if name = tab then system.posted tab ++ message.request?.toList else system.posted name }

/-- Whether a page may use the id of a message: one that it has not used, and more than zero. -/
def freshId (system : System E ν) (tab : String) (message : PageMessage) : Bool :=
  message.id?.all fun id => decide (0 < id) && decide (id ∉ system.usedIds tab)

/-- The messages of one channel that a client has posted for the owner of an epoch. -/
def routedTo (epoch : String) (worker : Coordinator E ν) : List RoutedRequest :=
  (worker.routed.filter fun entry => entry.1 == epoch).map Prod.snd

def repliesTo (client : String) (worker : Coordinator E ν) : List (RoutedResponse ν) :=
  (worker.replies.filter fun entry => entry.1 == client).map Prod.snd

/-- Whether a client's lock is free, so that another may be granted it. -/
def clientLockFree (system : System E ν) (client : String) : Bool :=
  (system.live client).all fun worker => !worker.releaseClient

/-- One channel read one message further. -/
def advance (read : String → String → Nat) (a b : String) : String → String → Nat :=
  fun x y => if x = a ∧ y = b then read a b + 1 else read x y

def grant (tab epoch : String) (system : System E ν) : System E ν :=
  { system with holder := some tab, epochs := system.epochs ++ [(epoch, tab)] }

section
variable (numbers : Changes.NumberText ν) (engine : WorkerEngine E ν)
  (sizes : Sizes) (name : String)

/-- What an action does, where it can happen. -/
def step (action : Action E) (system : System E ν) : Option (System E ν) :=
  match action with
  | .start tab compatibility init =>
    let message : PageMessage := .request ⟨init, .init (.opfs name)⟩
    if (system.tabs tab).isSome ∨ init = 0 then none
    else
      ((system.addTab tab (Coordinator.start tab compatibility name)).notePosted tab message).task tab
        (Coordinator.receive numbers engine sizes message)
  | .post tab message =>
    if system.freshId tab message then
      (system.notePosted tab message).task tab (Coordinator.receive numbers engine sizes message)
    else none
  | .grantClient tab => do
    let worker ← system.live tab
    if worker.election = .idle then
      system.task tab (Coordinator.clientLockGranted numbers engine)
    else none
  | .grantDatabase tab epoch => do
    let worker ← system.live tab
    if system.holder = none ∧ worker.election = .waiting ∧
        epoch ∉ system.epochs.map Prod.fst then
      (system.grant tab epoch).task tab (Coordinator.databaseLockGranted epoch)
    else none
  | .look tab index => system.task tab fun worker => { worker with
      queries := worker.queries.modify index fun query =>
        { query with held := some (query.held.getD system.holder) } }
  | .answer tab => system.task tab (Coordinator.queryAnswered numbers engine)
  | .opened tab state => system.task tab (Coordinator.opened numbers engine state)
  | .openFails tab thrown => system.task tab (Coordinator.openFailed numbers engine thrown)
  | .deliverGroup sender receiver => do
    let posting ← system.tabs sender
    let message ← posting.group[system.groupRead receiver sender]?
    if sender = receiver then none
    else
      task receiver (Coordinator.onGroup message.cloned)
        { system with groupRead := advance system.groupRead receiver sender }
  | .deliverRequest client owner => do
    let broker ← (← system.live owner).owner
    let posting ← system.tabs client
    let message ← (routedTo broker.epoch posting)[system.routedRead broker.epoch client]?
    task owner (Coordinator.onOwnerInbox numbers engine sizes message)
      { system with routedRead := advance system.routedRead broker.epoch client }
  | .deliverReply owner client => do
    let posting ← system.tabs owner
    let answer ← (repliesTo client posting)[system.repliesRead client owner]?
    task client (Coordinator.onInbox engine answer)
      { system with repliesRead := advance system.repliesRead client owner }
  | .timer tab => system.task tab (Coordinator.onTimer numbers engine)
  | .clientGone owner client => do
    let broker ← (← system.live owner).owner
    let connection ← broker.connections.get client
    if connection.watching ∧ system.clientLockFree client then
      system.task owner (Coordinator.clientGone numbers engine client)
    else none
  | .release tab => do
    let worker ← system.tabs tab
    if worker.election = .leaving then
      let after := system.setTab tab { worker with election := .left }
      return { after with holder := none }
    else none
  | .crash tab => system.task tab fun worker => { worker.leave with gone := true }

/-- The states that runs reach. A database is opened in a state its engine opens in. -/
inductive Reaches : System E ν → Prop
  | start : Reaches start
  | step {system after : System E ν} {action : Action E} (reached : Reaches system)
      (opens : ∀ tab state, action = .opened tab state → engine.Opens state)
      (happens : system.step numbers engine sizes name action = some after) : Reaches after

end
end System
end Coordination
end TinyJoin
