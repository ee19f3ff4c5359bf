import TinyJoin.Notifications

/-! Runs of a host and the pages it tells of its changes. Beside their states stands what the engine
reported: what each announcement stands for, and what each page received since its last delivery. -/
namespace TinyJoin
namespace Changes
open Distinct

/-- A delivery, with what it was to tell of and the subscriptions that stood at its end. -/
structure Delivery (ν : Type) where
  event : TablesChangedEvent ν
  heard : List Subscription
  subscriptions : List Subscription
  sources : List (EngineOutcome ν)
  resynced : Bool
  transactionActive : Bool

/-- A message, and what it stands for. -/
abbrev Message (ν : Type) : Type := WorkerEvent ν × List (EngineOutcome ν)

structure PageRun (ν : Type) where
  page : Page ν
  inbox : List (Message ν)
  since : List (ApplyOutcome ν × List (EngineOutcome ν))
  resynced : Bool
  deliveries : List (Delivery ν)

structure System (π ν : Type) where
  host : Host ν
  groups : List (List (EngineOutcome ν))
  pages : π → PageRun ν
  threw : Bool

inductive Action (π ν : Type) where
  -- what the host serves
  | executed (result : Option (EngineOutcome ν))
  | execSql (results : List (EngineOutcome ν))
  | setSchema (outcome : EngineOutcome ν)
  | beginTransaction
  | commitTransaction (outcome : EngineOutcome ν)
  | rollbackTransaction
  | announce
  | closeHost
  -- another Worker comes to own the database
  | startHost
  -- what becomes of a page's messages
  | resync (page : π) (revision : Nat)
  | lose (page : π)
  | receive (page : π) (reactions : List (List Reaction))
  -- what a page does
  | flush (page : π) (reactions : List (List Reaction))
  | react (page : π) (reaction : Reaction)
  | begin (page : π)
  | finish (page : π)
  | finishClose (page : π)

section
variable {π ν : Type}

def PageRun.start : PageRun ν := ⟨.start, [], [], false, []⟩

def System.start : System π ν := ⟨.start, [], fun _ => .start, false⟩

namespace PageRun

/-- Notes what was delivered, if anything was. -/
def noteDelivery (delivered : Option (Page.Delivered ν)) (transactionActive : Bool)
    (run : PageRun ν) : PageRun ν :=
  match delivered with
  | none => run
  | some (event, heard) =>
    { run with
      since := []
      resynced := false
      deliveries := run.deliveries ++ [{
        event, heard, transactionActive
        subscriptions := run.page.subscriptions
        sources := (run.since.map Prod.snd).flatten
        resynced := run.resynced }] }

def flush (reactions : List (List Reaction)) (run : PageRun ν) : PageRun ν :=
  let (delivered, page) := run.page.flushNotifications reactions
  noteDelivery delivered run.page.transactionActive { run with page }

def noteMessage (message : Message ν) (run : PageRun ν) : PageRun ν :=
  match message.1.event with
  | .tablesChanged => { run with since := run.since ++ [(message.1.payload, message.2)] }
  | .resync => { run with resynced := true }

/-- Takes one message, and says whether that threw. -/
def receive [DecidableEq ν] (numbers : NumberText ν) (message : Message ν)
    (reactions : List (List Reaction)) (run : PageRun ν) : Bool × PageRun ν :=
  if run.page.closed then (false, run)
  else
    match run.page.onEvent numbers message.1 reactions with
    | (.error _, page) => (true, noteMessage message { run with page })
    | (.ok delivered, page) =>
      (false, noteDelivery delivered run.page.transactionActive
        (noteMessage message { run with page }))

end PageRun

namespace System

def onPage [DecidableEq π] (p : π) (change : PageRun ν → PageRun ν) (s : System π ν) : System π ν :=
  { s with pages := Function.update s.pages p (change (s.pages p)) }

/-- What is to be announced, beside what the host notes of it. -/
def noteGroup (tables : List String) (sources : List (EngineOutcome ν))
    (groups : List (List (EngineOutcome ν))) : List (List (EngineOutcome ν)) :=
  if tables.length > 0 then groups ++ [sources] else groups

def emit (outcome : EngineOutcome ν) (s : System π ν) : System π ν :=
  { s with
    host := s.host.emitInvalidation outcome.parsed
    groups := noteGroup outcome.tables [outcome] s.groups }

/-- Posts an event to every page, as a clone. -/
def post (event : WorkerEvent ν) (sources : List (EngineOutcome ν)) (s : System π ν) : System π ν :=
  let payload := { event.payload with keys := event.payload.keys.structuredClone }
  { s with pages := fun p =>
      { s.pages p with inbox := (s.pages p).inbox ++ [({ event with payload }, sources)] } }

variable [DecidableEq π] [DecidableEq ν] (numbers : NumberText ν)

def step (s : System π ν) : Action π ν → System π ν
  | .executed none => { s with host := s.host.emitUnlessInTransaction none }
  | .executed (some outcome) =>
    { s with
      host := s.host.emitUnlessInTransaction (some outcome.parsed)
      groups := if s.host.transactionActive then s.groups
        else noteGroup outcome.tables [outcome] s.groups }
  | .execSql results =>
    match s.host.execSql numbers (results.map EngineOutcome.parsed) with
    | .error _ => { s with threw := true }
    | .ok host =>
      { s with
        host
        groups := if s.host.transactionActive then s.groups
          else noteGroup (results.flatMap EngineOutcome.tables) results s.groups }
  | .setSchema outcome => if s.host.transactionActive then s else s.emit outcome
  | .beginTransaction => { s with host := { s.host with transactionActive := true } }
  | .commitTransaction outcome =>
    if s.host.transactionActive then
      let s := s.emit outcome
      { s with host := { s.host with transactionActive := false } }
    else s
  | .rollbackTransaction => { s with host := { s.host with transactionActive := false } }
  | .announce =>
    if s.host.invalidationScheduled then
      match s.host.announce numbers with
      | (.error _, host) => { s with host, threw := true }
      | (.ok none, host) => { s with host }
      | (.ok (some event), host) => { s.post event s.groups.flatten with host, groups := [] }
    else s
  | .closeHost => { s with host := { s.host with closed := true } }
  | .startHost => { s with host := .start, groups := [] }
  | .resync p revision => s.onPage p fun run =>
      { run with inbox := run.inbox ++ [(⟨.resync, ⟨revision, [], .empty⟩⟩, [])] }
  | .lose p => s.onPage p fun run => { run with inbox := run.inbox.tail }
  | .receive p reactions =>
    match (s.pages p).inbox with
    | [] => s
    | message :: inbox =>
      let (threw, run) := PageRun.receive numbers message reactions { s.pages p with inbox }
      { s.onPage p (fun _ => run) with threw := s.threw || threw }
  | .flush p reactions => s.onPage p (PageRun.flush reactions)
  | .react p reaction => s.onPage p fun run => { run with page := run.page.react reaction }
  | .begin p => s.onPage p fun run => { run with page := run.page.beginTransaction }
  | .finish p => s.onPage p fun run => { run with page := run.page.endTransaction }
  | .finishClose p => s.onPage p fun run =>
      { run with page := run.page.finishClose, since := [], resynced := false }

/-- The keys that a step merges can be read: each table whose name every object inherits has its keys
listed, as a property of the object's own, by each outcome that changed it, unless they were given up
before. -/
def Fine (s : System π ν) : Action π ν → Prop
  | .execSql results => AllReadable (results.map EngineOutcome.parsed)
  | .announce => s.host.invalidationScheduled = true → s.host.closed = false →
      AllReadable s.host.pendingOutcomes
  | .receive p _ => ∀ message inbox, (s.pages p).inbox = message :: inbox →
      (s.pages p).page.closed = false → message.1.event = .tablesChanged →
      (s.pages p).resynced = false →
      AllReadable ((s.pages p).since.map Prod.fst ++ [message.1.payload])
  | _ => True

/-- The states that runs of fine steps reach. -/
inductive Reaches : System π ν → Prop where
  | start : Reaches .start
  | step {s : System π ν} (a : Action π ν) (before : Reaches s) (fine : Fine s a) :
      Reaches (s.step numbers a)

end System

/-! ## What a delivery is to be -/

/-- An event as it should be: of what was received since the one before, to each subscription that it
concerns, once, and outside a transaction. -/
structure GoodDelivery (d : Delivery ν) : Prop where
  reset : d.event.reset = d.resynced
  tables : d.resynced = false → ∀ table,
    table ∈ d.event.tables ↔ ∃ source ∈ d.sources, table ∈ source.tables
  keys : d.resynced = false → ∀ table rows, d.event.keys.own.get table = some rows →
    ListedKeys d.sources table rows
  nothing : d.resynced = true → d.event.tables = [] ∧ d.event.keys = .empty
  once : d.heard.Nodup
  concerned : ∀ subscription ∈ d.heard, Page.covers d.event subscription = true
  complete : ∀ subscription ∈ d.subscriptions, Page.covers d.event subscription = true →
    subscription ∈ d.heard
  idle : d.transactionActive = false

end

end Changes
end TinyJoin
