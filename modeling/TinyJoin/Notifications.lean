import Mathlib.Data.List.Sort
import TinyJoin.ReportedChanges

/-! Change notifications: the host that announces what it commits, and the page that passes it on. -/
namespace TinyJoin
namespace Changes
open Distinct

/-- A message about changes, as a Worker posts it. A resync lists nothing and asks for everything to be
read again. -/
inductive EventName where
  | tablesChanged | resync
deriving DecidableEq

structure WorkerEvent (ν : Type) where
  event : EventName
  payload : ApplyOutcome ν

/-! ## The host -/

structure Host (ν : Type) where
  pendingRevision : Nat
  pendingTables : List String
  pendingOutcomes : List (ApplyOutcome ν)
  invalidationScheduled : Bool
  transactionActive : Bool
  closed : Bool

namespace Host
variable {ν : Type}

def start : Host ν := ⟨0, [], [], false, false, false⟩

def emitInvalidation (outcome : ApplyOutcome ν) (host : Host ν) : Host ν :=
  let pendingTables := outcome.tables.foldl add host.pendingTables
  { host with
    pendingRevision := max host.pendingRevision outcome.revision
    pendingTables
    pendingOutcomes :=
      if outcome.tables.length > 0 then host.pendingOutcomes ++ [outcome] else host.pendingOutcomes
    -- the event is made a task later, once
    invalidationScheduled := host.invalidationScheduled || !pendingTables.isEmpty }

/-- Announces a result, unless it is staged in a transaction. A flat array published nothing. -/
def emitUnlessInTransaction (outcome : Option (ApplyOutcome ν)) (host : Host ν) : Host ν :=
  match outcome with
  | none => host
  | some outcome =>
    if host.transactionActive = false ∧ outcome.tables.length > 0 then emitInvalidation outcome host
    else host

section
variable [DecidableEq ν] (numbers : NumberText ν)

def mergeScriptKeys (results : List (ApplyOutcome ν)) : Except TypeError (ChangedKeys ν) :=
  match Effect.forEach (fun result : ApplyOutcome ν =>
      mergeChangedKeys numbers result.tables result.keys) results .empty with
  | (.ok (), merged) => .ok (finishChangedKeys merged)
  | (.error error, _) => .error error

/-- A script's statements, announced as one outcome. -/
def execSql (results : List (ApplyOutcome ν)) (host : Host ν) : Except TypeError (Host ν) := do
  let keys ← mergeScriptKeys numbers results
  return emitUnlessInTransaction (some {
    revision := results.foldl (fun revision result => max revision result.revision) 0
    tables := distinct (results.flatMap ApplyOutcome.tables)
    keys }) host

/-- The task that makes the event of all that is pending, unless the host is closed. -/
def announce (host : Host ν) : Except TypeError (Option (WorkerEvent ν)) × Host ν :=
  let host := { host with invalidationScheduled := false }
  if host.closed ∨ host.pendingTables.isEmpty then (.ok none, host)
  else
    match Effect.forEach (fun outcome : ApplyOutcome ν =>
        mergeChangedKeys numbers outcome.tables outcome.keys) host.pendingOutcomes .empty with
    | (.error error, _) => (.error error, host)
    | (.ok (), pendingKeys) =>
      let payload : ApplyOutcome ν := {
        revision := host.pendingRevision
        tables := host.pendingTables.insertionSort (fun a b => Utf16.ofString a ≤ Utf16.ofString b)
        keys := finishChangedKeys pendingKeys }
      (.ok (some ⟨.tablesChanged, payload⟩), { host with pendingTables := [], pendingOutcomes := [] })

end

end Host

/-! ## The page -/

structure TablesChangedEvent (ν : Type) where
  revision : Nat
  tables : List String
  keys : ChangedKeys ν
  reset : Bool

structure Subscription where
  id : Nat
  tables : Option (List String)
deriving DecidableEq

/-- What a listener does to its client's subscriptions while an event is delivered. -/
inductive Reaction where
  | subscribe (tables : Option (List String))
  | unsubscribe (id : Nat)
  | close

structure Page (ν : Type) where
  revision : Nat
  transactionActive : Bool
  closing : Bool
  closed : Bool
  pendingNotification : Option (TablesChangedEvent ν)
  pendingKeys : PendingChangedKeys ν
  subscriptions : List Subscription
  nextSubscription : Nat

namespace Page
variable {ν : Type}

def start : Page ν := ⟨0, false, false, false, none, .empty, [], 0⟩

def subscribe (tables : Option (List String)) (page : Page ν) : Page ν :=
  { page with
    subscriptions := page.subscriptions ++ [⟨page.nextSubscription, tables⟩]
    nextSubscription := page.nextSubscription + 1 }

def unsubscribe (id : Nat) (page : Page ν) : Page ν :=
  { page with subscriptions := page.subscriptions.filter (fun subscription => subscription.id != id) }

def react (page : Page ν) : Reaction → Page ν
  | .subscribe tables => page.subscribe tables
  | .unsubscribe id => page.unsubscribe id
  | .close => { page with closing := true }

def covers (event : TablesChangedEvent ν) (subscription : Subscription) : Bool :=
  event.reset || match subscription.tables with
    | none => true
    | some tables => event.tables.any (fun table => decide (table ∈ tables))

/-- The loop over the subscriptions, which also comes to those that a listener adds, and no longer to
those it removes. -/
def deliver (event : TablesChangedEvent ν) :
    Nat → Nat → List (List Reaction) → Page ν → List Subscription × Page ν
  | 0, _, _, page => ([], page)
  | fuel + 1, least, reactions, page =>
    match page.subscriptions.find? (fun subscription => decide (least ≤ subscription.id)) with
    | none => ([], page)
    | some subscription =>
      if covers event subscription then
        let (rest, page) := deliver event fuel (subscription.id + 1) reactions.tail
          ((reactions.headD []).foldl react page)
        (subscription :: rest, page)
      else deliver event fuel (subscription.id + 1) reactions page

/-- An event delivered, and the subscriptions whose listeners it went to, in turn. -/
abbrev Delivered (ν : Type) : Type := TablesChangedEvent ν × List Subscription

def flushNotifications (reactions : List (List Reaction)) (page : Page ν) :
    Option (Delivered ν) × Page ν :=
  match page.pendingNotification with
  | none => (none, page)
  | some event =>
    if page.transactionActive ∨ page.closing then (none, page)
    else
      let page := { page with pendingNotification := none, pendingKeys := .empty }
      let (heard, page) := deliver event (page.nextSubscription + reactions.flatten.length + 1) 0
        reactions page
      (some (event, heard), page)

section
variable [DecidableEq ν] (numbers : NumberText ν)

/-- The notification that an event adds to. -/
def noteEvent (event : WorkerEvent ν) (reset : Bool) (page : Page ν) : TablesChangedEvent ν where
  revision := page.revision
  tables := if reset then [] else distinct
    ((page.pendingNotification.elim [] TablesChangedEvent.tables) ++ event.payload.tables)
  keys := if reset then .empty else finishChangedKeys page.pendingKeys
  reset := reset

def onEvent (event : WorkerEvent ν) (reactions : List (List Reaction)) (page : Page ν) :
    Except TypeError (Option (Delivered ν)) × Page ν :=
  let page := { page with revision := max page.revision event.payload.revision }
  let reset := event.event = .resync ∨ page.pendingNotification.any TablesChangedEvent.reset
  let (merged, pendingKeys) := if reset then (.ok (), .empty) else
    mergeChangedKeys numbers event.payload.tables event.payload.keys page.pendingKeys
  let page := { page with pendingKeys }
  match merged with
  | .error error => (.error error, page)
  | .ok () =>
    let (delivered, page) := flushNotifications reactions
      { page with pendingNotification := some (noteEvent event (decide reset) page) }
    (.ok delivered, page)

end

def beginTransaction (page : Page ν) : Page ν := { page with transactionActive := true }
def endTransaction (page : Page ν) : Page ν := { page with transactionActive := false }
def close (page : Page ν) : Page ν := { page with closing := true }

/-- What is left of a page once its Worker has closed. -/
def finishClose (page : Page ν) : Page ν :=
  { page with
    closing := false
    closed := true
    subscriptions := []
    pendingNotification := none
    pendingKeys := .empty }

end Page

end Changes
end TinyJoin
