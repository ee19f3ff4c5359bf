import TinyJoin.DatabaseBroker

/-! What the broker leaves as it is while it serves a request or forgets a client: its queue, and how far
it has come with it. -/
namespace TinyJoin
namespace Coordination

/-- A broker's queue, and how far the broker has come with it. -/
structure Work where
  epoch : String
  compatibility : String
  queue : List Queued
  queuedBytes : Nat
  busy : Bool
  running : Option RoutedRequest
  closed : Bool

namespace Broker
variable {E ν α : Type}

def work (broker : Broker E ν) : Work :=
  ⟨broker.epoch, broker.compatibility, broker.queue, broker.queuedBytes, broker.busy, broker.running,
    broker.closed⟩

@[simp] lemma work_serve (serving : Option Serving) (broker : Broker E ν) :
    (broker.serve serving).work = broker.work := rfl

@[simp] lemma work_abandon (client : String) (broker : Broker E ν) :
    (broker.abandon client).work = broker.work := rfl

@[simp] lemma work_endTransaction (broker : Broker E ν) :
    broker.endTransaction.work = broker.work := rfl

@[simp] lemma work_connect (client : String) (broker : Broker E ν) :
    (broker.connect client).work = broker.work := rfl

@[simp] lemma work_modifyPrepared (client : String) (f : InsertionMap Nat Nat → InsertionMap Nat Nat)
    (broker : Broker E ν) : (broker.modifyPrepared client f).work = broker.work := by
  rw [modifyPrepared]
  split
  · rfl
  · rfl

@[simp] lemma work_gone (client : String) (broker : Broker E ν) :
    (broker.gone client).work = broker.work := by
  rw [gone]
  split
  · rfl
  · rfl

/-- Whether an action leaves the broker's work as it is. -/
def KeepsWork (action : Effect (Broker E ν) Thrown α) : Prop :=
  ∀ work, Effect.Keeps (fun broker => broker.work = work) action

lemma keepsWork_modify {f : Broker E ν → Broker E ν} (h : ∀ broker, (f broker).work = broker.work) :
    KeepsWork (Effect.modify f) := fun _ =>
  Effect.keeps_modify fun broker hbroker => (h broker).trans hbroker

lemma keepsWork_rpc (request : Effect (Host E ν) Thrown α) : KeepsWork (rpc request) := by
  intro work
  refine Effect.Keeps.orElse (Effect.keeps_focus ?_) fun _ => Effect.keeps_fail _
  exact fun _ _ h => h

variable (numbers : Changes.NumberText ν) (engine : WorkerEngine E ν)

lemma keepsWork_rollback (client : String) : KeepsWork (rollback engine client : Effect (Broker E ν) _ _) := by
  intro work
  refine Effect.keeps_get.bind fun broker => ?_
  cases broker.transaction with
  | none => exact Effect.keeps_pure _
  | some transaction =>
    refine Effect.Keeps.ite ?_ (Effect.keeps_pure _)
    exact (keepsWork_rpc _ work).bind fun _ => keepsWork_modify work_endTransaction work

lemma keepsWork_forget (client : String) : KeepsWork (forget engine client : Effect (Broker E ν) _ _) := by
  intro work
  refine Effect.keeps_get.bind fun broker => ?_
  split
  · exact Effect.keeps_pure _
  · refine (keepsWork_modify (work_serve none) work).bind fun _ => ?_
    refine Effect.Keeps.bind ?_ fun _ => Effect.keeps_get.bind fun broker => ?_
    · refine (keepsWork_rollback engine client work).orElse fun _ => ?_
      exact (keepsWork_modify work_endTransaction work).bind fun _ => Effect.keeps_fail _
    · refine Effect.Keeps.ite (Effect.Keeps.bind ?_ fun _ => ?_) (Effect.keeps_pure _)
      · exact Effect.Keeps.forEach fun _ _ =>
          (keepsWork_rpc _ work).orElse fun _ => Effect.keeps_pure _
      · exact Effect.keeps_modify fun _ hwork => hwork

lemma keepsWork_forgetAbandoned : KeepsWork (forgetAbandoned engine : Effect (Broker E ν) _ _) := by
  intro work
  refine Effect.keeps_get.bind fun _ => Effect.Keeps.forEach fun client _ => ?_
  refine Effect.keeps_get.bind fun _ => Effect.Keeps.ite ?_ (Effect.keeps_pure _)
  exact keepsWork_forget engine client work

lemma keepsWork_restore (client : String) (statement : Nat × String) :
    KeepsWork (restore engine client statement : Effect (Broker E ν) _ _) := by
  intro work
  refine Effect.keeps_get.bind fun _ => Effect.Keeps.ite ?_ (Effect.keeps_pure _)
  exact (keepsWork_rpc _ work).bind fun _ => keepsWork_modify (work_modifyPrepared _ _) work

lemma keepsWork_begin (client : String) (statements : List (Nat × String)) :
    KeepsWork (begin engine client statements : Effect (Broker E ν) _ _) := by
  intro work
  refine (Effect.Keeps.forEach fun _ _ => keepsWork_restore engine client _ work).bind fun _ => ?_
  refine (keepsWork_rpc _ work).bind fun _ => Effect.keeps_get.bind fun _ => ?_
  refine Effect.Keeps.bind (Effect.keeps_modify ?_) fun _ => Effect.keeps_pure _
  exact fun _ hwork => hwork

lemma keepsWork_forwardTransaction (client : String) (method : Method) :
    KeepsWork (forwardTransaction client method : Effect (Broker E ν) _ _) := by
  intro work
  unfold forwardTransaction
  cases method.transactionId with
  | none => exact Effect.keeps_pure _
  | some named =>
    refine Effect.keeps_get.bind fun broker => ?_
    cases broker.transaction with
    | none => exact Effect.keeps_fail _
    | some transaction => exact Effect.Keeps.ite (Effect.keeps_fail _) (Effect.keeps_pure _)

lemma keepsWork_forwardPrepared (client : String) (statementSql : Option String) (method : Method) :
    KeepsWork (forwardPrepared engine client statementSql method : Effect (Broker E ν) _ _) := by
  intro work
  unfold forwardPrepared
  split
  · next logicalId params transactionId rowMode =>
    refine Effect.keeps_get.bind fun broker => ?_
    cases broker.statementId client logicalId with
    | some statementId => exact Effect.keeps_pure _
    | none =>
      cases statementSql with
      | none => exact Effect.keeps_fail _
      | some sql =>
        refine (keepsWork_rpc _ work).bind fun _ => ?_
        exact (keepsWork_modify (work_modifyPrepared _ _) work).bind fun _ =>
          Effect.keeps_pure _
  · exact Effect.keeps_pure _

lemma keepsWork_forward (original forwarded : Method) :
    KeepsWork (forward numbers engine original forwarded : Effect (Broker E ν) _ _) := by
  intro work
  refine Effect.Keeps.orElse ?_ fun error => ?_
  · refine (keepsWork_rpc _ work).bind fun _ => Effect.Keeps.ite ?_ (Effect.keeps_pure _)
    exact (keepsWork_modify work_endTransaction work).bind fun _ => Effect.keeps_pure _
  · have hend : Effect.Keeps (fun broker : Broker E ν => broker.work = work) (do
        Effect.modify endTransaction
        Effect.fail error : Effect (Broker E ν) Thrown (Value ν)) :=
      (keepsWork_modify work_endTransaction work).bind fun _ => Effect.keeps_fail _
    dsimp only
    split
    · refine Effect.keeps_get.bind fun broker => ?_
      split
      · exact hend
      · exact ((keepsWork_rpc _ work).orElse fun _ => Effect.keeps_pure _).bind fun _ => hend
    · exact Effect.keeps_fail _

lemma keepsWork_handle (revision : Nat) (message : RoutedRequest) :
    KeepsWork (handle numbers engine revision message : Effect (Broker E ν) _ _) := by
  intro work
  unfold handle
  dsimp only
  split
  · exact Effect.keeps_pure _
  · refine (keepsWork_modify (work_abandon _) work).bind fun _ => ?_
    exact (keepsWork_rollback engine _ work).bind fun _ => Effect.keeps_pure _
  · refine (keepsWork_rpc _ work).bind fun _ => ?_
    exact (keepsWork_modify (work_modifyPrepared _ _) work).bind fun _ =>
      Effect.keeps_pure _
  · refine Effect.keeps_get.bind fun broker => ?_
    refine (keepsWork_modify (work_modifyPrepared _ _) work).bind fun _ => ?_
    split
    · exact Effect.keeps_pure _
    · exact (keepsWork_rpc _ work).bind fun _ => Effect.keeps_pure _
  · exact keepsWork_begin engine _ _ work
  · refine (keepsWork_forwardTransaction _ _ work).bind fun _ => ?_
    refine (keepsWork_forwardPrepared engine _ _ _ work).bind fun _ => ?_
    exact keepsWork_forward numbers engine _ _ work

end Broker
end Coordination
end TinyJoin
