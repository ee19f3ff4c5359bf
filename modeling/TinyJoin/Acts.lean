import TinyJoin.Moves

/-! The tasks of a Worker as acts, one after another: the moves by which it answers and serves, and what
else a task does to it. -/
namespace TinyJoin
namespace Coordination
namespace Coordinator
variable {E ν : Type}

/-- The Worker with a request that waits for its response. -/
def enqueued (request : WorkerRequest) (bytes : Nat) (worker : Coordinator E ν) : Coordinator E ν :=
  { worker with
    pending := worker.pending.set request.id ⟨request, bytes, none⟩
    pendingBytes := worker.pendingBytes + bytes }

/-- The Worker with a request sent to the owner of another tab. -/
def sent (channel : String) (message : RoutedRequest) (worker : Coordinator E ν) : Coordinator E ν :=
  { worker with routed := worker.routed ++ [(channel, message)] }

/-- What a hand asks a Worker to answer. -/
def Asks (hand : Hand ν) (worker : Coordinator E ν) (message : Response ν) : Prop :=
  hand = .answering message.id ∧ worker.Justified worker.client message ∨
    ∃ request, hand = .posted request ∧ message.id = request.id ∧
      (worker.Justified worker.client message ∨
        request.method.isClose = true ∧ message = .ok request.id .undefined)

/-- An act of a Worker. Guards that no more than choose between acts are left open. -/
inductive Act : Hand ν × Coordinator E ν → Hand ν × Coordinator E ν → Prop
  | move {before after} (move : Move before after) : Act before after
  | ignore {hand worker} : Act (hand, worker) (.empty, worker)
  -- of the page's requests
  | answerNow {hand worker} {message : Response ν} (asks : worker.Asks hand message) :
    Act (hand, worker) (.empty, worker.post message)
  | keepNow {hand worker starting} {message : Response ν} (asks : worker.Asks hand message)
    (opening : worker.election = .opening starting) :
    Act (hand, worker) (.empty, { worker with finishing := some message })
  | enqueue {request} {worker : Coordinator E ν} (bytes : Nat) :
    Act (.posted request, worker) (.empty, worker.enqueued request bytes)
  | serve {request} {worker : Coordinator E ν} (outcome : Except Thrown (Value ν)) :
    Act (.posted request, worker)
      (.answering request.id, worker.noteServed worker.client request outcome)
  | event {hand worker} (event : Changes.WorkerEvent ν) : Act (hand, worker) (hand, worker.postEvent event)
  -- of the requests to an owner
  | mark {worker id entry} (epoch : String) (waits : worker.Unsent id entry) :
    Act (.empty, worker)
      (.arrived (worker.routedRequest epoch entry.request), worker.marked id entry epoch)
  | route {worker id entry} (channel epoch : String) (waits : worker.Unsent id entry) :
    Act (.empty, worker) (.empty,
      (worker.marked id entry epoch).sent channel (worker.routedRequest epoch entry.request))
  | lose {worker id entry} (epoch : String) (waits : worker.Unsent id entry) :
    Act (.empty, worker) (.empty, worker.marked id entry epoch)
  -- of the locks
  | await {worker} (idle : worker.election = .idle) :
    Act (.empty, worker) (.empty, { worker with election := .waiting })
  | decline {worker} (epoch : String) (waits : worker.election = .waiting) :
    Act (.granted epoch, worker) (.empty, { worker with election := .leaving })
  | elect {worker} (epoch : String) (waits : worker.election = .waiting) :
    Act (.granted epoch, worker) (.empty, { worker with election := .querying epoch })
  | open {worker starting} (queried : worker.election = .querying starting.epoch) :
    Act (.empty, worker) (.empty, { worker with election := .opening starting })
  | own {worker starting} (host : Host E ν) (opening : worker.election = .opening starting) :
    Act (.empty, worker) (.empty, { worker with
      owner := some (Broker.start host starting.epoch worker.compatibility) })
  | lead {worker starting} (opening : worker.election = .opening starting) :
    Act (.empty, worker) (.empty, { worker with election := .owning })
  | finish {worker starting} {message last : Response ν} (opening : worker.election = .opening starting)
    (going : worker.finishing = some message)
    (ends : last = message ∨ ∃ error, last = .failed message.id error) :
    Act (.empty, worker) (.empty, worker.leave.post last)
  | release {worker} (leaves : worker.election = .leaving) :
    Act (.empty, worker) (.empty, { worker with election := .left })

/-- Acts one after another. -/
def Acts : Hand ν × Coordinator E ν → Hand ν × Coordinator E ν → Prop := Relation.ReflTransGen Act

section Rules
variable {numbers : Changes.NumberText ν} {engine : WorkerEngine E ν} {hand : Hand ν}
  {worker : Coordinator E ν}

lemma Moves.rests {a b : Hand ν × Coordinator E ν} (moves : Moves a b)
    (rests : a.2.Rests) : b.2.Rests := by
  induction moves with
  | refl => exact rests
  | tail _ move ih => exact move.rests ih

lemma Act.acts {a b : Hand ν × Coordinator E ν} (act : Act a b) :
    Acts a b :=
  Relation.ReflTransGen.single act

lemma acts_refl (state : Hand ν × Coordinator E ν) : Acts state state :=
  Relation.ReflTransGen.refl

lemma Moves.acts {a b : Hand ν × Coordinator E ν} (moves : Moves a b) :
    Acts a b :=
  moves.lift id fun _ _ => Act.move

/-! ## Sending requests to the owner -/

/-- Sends one request, where it can be sent. -/
lemma acts_dispatch (id : Nat) (rests : worker.Rests) :
    Acts (.empty, worker) (.empty, dispatch numbers engine id worker) ∧
      (dispatch numbers engine id worker).Rests := by
  unfold dispatch
  split
  · next entry leader hget hleader =>
    split
    · exact ⟨acts_refl _, rests⟩
    · next hfree =>
      rw [not_or, not_or, not_or, not_not, not_not] at hfree
      have hunsent : worker.Unsent id entry := ⟨hget, Option.not_isSome_iff_eq_none.mp hfree.2.2.1⟩
      split
      · exact ⟨(moves_fail transactionLost hget).acts, rests⟩
      · dsimp only
        split
        · have hmoves := @moves_ownerReceive E ν numbers engine (worker.marked id entry leader.epoch)
            (worker.routedRequest leader.epoch entry.request) entry.bytes rests
          exact ⟨(Act.mark leader.epoch hunsent).acts.trans hmoves.acts, hmoves.rests rests⟩
        · next channel _ _ => exact ⟨(Act.route channel leader.epoch hunsent).acts, rests⟩
        · exact ⟨(Act.lose leader.epoch hunsent).acts, rests⟩
  · exact ⟨acts_refl _, rests⟩

lemma dispatch_vacant (id : Nat) (vacant : worker.owner = none) :
    (dispatch numbers engine id worker).owner = none ∧
      (dispatch numbers engine id worker).election = worker.election := by
  unfold dispatch
  split
  · split
    · exact ⟨vacant, rfl⟩
    split
    · exact ⟨vacant, rfl⟩
    dsimp only
    split
    · next howner => cases vacant.symm.trans howner
    · exact ⟨vacant, rfl⟩
    · exact ⟨vacant, rfl⟩
  · exact ⟨vacant, rfl⟩

/-- Where it is no owner, a Worker that sends its requests stays none, and stays where it is. -/
lemma dispatchAll_vacant (vacant : worker.owner = none) :
    (dispatchAll numbers engine worker).owner = none ∧
      (dispatchAll numbers engine worker).election = worker.election := by
  unfold dispatchAll
  generalize worker.pending.entries.map Prod.fst = ids
  induction ids generalizing worker with
  | nil => exact ⟨vacant, rfl⟩
  | cons id ids ih =>
    have hone := @dispatch_vacant E ν numbers engine worker id vacant
    have hrest := ih hone.1
    exact ⟨hrest.1, hrest.2.trans hone.2⟩

lemma acts_dispatchAll (rests : worker.Rests) :
    Acts (.empty, worker) (.empty, dispatchAll numbers engine worker) ∧
      (dispatchAll numbers engine worker).Rests := by
  unfold dispatchAll
  generalize worker.pending.entries.map Prod.fst = ids
  induction ids generalizing worker with
  | nil => exact ⟨acts_refl _, rests⟩
  | cons id ids ih =>
    obtain ⟨hfirst, hrests⟩ := @acts_dispatch E ν numbers engine worker id rests
    obtain ⟨hothers, hlast⟩ := ih hrests
    exact ⟨hfirst.trans hothers, hlast⟩

end Rules

end Coordinator
end Coordination
end TinyJoin
