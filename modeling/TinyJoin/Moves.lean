import Mathlib.Logic.Relation
import TinyJoin.BrokerWork
import TinyJoin.Coordinator

/-! What a task of a Worker comes to, move by move. Beside the Worker stands what is in its hand: what the
task was given, or has taken out of the Worker, and has not yet dealt with. -/
namespace TinyJoin
namespace Coordination

inductive Hand (ν : Type) where
  | empty
  | posted (request : WorkerRequest) -- by the page
  | received (answer : RoutedResponse ν) -- from the accepted owner
  | arrived (message : RoutedRequest) -- at this Worker's broker
  | answering (id : Nat) -- a request, served at once, whose response is due
  | granted (epoch : String) -- the database's lock

/-- The response that a request's outcome makes. -/
def answered {ν : Type} (id : Nat) : Except Thrown (Value ν) → Response ν
  | .error thrown => .failed id (serializeError thrown)
  | .ok (.statement (.flat slots)) => .flat id slots
  | .ok value => .ok id value

namespace Coordinator
variable {E ν : Type}

/-- Whether a response to a client is an error, or the outcome of a request it was served. -/
def Justified (worker : Coordinator E ν) (client : String) (message : Response ν) : Prop :=
  (∃ id error, message = .failed id error) ∨
    ∃ served ∈ worker.served, served.client = client ∧
      message = answered served.request.id served.outcome

lemma justified_failed (worker : Coordinator E ν) (client : String) (id : Nat) (error : SerializedError) :
    worker.Justified client (.failed id error) := .inl ⟨id, error, rfl⟩

/-- Whether a response may go to this Worker's page: its own, or what its owner answered. -/
def Due (hand : Hand ν) (worker : Coordinator E ν) (message : Response ν) : Prop :=
  worker.Justified worker.client message ∨ ∃ epoch, hand = .received ⟨epoch, message⟩

/-- What this Worker's broker has to do, and how far it has come with it. -/
def work (worker : Coordinator E ν) : Option Work := worker.owner.map Broker.work

/-- A broker's work of the same epoch, with no more to do than there was. It is busy while it waits. -/
def Shrinks (before after : Option Work) : Prop :=
  ∀ work, after = some work → ∃ earlier, before = some earlier ∧ work.epoch = earlier.epoch ∧
    work.running = earlier.running ∧ work.queue.Sublist earlier.queue ∧
    (work.busy = earlier.busy ∨ work.busy = true ∨ work.running = none)

/-- The Worker with a request's dispatch noted. -/
def marked (id : Nat) (entry : Pending) (epoch : String) (worker : Coordinator E ν) :
    Coordinator E ν :=
  { worker with
    pending := worker.pending.set id { entry with epoch := some epoch }
    dispatched := worker.dispatched ++ [id] }

/-- Whether a request waits that has not been sent to an owner. -/
def Unsent (worker : Coordinator E ν) (id : Nat) (entry : Pending) : Prop :=
  worker.pending.get id = some entry ∧ entry.epoch = none

/-- A move of a Worker that answers requests, or serves them as an owner. What serving comes to is left
open, and so is what is aside from requests. -/
inductive Move : Hand ν × Coordinator E ν → Hand ν × Coordinator E ν → Prop
  | aside {hand worker prepared leader outgoing engineOpen releaseLeader releaseClient closed
      initialized refreshRequested terminalError localRevision announcementSequence acceptedSequence
      preparedBytes queries gone group} :
    Move (hand, worker) (hand, { worker with
      prepared, leader, outgoing, engineOpen, releaseLeader, releaseClient, closed, initialized,
      refreshRequested, terminalError, localRevision, announcementSequence, acceptedSequence,
      preparedBytes, queries, gone, group })
  | leave {hand worker} : Move (hand, worker) (hand, worker.leave)
  -- of the requests that wait
  | remove {hand worker} (id : Nat) : Move (hand, worker) (hand, worker.removePending id)
  | answer {hand worker entry} {message : Response ν} (due : worker.Due hand message)
    (waits : worker.pending.get message.id = some entry) :
    Move (hand, worker) (hand, (worker.removePending message.id).post message)
  | keep {hand worker entry starting} {message : Response ν} (due : worker.Due hand message)
    (waits : worker.pending.get message.id = some entry)
    (opening : worker.election = .opening starting) :
    Move (hand, worker) (hand, { worker.removePending message.id with finishing := some message })
  -- of the broker
  | tend {hand worker owner} (shrinks : Shrinks worker.work (owner.map Broker.work)) :
    Move (hand, worker) (hand, { worker with owner })
  | reply {hand worker} (client epoch : String) {message : Response ν}
    (justified : worker.Justified client message) :
    Move (hand, worker) (hand, { worker with replies := worker.replies ++ [(client, ⟨epoch, message⟩)] })
  | drop {message worker} : Move (.arrived message, worker) (.empty, worker)
  | push {message worker} (bytes : Nat) :
    Move (.arrived message, worker) (.empty, worker.modifyOwner (Broker.push message bytes))
  | serveNow {message worker} (outcome : Except Thrown (Value ν)) :
    Move (.arrived message, worker) (.empty, worker.noteServed message.client message.request outcome)
  | take {hand} {worker : Coordinator E ν} {index queued}
    (next : worker.nextQueued = some (index, queued)) (busy : worker.owner.any Broker.busy = true) :
    Move (hand, worker)
      (hand, (worker.modifyOwner (Broker.take index queued)).setRunning (some queued.message))
  | handle {hand} {worker : Coordinator E ν} {broker message} (owns : worker.owner = some broker)
    (runs : broker.running = some message) (outcome : Except Thrown (Value ν)) :
    Move (hand, worker)
      (hand, (worker.setRunning none).noteServed message.client message.request outcome)

/-- Moves one after another. -/
def Moves : Hand ν × Coordinator E ν → Hand ν × Coordinator E ν → Prop :=
  Relation.ReflTransGen Move

section Rules
variable {numbers : Changes.NumberText ν} {engine : WorkerEngine E ν}
  {hand : Hand ν} {worker : Coordinator E ν}

lemma moves_refl (state : Hand ν × Coordinator E ν) : Moves state state :=
  Relation.ReflTransGen.refl

lemma Move.moves {a b : Hand ν × Coordinator E ν} (move : Move a b) :
    Moves a b :=
  Relation.ReflTransGen.single move

/-! ## Of the requests that wait -/

lemma moves_fail {id : Nat} {entry : Pending} (error : SerializedError)
    (waits : worker.pending.get id = some entry) : Moves (hand, worker) (hand, worker.fail id error) :=
  (Move.answer (.inl (justified_failed worker worker.client id error)) waits).moves

/-- The loop of `failPending`, over entries that wait. -/
lemma moves_foldl_fail (error : SerializedError) (dispatchedOnly : Bool)
    (entries : List (Nat × Pending)) (nodup : (entries.map Prod.fst).Nodup)
    (waits : ∀ entry ∈ entries, worker.pending.get entry.1 = some entry.2) :
    Moves (hand, worker) (hand, entries.foldl (fun worker entry =>
      if !dispatchedOnly || entry.2.epoch.isSome then worker.fail entry.1 error else worker)
      worker) := by
  induction entries generalizing worker with
  | nil => exact moves_refl _
  | cons entry rest ih =>
    rw [List.map_cons, List.nodup_cons] at nodup
    rw [List.forall_mem_cons] at waits
    rw [List.foldl_cons]
    split
    · refine (moves_fail error waits.1).trans (ih nodup.2 fun other hother => ?_)
      have hne : other.1 ≠ entry.1 := fun heq =>
        nodup.1 (heq ▸ List.mem_map_of_mem (f := Prod.fst) hother)
      have hdelete := worker.pending.get_delete entry.1 other.1
      rw [if_neg hne, waits.2 other hother] at hdelete
      exact hdelete
    · exact ih nodup.2 waits.2

lemma moves_failPending (error : SerializedError) (dispatchedOnly : Bool) :
    Moves (hand, worker) (hand, worker.failPending error dispatchedOnly) :=
  moves_foldl_fail error dispatchedOnly _ worker.pending.nodup fun entry hentry =>
    (worker.pending.mem_entries_iff entry.1 entry.2).mp hentry

lemma moves_onFailed (epoch : String) (error : SerializedError) :
    Moves (hand, worker) (hand, worker.onFailed epoch error) := by
  rw [onFailed]
  split
  · exact Move.aside.moves.trans (moves_failPending error false)
  · exact moves_refl _

/-! ## The broker's end -/

lemma shrinks_refl (work : Option Work) : Shrinks work work :=
  fun work h => ⟨work, h, rfl, rfl, List.Sublist.refl _, .inl rfl⟩

lemma shrinks_map {f : Broker E ν → Broker E ν} (owner : Option (Broker E ν))
    (epoch : ∀ broker, (f broker).epoch = broker.epoch)
    (running : ∀ broker, (f broker).running = broker.running)
    (queue : ∀ broker, (f broker).queue.Sublist broker.queue)
    (busy : ∀ broker, owner = some broker → (f broker).busy = broker.busy ∨ (f broker).busy = true ∨
      (f broker).running = none) :
    Shrinks (owner.map Broker.work) ((owner.map f).map Broker.work) := by
  intro work h
  obtain ⟨broker, hbroker, rfl⟩ := Option.map_eq_some_iff.mp h
  obtain ⟨earlier, rfl, rfl⟩ := Option.map_eq_some_iff.mp hbroker
  exact ⟨earlier.work, rfl, epoch _, running _, queue _, busy _ rfl⟩

lemma shrinks_close (owner : Option (Broker E ν)) :
    Shrinks (owner.map Broker.work) ((owner.map Broker.close).map Broker.work) :=
  shrinks_map owner (fun _ => rfl) (fun _ => rfl) (fun _ => List.nil_sublist _) fun _ _ => .inl rfl

lemma moves_tend {owner : Option (Broker E ν)} (same : owner.map Broker.work = worker.work) :
    Moves (hand, worker) (hand, { worker with owner }) :=
  (Move.tend (same ▸ shrinks_refl _)).moves

lemma closeEngine_eq : ∃ owner engineOpen, (closeEngine engine worker).2 =
    { worker with owner, engineOpen } ∧ owner.map Broker.work = worker.work := by
  unfold closeEngine
  split
  · next howner =>
    refine ⟨_, _, rfl, ?_⟩
    rw [work, howner]
    rfl
  · exact ⟨worker.owner, worker.engineOpen, rfl, rfl⟩

lemma moves_retire (error : SerializedError) :
    Moves (hand, worker) (hand, retire engine error worker) := by
  unfold retire
  split
  · exact moves_refl _
  · next broker howner =>
    have hpost : Move (hand, worker) (hand, worker.postGroup (.failed broker.epoch error)) := .aside
    refine hpost.moves.trans ((moves_onFailed broker.epoch error).trans ?_)
    generalize (worker.postGroup (.failed broker.epoch error)).onFailed broker.epoch error = failed
    obtain ⟨owner, engineOpen, heq, hwork⟩ :=
      @closeEngine_eq E ν engine (failed.modifyOwner Broker.close)
    have htend : Move (hand, failed) (hand, { failed with owner }) :=
      .tend (hwork ▸ shrinks_close failed.owner)
    have haside : Move (hand, { failed with owner }) (hand, { failed with owner, engineOpen }) := .aside
    rw [closeOwner, heq]
    exact htend.moves.trans (haside.moves.trans Move.leave.moves)

/-- The Worker with its last response posted, and its end. -/
lemma finish_eq (message : Response ν) (result : Except Thrown Unit) :
    ∃ last : Response ν, finish message result worker = { worker.leave.post last with gone := true } ∧
      (last = message ∨ ∃ error, last = .failed message.id error) := by
  unfold finish
  cases result with
  | ok _ => exact ⟨message, rfl, .inl rfl⟩
  | error thrown => exact ⟨_, rfl, .inr ⟨_, rfl⟩⟩

/-- What closing comes to: the last response is posted, or kept until the engine is open. -/
lemma finishClose_cases (message : Response ν) : ∃ closed owner engineOpen group,
    Shrinks worker.work (owner.map Broker.work) ∧
    ((∃ starting, worker.election = .opening starting ∧ finishClose engine message worker =
        { worker with closed, owner, engineOpen, group, finishing := some message }) ∨
      ∃ last : Response ν, (last = message ∨ ∃ error, last = .failed message.id error) ∧
        finishClose engine message worker =
          { ({ worker with closed, owner, engineOpen, group }.leave).post last with gone := true }) := by
  unfold finishClose
  split
  · exact ⟨worker.closed, worker.owner, worker.engineOpen, worker.group, shrinks_refl _,
      .inr ⟨message, .inl rfl, rfl⟩⟩
  · obtain ⟨group, hshutdown⟩ : ∃ group, worker.shutdown =
        { worker with closed := true, owner := worker.owner.map Broker.close, group } := by
      unfold shutdown
      dsimp only
      split
      · exact ⟨_, rfl⟩
      · exact ⟨worker.group, rfl⟩
    rw [hshutdown]
    dsimp only
    split
    · next starting hopening =>
      exact ⟨true, _, worker.engineOpen, group, shrinks_close _, .inl ⟨starting, hopening, rfl⟩⟩
    · obtain ⟨owner, engineOpen, hclose, hwork⟩ := @closeEngine_eq E ν engine
        { worker with closed := true, owner := worker.owner.map Broker.close, group }
      obtain ⟨last, hfinish, hlast⟩ := @finish_eq E ν _ message _
      exact ⟨true, owner, engineOpen, group, hwork ▸ shrinks_close worker.owner,
        .inr ⟨last, hlast, by rw [hfinish, hclose]⟩⟩

lemma Due.last {message last : Response ν} (due : worker.Due hand message)
    (h : last = message ∨ ∃ error, last = .failed message.id error) :
    worker.Due hand last ∧ last.id = message.id := by
  rcases h with rfl | ⟨error, rfl⟩
  · exact ⟨due, rfl⟩
  · exact ⟨.inl (justified_failed _ _ _ _), rfl⟩

lemma moves_finishClose {message : Response ν} {entry : Pending} (due : worker.Due hand message)
    (waits : worker.pending.get message.id = some entry) :
    Moves (hand, worker) (hand, finishClose engine message (worker.removePending message.id)) := by
  obtain ⟨closed, owner, engineOpen, group, hshrinks, ⟨starting, hopening, heq⟩ | ⟨last, hlast, heq⟩⟩ :=
    @finishClose_cases E ν engine (worker.removePending message.id) message
  all_goals
    have htend : Move (hand, worker) (hand, { worker with owner }) := .tend hshrinks
    have haside : Move (hand, { worker with owner })
      (hand, { worker with closed, owner, engineOpen, group }) := .aside
    refine (htend.moves.trans haside.moves).trans ?_
    rw [heq]
  · exact (@Move.keep E ν hand { worker with closed, owner, engineOpen, group } entry starting message
      due waits hopening).moves
  · obtain ⟨hdue, hid⟩ := due.last hlast
    rw [← hid] at waits ⊢
    have hanswer := @Move.answer E ν hand { worker with closed, owner, engineOpen, group } entry last
      hdue waits
    exact hanswer.moves.trans (Move.leave.moves.trans Move.aside.moves)

/-! ## Of the answers -/

lemma confirmed_eq (request : WorkerRequest) (message : Response ν) :
    ∃ initialized prepared preparedBytes, worker.confirmed request message =
      { worker with initialized, prepared, preparedBytes } := by
  unfold confirmed confirm
  split
  · split <;> exact ⟨_, _, _, rfl⟩
  · exact ⟨_, _, _, rfl⟩
  · exact ⟨_, _, _, rfl⟩

lemma moves_response {message : Response ν} (due : worker.Due hand message) :
    Moves (hand, worker) (hand, response engine message worker) := by
  unfold response
  split
  · exact moves_refl _
  · next entry hget =>
    obtain ⟨initialized, prepared, preparedBytes, heq⟩ :=
      @confirmed_eq E ν (worker.removePending message.id) entry.request message
    have hconfirm : Move (hand, worker)
        (hand, { worker with initialized, prepared, preparedBytes }) := .aside
    rw [heq]
    refine hconfirm.moves.trans ?_
    dsimp only
    split
    · exact @moves_finishClose E ν engine hand { worker with initialized, prepared, preparedBytes }
        message entry due hget
    · exact (@Move.answer E ν hand { worker with initialized, prepared, preparedBytes } entry message
        due hget).moves

lemma moves_reply {client : String} {message : Response ν}
    (justified : worker.Justified client message) :
    Moves (hand, worker) (hand, reply engine client message worker) := by
  rw [reply]
  split
  · next same =>
    subst same
    exact moves_response (.inl justified)
  · split
    · exact moves_refl _
    · next broker howner =>
      split
      · exact (Move.reply client broker.epoch justified).moves
      · exact moves_refl _

lemma moves_refuse {client : String} {message : Response ν}
    (justified : worker.Justified client message) :
    Moves (hand, worker) (hand, refuse engine client message worker) := by
  rw [refuse]
  split
  · next same =>
    subst same
    exact moves_response (.inl justified)
  · split
    · exact moves_refl _
    · next broker howner => exact (Move.reply client broker.epoch justified).moves

lemma moves_replyFailed (message : RoutedRequest) (error : SerializedError) :
    Moves (hand, worker) (hand, replyFailed engine message error worker) :=
  moves_reply (justified_failed _ _ _ _)

/-- Settling a request that has been served is to post its outcome's response, and what comes of it. -/
lemma settle_cases (post : Response ν → Coordinator E ν → Coordinator E ν) {client : String}
    {request : WorkerRequest} {outcome : Except Thrown (Value ν)}
    (served : ⟨client, request, outcome⟩ ∈ worker.served) :
    ∃ (message : Response ν) (noted : Coordinator E ν), message.id = request.id ∧
      noted.Justified client message ∧ noted.client = worker.client ∧
      (∀ hand, Moves (hand, worker) (hand, noted)) ∧
      ∀ hand, Moves (hand, post message noted)
        (hand, settle engine post request outcome worker) := by
  have hnote (value : Value ν) (hvalue : answered request.id outcome = .ok request.id value) :
      (worker.noteResult value).Justified client (.ok request.id value) :=
    .inr ⟨⟨client, request, outcome⟩, served, rfl, hvalue.symm⟩
  unfold settle
  split
  · next thrown =>
    refine ⟨_, worker, rfl, justified_failed worker client request.id (serializeError thrown), rfl,
      fun _ => moves_refl _, fun hand => ?_⟩
    unfold settleFailure
    dsimp only
    split
    · exact moves_retire _
    · exact moves_refl _
  · next outcome =>
    cases outcome with
    | flat slots =>
      exact ⟨.flat request.id slots, worker, rfl, .inr ⟨_, served, rfl, rfl⟩, rfl,
        fun _ => moves_refl _, fun _ => moves_refl _⟩
    | result result =>
      exact ⟨_, _, rfl, hnote (.statement (.result result)) rfl, rfl,
        fun _ => Move.aside.moves, fun _ => moves_refl _⟩
  · next value hvalue =>
    refine ⟨_, _, rfl, hnote value ?_, rfl, fun _ => Move.aside.moves, fun _ => moves_refl _⟩
    cases value <;> first | rfl | exact absurd rfl (hvalue _)

/-- Settling a request by a reply to its client. -/
lemma moves_settle {client : String} {request : WorkerRequest} {outcome : Except Thrown (Value ν)}
    (served : ⟨client, request, outcome⟩ ∈ worker.served) :
    Moves (hand, worker)
      (hand, settle engine (reply engine client) request outcome worker) := by
  obtain ⟨message, noted, -, hjustified, -, hnoted, hrest⟩ :=
    @settle_cases E ν engine worker (reply engine client) _ _ _ served
  exact (hnoted hand).trans ((moves_reply hjustified).trans (hrest hand))

/-! ## The broker at work -/

/-- Whether this Worker's broker serves its queue, and the request it waits for. -/
def pumping (worker : Coordinator E ν) : Option (Bool × Option RoutedRequest) :=
  worker.owner.map fun broker => (broker.busy, broker.running)

lemma pumping_modifyOwner (f : Broker E ν → Broker E ν)
    (h : ∀ broker, ((f broker).busy, (f broker).running) = (broker.busy, broker.running)) :
    (worker.modifyOwner f).pumping = worker.pumping := by
  rw [pumping, pumping, modifyOwner]
  cases worker.owner with
  | none => rfl
  | some broker => exact congrArg some (h broker)

lemma pumping_tend {owner : Option (Broker E ν)} (same : owner.map Broker.work = worker.work) :
    { worker with owner }.pumping = worker.pumping := by
  have hpair (owner : Option (Broker E ν)) : owner.map (fun broker => (broker.busy, broker.running)) =
      (owner.map Broker.work).map fun work => (work.busy, work.running) := by
    cases owner <;> rfl
  rw [pumping, pumping, hpair, hpair]
  exact congrArg _ same

lemma pumping_closeEngine : (closeEngine engine worker).2.pumping = worker.pumping := by
  obtain ⟨owner, engineOpen, heq, hwork⟩ := @closeEngine_eq E ν engine worker
  rw [heq]
  exact pumping_tend hwork

lemma pumping_shutdown : worker.shutdown.pumping = worker.pumping := by
  unfold shutdown
  refine (pumping_modifyOwner Broker.close fun _ => rfl).trans ?_
  split
  · rfl
  · rfl

lemma pumping_finishClose (message : Response ν) :
    (finishClose engine message worker).pumping = worker.pumping := by
  unfold finishClose
  split
  · rfl
  · dsimp only
    split
    · exact pumping_shutdown
    · exact pumping_closeEngine.trans pumping_shutdown

lemma pumping_response (message : Response ν) :
    (response engine message worker).pumping = worker.pumping := by
  unfold response
  split
  · rfl
  · next entry _ =>
    obtain ⟨initialized, prepared, preparedBytes, heq⟩ :=
      @confirmed_eq E ν (worker.removePending message.id) entry.request message
    rw [heq]
    dsimp only
    split
    · exact pumping_finishClose _
    · rfl

lemma pumping_reply (client : String) (message : Response ν) :
    (reply engine client message worker).pumping = worker.pumping := by
  rw [reply]
  split
  · exact pumping_response message
  · split
    · rfl
    · split <;> rfl

lemma pumping_failPending (error : SerializedError) (dispatchedOnly : Bool) :
    (worker.failPending error dispatchedOnly).pumping = worker.pumping := by
  unfold failPending
  generalize worker.pending.entries = entries
  induction entries generalizing worker with
  | nil => rfl
  | cons entry rest ih =>
    rw [List.foldl_cons]
    split
    · exact ih
    · exact ih

lemma pumping_retire (error : SerializedError) :
    (retire engine error worker).pumping = worker.pumping := by
  unfold retire
  split
  · rfl
  · refine (pumping_closeEngine.trans (pumping_modifyOwner Broker.close fun _ => rfl)).trans ?_
    unfold onFailed
    split
    · exact pumping_failPending error false
    · rfl

lemma pumping_settle {post : Response ν → Coordinator E ν → Coordinator E ν}
    (hpost : ∀ message worker, (post message worker).pumping = worker.pumping)
    (request : WorkerRequest) (outcome : Except Thrown (Value ν)) :
    (settle engine post request outcome worker).pumping = worker.pumping := by
  unfold settle
  split
  · unfold settleFailure
    dsimp only
    split
    · exact (pumping_retire _).trans (hpost _ _)
    · exact hpost _ _
  · unfold settleStatement
    split
    · exact hpost _ _
    · exact hpost _ _
  · exact hpost _ _

lemma onOwner_eq {α : Type} {action : Effect (Broker E ν) Thrown α} (keeps : Broker.KeepsWork action) :
    ∃ owner, (onOwner action worker).2 = { worker with owner } ∧
      owner.map Broker.work = worker.work := by
  unfold onOwner
  split
  · next howner => exact ⟨none, by rw [← howner], by rw [work, howner]⟩
  · next broker howner =>
    refine ⟨_, rfl, ?_⟩
    rw [work, howner]
    exact congrArg some ((keeps broker.work).final rfl)

lemma moves_setBusy (busy : Bool) (h : busy = true ∨ worker.owner.bind Broker.running = none) :
    Moves (hand, worker) (hand, worker.setBusy busy) := by
  refine (Move.tend (@shrinks_map E ν (fun broker => { broker with busy }) worker.owner (fun _ => rfl)
    (fun _ => rfl) (fun _ => List.Sublist.refl _) fun broker howner => .inr ?_)).moves
  rw [howner] at h
  exact h

lemma moves_takeUp (fuel : Nat) (forgotten : Bool) (pumps : worker.pumping = some (true, none)) :
    Moves (hand, worker) (hand, takeUp engine fuel forgotten worker) := by
  induction fuel generalizing forgotten worker with
  | zero => exact moves_refl _
  | succ fuel ih =>
    obtain ⟨broker, howner, hbroker⟩ := Option.map_eq_some_iff.mp pumps
    obtain ⟨hbusy, hrunning⟩ := Prod.mk.inj hbroker
    have hstop : Moves (hand, worker) (hand, worker.setBusy false) :=
      moves_setBusy false (.inr (by rw [howner]; exact hrunning))
    rw [takeUp]
    split
    · exact hstop
    split
    · exact moves_refl _
    split
    · exact hstop
    next index queued hnext =>
    dsimp only
    have hpumps : (worker.modifyOwner (Broker.take index queued)).pumping = some (true, none) :=
      (pumping_modifyOwner (Broker.take index queued) fun _ => rfl).trans pumps
    split
    · have hdiscard : Move (hand, worker) (hand, worker.modifyOwner (Broker.take index queued)) :=
        .tend (shrinks_map worker.owner (fun _ => rfl) (fun _ => rfl)
          (fun _ => List.eraseIdx_sublist _ _) fun _ _ => .inl rfl)
      refine hdiscard.moves.trans ((moves_replyFailed _ _).trans (ih false ?_))
      exact (pumping_reply _ _).trans hpumps
    · exact (Move.take hnext (by rw [howner]; exact hbusy)).moves

/-- What handling a request comes to: it is noted as served, and the broker's work is as it was. -/
lemma handled_eq (message : RoutedRequest) : ∃ owner, (handled numbers engine message worker).2 =
    { worker with owner }.noteServed message.client message.request
      (handled numbers engine message worker).1 ∧ owner.map Broker.work = worker.work := by
  have hkeeps : Broker.KeepsWork (do
      Effect.modify (Broker.serve (some ⟨message.client, message.request⟩))
      Broker.handle numbers engine worker.localRevision message) := by
    intro work
    refine (Broker.keepsWork_modify (Broker.work_serve _) work).bind fun _ => ?_
    exact Broker.keepsWork_handle numbers engine _ message work
  obtain ⟨owner, howner, hwork⟩ := @onOwner_eq E ν worker _ _ hkeeps
  exact ⟨owner, congrArg (noteServed _ _ _) howner, hwork⟩

lemma moves_serveQueued {broker : Broker E ν} {message : RoutedRequest}
    (owns : worker.owner = some broker) (busy : broker.busy = true)
    (runs : broker.running = some message) :
    Moves (hand, worker)
        (hand, serveQueued numbers engine message (worker.setRunning none)) ∧
      (serveQueued numbers engine message (worker.setRunning none)).pumping = some (true, none) := by
  obtain ⟨owner, heq, hwork⟩ := @handled_eq E ν numbers engine (worker.setRunning none) message
  have hpumping : { worker.setRunning none with owner }.pumping = some (true, none) := by
    refine (pumping_tend hwork).trans ?_
    rw [setRunning, modifyOwner, owns, pumping, ← busy]
    rfl
  have htend (outcome : Except Thrown (Value ν)) : Moves
      (hand, (worker.setRunning none).noteServed message.client message.request outcome)
      (hand, { worker.setRunning none with owner }.noteServed message.client message.request outcome) :=
    moves_tend hwork
  unfold serveQueued
  dsimp only
  rw [heq]
  constructor
  · refine (Move.handle owns runs _).moves.trans ((htend _).trans (moves_settle ?_))
    exact List.mem_append_right _ (List.mem_singleton.mpr rfl)
  · exact (pumping_settle (fun message _ => pumping_reply _ message) _ _).trans hpumping

lemma bind_running : worker.owner.bind Broker.running = worker.pumping.bind Prod.snd := by
  rw [pumping]
  cases worker.owner <;> rfl

/-- From where it waits, the loop makes moves, and when it fails it rests. -/
lemma moves_pumpLoop (fuel : Nat) (busy : worker.owner.any Broker.busy = true) :
    (pumpLoop numbers engine fuel).Ends worker
      (fun _ after => Moves (hand, worker) (hand, after))
      (fun _ after => Moves (hand, worker) (hand, after) ∧
        after.owner.bind Broker.running = none) := by
  induction fuel generalizing worker with
  | zero => exact moves_refl _
  | succ fuel ih =>
    have hrest (after : Coordinator E ν) (hmoves : Moves (hand, worker) (hand, after)) :
        (do if (← Effect.get).owner.any Broker.busy then pumpLoop numbers engine fuel :
          Effect (Coordinator E ν) Thrown Unit).Ends after
        (fun _ after => Moves (hand, worker) (hand, after))
        (fun _ after => Moves (hand, worker) (hand, after) ∧
          after.owner.bind Broker.running = none) := by
      rw [Effect.ends_bind, Effect.ends_get]
      split
      · next hbusy =>
        exact (ih hbusy).mono (fun _ _ h => hmoves.trans h) fun _ _ h => ⟨hmoves.trans h.1, h.2⟩
      · exact hmoves
    obtain ⟨broker, howner, hbusy⟩ := (Option.any_eq_true _ _).mp busy
    rw [pumpLoop, Effect.ends_bind, Effect.ends_get, howner, Option.bind_some]
    cases hruns : broker.running with
    | some message =>
      have hserves := @moves_serveQueued E ν numbers engine hand worker broker message howner hbusy hruns
      exact hrest _ (hserves.1.trans (moves_takeUp _ false hserves.2))
    | none =>
      obtain ⟨owner, hforgets, hwork⟩ :=
        @onOwner_eq E ν worker _ _ (Broker.keepsWork_forgetAbandoned engine)
      have hforget : Moves (hand, worker)
          (hand, (onOwner (Broker.forgetAbandoned engine) worker).2) := by
        rw [hforgets]
        exact moves_tend hwork
      have hpumps : (onOwner (Broker.forgetAbandoned engine) worker).2.pumping = some (true, none) := by
        rw [hforgets]
        refine (pumping_tend hwork).trans ?_
        rw [pumping, howner, ← hbusy, ← hruns]
        rfl
      refine Effect.ends_bind.mpr (Effect.ends_def.mpr ⟨fun _ after heq => ?_, fun _ after heq => ?_⟩)
      · rw [heq] at hforget hpumps
        exact hrest _ (hforget.trans (moves_takeUp _ true hpumps))
      · rw [heq] at hforget hpumps
        exact ⟨hforget, by rw [bind_running, hpumps]; rfl⟩

/-- A broker that is not busy waits for no request. -/
def Rests (worker : Coordinator E ν) : Prop :=
  ∀ message, worker.pumping ≠ some (false, some message)

lemma moves_startPump (rests : worker.Rests) :
    Moves (hand, worker) (hand, startPump engine worker) := by
  rw [startPump]
  split
  · exact moves_refl _
  · next hopen =>
    rw [Bool.not_eq_true, Option.all_eq_false] at hopen
    obtain ⟨broker, howner, hidle⟩ := hopen
    rw [Bool.or_eq_false_iff] at hidle
    refine (moves_setBusy true (.inl rfl)).trans (moves_takeUp _ false ?_)
    have hrunning : broker.running = none := by
      refine Option.eq_none_iff_forall_ne_some.mpr fun message hmessage => rests message ?_
      rw [pumping, howner, ← hidle.1, ← hmessage]
      rfl
    rw [setBusy, modifyOwner, howner, ← hrunning]
    rfl

lemma moves_resumePump :
    Moves (hand, worker) (hand, resumePump numbers engine worker) := by
  rw [resumePump]
  split
  · next hbusy =>
    have hloop := @moves_pumpLoop E ν numbers engine hand worker (2 * worker.queueLength + 2) hbusy
    split
    · next heq => exact hloop.ok heq
    · next heq =>
      obtain ⟨hmoves, hrests⟩ := hloop.error heq
      refine hmoves.trans ((moves_retire abandonFailed).trans (moves_setBusy false (.inr ?_)))
      rw [bind_running, pumping_retire, ← bind_running]
      exact hrests
  · exact moves_refl _

/-! ## What arrives -/

/-- What serving a request at once comes to. -/
lemma serveNow_cases {client : String} {request : WorkerRequest}
    {post : Response ν → Coordinator E ν → Coordinator E ν} {after : Coordinator E ν}
    (serves : serveNow numbers engine client request post worker = some after) :
    ∃ owner outcome, owner.map Broker.work = worker.work ∧ after = settle engine post request outcome
      ({ worker with owner }.noteServed client request outcome) := by
  unfold serveNow at serves
  split at serves
  · cases serves
  · next broker howner =>
    split at serves
    · cases serves
    · split at serves
      · cases serves
      · refine ⟨_, _, ?_, (Option.some.inj serves).symm⟩
        rw [work, howner]
        rfl

lemma moves_serveNow {message : RoutedRequest} {after : Coordinator E ν}
    (serves : serveNow numbers engine message.client message.request (reply engine message.client)
      worker = some after) :
    Moves (.arrived message, worker) (.empty, after) := by
  obtain ⟨owner, outcome, hwork, rfl⟩ := serveNow_cases serves
  refine (moves_tend hwork).trans ((Move.serveNow outcome).moves.trans (moves_settle ?_))
  exact List.mem_append_right _ (List.mem_singleton.mpr rfl)

lemma moves_modifyOwner {f : Broker E ν → Broker E ν} (h : ∀ broker, (f broker).work = broker.work) :
    Moves (hand, worker) (hand, worker.modifyOwner f) := by
  refine moves_tend ?_
  rw [work]
  cases worker.owner with
  | none => rfl
  | some broker => exact congrArg some (h broker)

section Admit
variable {broker : Broker E ν} {message : RoutedRequest} {bytes : Nat} {after : Coordinator E ν}

/-- The Worker once its broker knows the client of a message. -/
def connected (broker : Broker E ν) (client : String) (worker : Coordinator E ν) : Coordinator E ν :=
  if broker.connections.has client then worker else worker.modifyOwner (Broker.connect client)

lemma moves_connected (client : String) :
    Moves (hand, worker) (hand, worker.connected broker client) := by
  rw [connected]
  split
  · exact moves_refl _
  · exact moves_modifyOwner (Broker.work_connect client)

lemma pumping_connected (client : String) :
    (worker.connected broker client).pumping = worker.pumping := by
  rw [connected]
  split
  · rfl
  · exact pumping_modifyOwner (Broker.connect client) fun _ => rfl

lemma Rests.of_pumping {other : Coordinator E ν} (rests : worker.Rests)
    (h : other.pumping = worker.pumping) : other.Rests := by
  intro message hmessage
  exact rests message (h.symm.trans hmessage)

lemma moves_refused (rests : worker.Rests)
    (refuses : checkReceived engine message bytes broker worker = .error after) :
    Moves (.arrived message, worker) (.empty, after) := by
  refine Move.drop.moves.trans ?_
  have hconnected : Moves (.empty, worker)
      (.empty, worker.connected broker message.client) := moves_connected message.client
  unfold checkReceived at refuses
  split at refuses
  · obtain rfl := Except.error.inj refuses
    exact moves_refuse (justified_failed _ _ _ _)
  · change (if _ then Except.error (startPump engine ((replyFailed engine message versionMismatch
      (worker.connected broker message.client)).modifyOwner (Broker.abandon message.client)))
      else if _ then .error (worker.connected broker message.client) else if _ then
      .error (replyFailed engine message _ (worker.connected broker message.client))
      else .ok (worker.connected broker message.client)) = _ at refuses
    split at refuses
    · obtain rfl := Except.error.inj refuses
      refine hconnected.trans ((@moves_replyFailed E ν engine .empty _ message versionMismatch).trans ?_)
      refine (moves_modifyOwner (Broker.work_abandon message.client)).trans
        (moves_startPump (rests.of_pumping ?_))
      refine (pumping_modifyOwner (Broker.abandon message.client) fun _ => rfl).trans ?_
      exact (pumping_reply _ _).trans (pumping_connected _)
    split at refuses
    · obtain rfl := Except.error.inj refuses
      exact hconnected
    split at refuses
    · obtain rfl := Except.error.inj refuses
      exact hconnected.trans (moves_replyFailed message _)
    · cases refuses

lemma checkReceived_ok (admits : checkReceived engine message bytes broker worker = .ok after) :
    after = worker.connected broker message.client := by
  unfold checkReceived at admits
  split at admits
  · cases admits
  dsimp only at admits
  split at admits
  · cases admits
  split at admits
  · cases admits
  split at admits
  · cases admits
  · exact (Except.ok.inj admits).symm

lemma moves_ownerReceive (rests : worker.Rests) :
    Moves (.arrived message, worker)
      (.empty, ownerReceive numbers engine message bytes worker) := by
  unfold ownerReceive
  split
  · exact Move.drop.moves
  next broker _ =>
  split
  · exact Move.drop.moves
  split
  · next hchecked => exact moves_refused rests hchecked
  · next admitted hchecked =>
    obtain rfl := checkReceived_ok hchecked
    refine (@moves_connected E ν (.arrived message) worker broker message.client).trans ?_
    cases hserve : serveNow numbers engine message.client message.request
        (reply engine message.client) (worker.connected broker message.client) with
    | some after => exact moves_serveNow hserve
    | none =>
      refine (Move.push bytes).moves.trans (moves_startPump (rests.of_pumping ?_))
      exact (pumping_modifyOwner (Broker.push message bytes) fun _ => rfl).trans (pumping_connected _)

end Admit

/-! ## What every move keeps -/

lemma Move.rests {a b : Hand ν × Coordinator E ν} (move : Move a b) (rests : a.2.Rests) :
    b.2.Rests := by
  cases move with
  | push bytes => exact rests.of_pumping (pumping_modifyOwner (Broker.push _ bytes) fun _ => rfl)
  | @tend _ worker owner shrinks =>
    intro message hmessage
    obtain ⟨broker, rfl, hpair⟩ := Option.map_eq_some_iff.mp hmessage
    obtain ⟨hbusy, hrunning⟩ := Prod.mk.inj hpair
    obtain ⟨earlier, hwork, -, hran, -, hbefore | hbusy' | hidle⟩ := shrinks broker.work rfl
    · obtain ⟨before, howner, rfl⟩ := Option.map_eq_some_iff.mp hwork
      refine rests message ?_
      rw [pumping, howner]
      exact congrArg some (Prod.ext (hbefore.symm.trans hbusy) (hran.symm.trans hrunning))
    · cases hbusy.symm.trans hbusy'
    · cases hidle.symm.trans hrunning
  | @take _ worker index queued next busy =>
    intro message hmessage
    obtain ⟨broker, howner, hbusy⟩ := (Option.any_eq_true _ _).mp busy
    rw [setRunning, modifyOwner, modifyOwner, howner] at hmessage
    obtain ⟨hidle, -⟩ := Prod.mk.inj (Option.some.inj hmessage)
    cases hbusy.symm.trans hidle
  | @handle _ worker broker message owns runs outcome =>
    intro other hother
    change (worker.setRunning none).pumping = _ at hother
    rw [setRunning, modifyOwner, owns] at hother
    obtain ⟨-, hnone⟩ := Prod.mk.inj (Option.some.inj hother)
    cases hnone
  | _ => exact rests

end Rules

end Coordinator
end Coordination
end TinyJoin
