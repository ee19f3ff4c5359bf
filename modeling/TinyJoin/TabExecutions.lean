import Mathlib.Algebra.BigOperators.Group.Finset.Piecewise
import Mathlib.Algebra.Order.BigOperators.Group.List
import Mathlib.Algebra.Order.BigOperators.Group.Finset
import Mathlib.Data.List.Perm.Basic
import TinyJoin.TabTurns

/-! No request is executed twice, whoever owns the database in its time. Each of a page's requests is
with its Worker, on one channel, or with one owner, and an act of a Worker makes no more of it. -/
namespace TinyJoin
namespace Coordination
variable {E ν : Type}

/-- The epoch under which a Worker is to become an owner. -/
def Election.epoch? : Election → Option String
  | .querying epoch => some epoch
  | .opening starting => some starting.epoch
  | _ => none

lemma Election.epoch?_leave (election : Election) : election.leave.epoch? = none := by
  cases election <;> rfl

/-- The epoch that has just been granted. -/
def Hand.epoch? : Hand ν → Option String
  | .granted epoch => some epoch
  | _ => none

/-! ## Where a request stands -/

section
variable (P : String → WorkerRequest → Bool)

/-- How many of a broker's requests `P` picks. -/
def Work.lot (work : Work) : Nat :=
  work.queue.countP (fun queued => P queued.message.client queued.message.request) +
    work.running.elim 0 fun message => if P message.client message.request then 1 else 0

def Hand.lot (client : String) : Hand ν → Nat
  | .posted request => if P client request then 1 else 0
  | .arrived message => if P message.client message.request then 1 else 0
  | _ => 0

lemma Hand.lot_empty (client : String) : (.empty : Hand ν).lot P client = 0 := rfl

namespace Coordinator

/-- Of the requests that `P` picks, how many this Worker serves as an owner, or has served. -/
def load (worker : Coordinator E ν) : Nat :=
  worker.work.elim 0 (Work.lot P) + worker.served.countP fun served => P served.client served.request

/-- How many it may yet send. -/
def unsent (worker : Coordinator E ν) : Nat :=
  worker.pending.entries.countP fun entry =>
    entry.2.epoch.isNone && P worker.client entry.2.request

/-- How many it has in its hand, serves, may yet send, or has sent or served. -/
def lot (hand : Hand ν) (worker : Coordinator E ν) : Nat :=
  hand.lot P worker.client + worker.load P + worker.unsent P +
    worker.routed.countP fun entry => P entry.2.client entry.2.request

end Coordinator
end

namespace Coordinator
variable {numbers : Changes.NumberText ν} {engine : WorkerEngine E ν} {hand : Hand ν}
  {worker after : Coordinator E ν} {P : String → WorkerRequest → Bool}

/-! ## What an owner has to serve -/

lemma load_le (work : after.work.elim 0 (Work.lot P) ≤ worker.work.elim 0 (Work.lot P))
    (served : after.served = worker.served) : after.load P ≤ worker.load P := by
  rw [load, load, served]
  exact Nat.add_le_add_right work _

lemma lot_shrinks {before after : Option Work} (shrinks : Shrinks before after) :
    after.elim 0 (Work.lot P) ≤ before.elim 0 (Work.lot P) := by
  cases hwork : after with
  | none => exact Nat.zero_le _
  | some work =>
    obtain ⟨earlier, rfl, -, hrunning, hqueue, -⟩ := shrinks work hwork
    change Work.lot P work ≤ Work.lot P earlier
    rw [Work.lot, Work.lot, hrunning]
    exact Nat.add_le_add_right hqueue.countP_le _

lemma load_push (message : RoutedRequest) (bytes : Nat) :
    (worker.modifyOwner (Broker.push message bytes)).load P ≤
      (if P message.client message.request then 1 else 0) + worker.load P := by
  rw [load, load, ← Nat.add_assoc]
  refine Nat.add_le_add_right ?_ _
  rw [modifyOwner, work, work]
  cases worker.owner with
  | none => exact Nat.zero_le _
  | some broker =>
    change List.countP _ (broker.queue ++ [⟨message, bytes⟩]) + _ ≤ _ + (List.countP _ broker.queue + _)
    rw [List.countP_append, List.countP_singleton, ← Nat.add_assoc]
    exact (congrArg (· + _) (Nat.add_comm _ _)).le

lemma load_noteServed (client : String) (request : WorkerRequest)
    (outcome : Except Thrown (Value ν)) : (worker.noteServed client request outcome).load P =
      worker.load P + if P client request then 1 else 0 := by
  change _ + List.countP _ (worker.served ++ [⟨client, request, outcome⟩]) = _
  rw [List.countP_append, List.countP_singleton, ← Nat.add_assoc]
  rfl

/-- The queue without the request of an index, which is counted by itself. -/
lemma lot_take {index : Nat} {queued : Queued} {broker : Broker E ν}
    (next : worker.nextQueued = some (index, queued)) (owns : worker.owner = some broker) :
    (broker.take index queued).work.lot P +
      (if P queued.message.client queued.message.request then 1 else 0) = broker.work.lot P := by
  obtain ⟨same, howner, hnext⟩ := Option.bind_eq_some_iff.mp next
  obtain rfl := Option.some.inj (owns.symm.trans howner)
  obtain ⟨found, -, hnext⟩ := Option.bind_eq_some_iff.mp hnext
  obtain ⟨other, hqueued, hsame⟩ := Option.bind_eq_some_iff.mp hnext
  obtain ⟨rfl, rfl⟩ := Prod.mk.inj (Option.some.inj hsame)
  obtain ⟨hlt, rfl⟩ := List.getElem?_eq_some_iff.mp hqueued
  have hperm := (List.getElem_cons_eraseIdx_perm hlt).countP_eq
    fun queued => P queued.message.client queued.message.request
  rw [List.countP_cons] at hperm
  rw [Work.lot, Work.lot]
  change List.countP _ (broker.queue.eraseIdx found) + broker.running.elim 0 _ + _ =
    List.countP _ broker.queue + broker.running.elim 0 _
  omega

lemma load_handle {broker : Broker E ν} {message : RoutedRequest} (owns : worker.owner = some broker)
    (runs : broker.running = some message) (outcome : Except Thrown (Value ν)) :
    ((worker.setRunning none).noteServed message.client message.request outcome).load P =
      worker.load P := by
  rw [load_noteServed, load, load, setRunning, modifyOwner, work, work, owns]
  change List.countP _ broker.queue + 0 + worker.served.countP _ + _ =
    List.countP _ broker.queue + broker.running.elim 0 _ + _
  rw [runs]
  change _ + _ + _ + _ = _ + (if P message.client message.request then 1 else 0) + _
  omega

/-! ## What an act does to a Worker's requests -/

lemma lot_removePending (id : Nat) : lot P hand (worker.removePending id) ≤ lot P hand worker := by
  refine Nat.add_le_add_right (Nat.add_le_add_left (List.Sublist.countP_le ?_) _) _
  exact List.filter_sublist

lemma lot_serve {other : Hand ν} (h : other.lot P worker.client + after.load P ≤
      hand.lot P worker.client + worker.load P) (client : after.client = worker.client)
    (routed : after.routed = worker.routed) (pending : after.pending = worker.pending) :
    lot P other after ≤ lot P hand worker := by
  rw [lot, lot, unsent, unsent, client, routed, pending]
  omega

lemma lot_load (h : after.load P ≤ worker.load P) (client : after.client = worker.client)
    (routed : after.routed = worker.routed) (pending : after.pending = worker.pending) :
    lot P hand after ≤ lot P hand worker :=
  lot_serve (Nat.add_le_add_left h _) client routed pending

lemma Move.lot {a b : Hand ν × Coordinator E ν} (move : Move a b) :
    lot P b.1 b.2 ≤ lot P a.1 a.2 := by
  cases move with
  | @remove hand worker id => exact @lot_removePending E ν hand worker P id
  | @answer hand worker entry message due waits => exact @lot_removePending E ν hand worker P message.id
  | @keep hand worker entry starting message due waits opening =>
    exact @lot_removePending E ν hand worker P message.id
  | tend shrinks => exact lot_load (load_le (lot_shrinks shrinks) rfl) rfl rfl rfl
  | drop => exact lot_serve (Nat.add_le_add_right (Nat.zero_le _) _) rfl rfl rfl
  | @push message worker bytes =>
    exact lot_serve ((Nat.zero_add _).le.trans (load_push message bytes)) rfl rfl rfl
  | @serveNow message worker outcome =>
    refine lot_serve ?_ rfl rfl rfl
    rw [load_noteServed, Nat.add_comm (worker.load P), ← Nat.add_assoc]
    exact Nat.add_le_add_right (Nat.zero_add _).le _
  | @take hand worker index queued next busy =>
    refine lot_load (load_le ?_ rfl) rfl rfl rfl
    cases howner : worker.owner with
    | none =>
      rw [setRunning, modifyOwner, modifyOwner, work, howner]
      exact Nat.zero_le _
    | some broker =>
      rw [setRunning, modifyOwner, modifyOwner, work, work, howner]
      change _ ≤ broker.work.lot P
      rw [← lot_take next howner]
      exact Nat.add_le_add_right (Nat.le_add_right _ _) _
  | @handle hand worker broker message owns runs outcome =>
    exact lot_load (load_handle owns runs outcome).le rfl rfl rfl
  | _ => exact le_rfl

lemma lot_marked {id : Nat} {entry : Pending} (waits : worker.Unsent id entry) (epoch : String) :
    (worker.marked id entry epoch).unsent P + (if P worker.client entry.request then 1 else 0) =
      worker.unsent P := by
  have hmem := (worker.pending.mem_entries_iff id entry).mpr waits.1
  have hcount := InsertionMap.countP_put_of_mem
    (fun entry : Nat × Pending => entry.2.epoch.isNone && P worker.client entry.2.request)
    { entry with epoch := some epoch } worker.pending.nodup hmem
  dsimp only at hcount
  rw [waits.2, Option.isNone_none, Bool.true_and] at hcount
  exact hcount

/-- An act makes no more of the requests there are. -/
lemma Act.lot {a b : Hand ν × Coordinator E ν} (act : Act a b) :
    lot P b.1 b.2 ≤ lot P a.1 a.2 := by
  cases act with
  | move move => exact move.lot
  | ignore => exact lot_serve (Nat.add_le_add_right (Nat.zero_le _) _) rfl rfl rfl
  | answerNow asks => exact lot_serve (Nat.add_le_add_right (Nat.zero_le _) _) rfl rfl rfl
  | keepNow asks opening => exact lot_serve (Nat.add_le_add_right (Nat.zero_le _) _) rfl rfl rfl
  | @enqueue request worker bytes =>
    have hunsent : (worker.enqueued request bytes).unsent P ≤ worker.unsent P +
        if P worker.client request then 1 else 0 :=
      InsertionMap.countP_put
        (fun entry : Nat × Pending => entry.2.epoch.isNone && P worker.client entry.2.request)
        request.id ⟨request, bytes, none⟩ worker.pending.entries
    change 0 + worker.load P + (worker.enqueued request bytes).unsent P + worker.routed.countP _ ≤
      (if P worker.client request then 1 else 0) + worker.load P + worker.unsent P +
        worker.routed.countP _
    omega
  | @serve request worker outcome =>
    refine lot_serve ?_ rfl rfl rfl
    rw [load_noteServed, Nat.add_comm (worker.load P), ← Nat.add_assoc]
    exact Nat.add_le_add_right (Nat.zero_add _).le _
  | @mark worker id entry epoch waits =>
    have hmarked := @lot_marked E ν worker P id entry waits epoch
    change (if P worker.client entry.request then 1 else 0) + worker.load P +
      (worker.marked id entry epoch).unsent P + worker.routed.countP _ ≤
        0 + worker.load P + worker.unsent P + worker.routed.countP _
    omega
  | @route worker id entry channel epoch waits =>
    have hmarked := @lot_marked E ν worker P id entry waits epoch
    change 0 + worker.load P + (worker.marked id entry epoch).unsent P +
      List.countP _ (worker.routed ++ [(channel, worker.routedRequest epoch entry.request)]) ≤
        0 + worker.load P + worker.unsent P + worker.routed.countP _
    rw [List.countP_append, List.countP_singleton]
    change _ + (_ + if P worker.client entry.request then 1 else 0) ≤ _
    omega
  | @lose worker id entry epoch waits =>
    have hmarked := @lot_marked E ν worker P id entry waits epoch
    change 0 + worker.load P + (worker.marked id entry epoch).unsent P +
      worker.routed.countP _ ≤ 0 + worker.load P + worker.unsent P + worker.routed.countP _
    omega
  | own host opening => exact lot_load (Nat.add_le_add_right (Nat.zero_le _) _) rfl rfl rfl
  | _ => exact le_rfl

/-! ## What only grows -/

/-- The epoch that a Worker's hand holds, or under which it is to be an owner, or is one. -/
def Names (hand : Hand ν) (worker : Coordinator E ν) (epoch : String) : Prop :=
  hand.epoch? = some epoch ∨ worker.election.epoch? = some epoch ∨
    worker.work.map Work.epoch = some epoch

/-- What has been sent and served stays so, under the Worker's name, and no epoch is new. -/
structure Onward (before after : Hand ν × Coordinator E ν) : Prop where
  client : after.2.client = before.2.client
  routed : ∃ more, after.2.routed = before.2.routed ++ more ∧
    ∀ entry ∈ more, entry.2.client = before.2.client
  served : before.2.served <+: after.2.served
  names : ∀ epoch, Names after.1 after.2 epoch → Names before.1 before.2 epoch

lemma Onward.trans {a b c : Hand ν × Coordinator E ν} (h : Onward a b) (h' : Onward b c) :
    Onward a c := by
  obtain ⟨more, hmore, hclients⟩ := h.routed
  obtain ⟨later, hlater, hclients'⟩ := h'.routed
  refine ⟨h'.client.trans h.client, ⟨more ++ later, ?_, fun entry hentry => ?_⟩,
    h.served.trans h'.served, fun epoch hepoch => h.names epoch (h'.names epoch hepoch)⟩
  · rw [hlater, hmore, List.append_assoc]
  · rcases List.mem_append.mp hentry with hentry | hentry
    · exact hclients entry hentry
    · exact (hclients' entry hentry).trans h.client

section
variable {other : Hand ν}

lemma onward_of (client : after.client = worker.client) (routed : after.routed = worker.routed)
    (served : worker.served <+: after.served)
    (names : ∀ epoch, Names other after epoch → Names hand worker epoch) :
    Onward (hand, worker) (other, after) :=
  ⟨client, ⟨[], by rw [List.append_nil]; exact routed, fun _ h => by cases h⟩, served, names⟩

/-- A hand that holds no epoch. -/
lemma onward_drop (free : other.epoch? = none) : Onward (hand, worker) (other, worker) :=
  onward_of rfl rfl List.prefix_rfl fun _ h =>
    h.imp_left fun h => (Option.some_ne_none _ (h.symm.trans free)).elim

/-- What is done to an owner keeps its epoch, or ends it. -/
lemma onward_owner {owner : Option (Broker E ν)}
    (h : ∀ work, owner.map Broker.work = some work →
      ∃ earlier, worker.work = some earlier ∧ work.epoch = earlier.epoch) :
    Onward (hand, worker) (hand, { worker with owner }) := by
  refine onward_of rfl rfl List.prefix_rfl fun epoch hnames => hnames.imp_right fun hnames =>
    hnames.imp_right fun hepoch => ?_
  obtain ⟨work, hwork, rfl⟩ := Option.map_eq_some_iff.mp hepoch
  obtain ⟨earlier, hearlier, hsame⟩ := h work hwork
  rw [hearlier, hsame]
  rfl

lemma onward_modifyOwner (f : Broker E ν → Broker E ν)
    (h : ∀ broker, (f broker).epoch = broker.epoch) :
    Onward (hand, worker) (hand, worker.modifyOwner f) := by
  refine onward_owner fun work hwork => ?_
  obtain ⟨after, hafter, rfl⟩ := Option.map_eq_some_iff.mp hwork
  obtain ⟨broker, howner, rfl⟩ := Option.map_eq_some_iff.mp hafter
  exact ⟨broker.work, congrArg (Option.map Broker.work) howner, h broker⟩

/-- An election that names no epoch but the one there was, or the hand's. -/
lemma onward_election {election : Election} (h : ∀ epoch, election.epoch? = some epoch →
      hand.epoch? = some epoch ∨ worker.election.epoch? = some epoch)
    (free : other.epoch? = none) : Onward (hand, worker) (other, { worker with election }) := by
  refine onward_of rfl rfl List.prefix_rfl fun epoch hnames => ?_
  rcases hnames with hhand | helection | howner
  · cases free.symm.trans hhand
  · exact (h epoch helection).imp_right .inl
  · exact .inr (.inr howner)

lemma onward_leave : Onward (hand, worker) (hand, worker.leave) := by
  refine onward_of rfl rfl List.prefix_rfl fun epoch hnames => hnames.imp_right fun hnames =>
    hnames.imp_left fun helection => ?_
  cases (Election.epoch?_leave _).symm.trans helection

lemma onward_served (client : String) (request : WorkerRequest) (outcome : Except Thrown (Value ν)) :
    Onward (hand, worker) (hand, worker.noteServed client request outcome) :=
  onward_of rfl rfl (List.prefix_append _ _) fun _ h => h

lemma Move.onward {a b : Hand ν × Coordinator E ν} (move : Move a b) : Onward a b := by
  cases move with
  | leave => exact onward_leave
  | tend shrinks =>
    refine onward_owner fun work hwork => ?_
    obtain ⟨earlier, hearlier, hepoch, -⟩ := shrinks work hwork
    exact ⟨earlier, hearlier, hepoch⟩
  | drop => exact onward_drop rfl
  | push bytes => exact (onward_drop rfl).trans (onward_modifyOwner (Broker.push _ bytes) fun _ => rfl)
  | serveNow outcome => exact (onward_drop rfl).trans (onward_served _ _ outcome)
  | @take hand worker index queued next busy =>
    exact (onward_modifyOwner (Broker.take index queued) fun _ => rfl).trans (onward_modifyOwner
      (fun broker => { broker with running := some queued.message }) fun _ => rfl)
  | handle owns runs outcome =>
    exact (onward_modifyOwner (fun broker => { broker with running := none }) fun _ => rfl).trans
      (onward_served _ _ outcome)
  | _ => exact onward_of rfl rfl List.prefix_rfl fun _ h => h

lemma Act.onward {a b : Hand ν × Coordinator E ν} (act : Act a b) : Onward a b := by
  cases act with
  | move move => exact move.onward
  | ignore => exact onward_drop rfl
  | @answerNow hand worker message asks =>
    exact (onward_drop rfl).trans (onward_of rfl rfl List.prefix_rfl fun _ h => h)
  | keepNow asks opening =>
    exact (onward_drop rfl).trans (onward_of rfl rfl List.prefix_rfl fun _ h => h)
  | enqueue bytes => exact (onward_drop rfl).trans (onward_of rfl rfl List.prefix_rfl fun _ h => h)
  | serve outcome => exact (onward_drop rfl).trans (onward_served _ _ outcome)
  | @route worker id entry channel epoch waits =>
    refine ⟨rfl, ⟨[_], rfl, fun sent hsent => ?_⟩, List.prefix_rfl, fun _ h => h⟩
    rw [List.mem_singleton.mp hsent]
    rfl
  | await idle => exact onward_election (fun _ h => by cases h) rfl
  | decline epoch waits => exact onward_election (fun _ h => by cases h) rfl
  | elect epoch waits => exact onward_election (fun _ h => .inl h) rfl
  | «open» queried => exact onward_election (fun _ h => .inr (by rw [queried]; exact h)) rfl
  | lead opening => exact onward_election (fun _ h => by cases h) rfl
  | release leaves => exact onward_election (fun _ h => by cases h) rfl
  | @own worker starting host opening =>
    refine onward_of rfl rfl List.prefix_rfl fun epoch hnames => hnames.imp_right fun hnames => .inl ?_
    rcases hnames with h | h
    · exact h
    · rw [opening]
      exact h
  | @finish worker starting message last opening going ends =>
    exact onward_leave.trans (onward_of rfl rfl List.prefix_rfl fun _ h => h)
  | _ => exact onward_of rfl rfl List.prefix_rfl fun _ h => h

end

/-- A whole task makes no more of the requests there are. -/
lemma Acts.lot {a b : Hand ν × Coordinator E ν} (acts : Acts a b) :
    lot P b.1 b.2 ≤ lot P a.1 a.2 := by
  induction acts with
  | refl => exact le_rfl
  | tail _ act ih => exact act.lot.trans ih

lemma Acts.onward {a b : Hand ν × Coordinator E ν} (acts : Acts a b) :
    Onward a b := by
  induction acts with
  | refl => exact onward_of rfl rfl List.prefix_rfl fun _ h => h
  | tail _ act ih => exact ih.trans act.onward

end Coordinator

namespace System

/-! ## Whose requests a tab may have -/

/-- Of one client, the requests that `picks` picks. -/
def only (client : String) (picks : WorkerRequest → Bool) (other : String) (request : WorkerRequest) :
    Bool :=
  other == client && picks request

/-- What has been read of a client's channel to the owner of an epoch. -/
def received (system : System E ν) (epoch client : String) : List RoutedRequest :=
  ((system.tabs client).elim [] (routedTo epoch)).take (system.routedRead epoch client)

/-- How many of a client's requests were read under an epoch. -/
def readUnder (system : System E ν) (client : String) (picks : WorkerRequest → Bool) (epoch : String) :
    Nat :=
  (system.received epoch client).countP fun message => only client picks message.client message.request

/-- How many of a client's requests have come to a tab under the epochs granted to it. -/
def came (system : System E ν) (tab client : String) (picks : WorkerRequest → Bool) : Nat :=
  (system.epochs.map fun granted =>
    if granted.2 = tab then system.readUnder client picks granted.1 else 0).sum

/-- How many of a client's requests a tab may have: what its own page posted, and what has come to it. -/
def room (system : System E ν) (tab client : String) (picks : WorkerRequest → Bool) : Nat :=
  (if tab = client then (system.posted client).countP picks else 0) + system.came tab client picks

/-- What the tabs keep between two tasks, and within one, where a tab has something in its hand. -/
structure Orderly (hands : String → Hand ν) (system : System E ν) : Prop where
  distinct : (system.epochs.map Prod.fst).Nodup
  client : ∀ tab worker, system.tabs tab = some worker → worker.client = tab
  routed : ∀ tab worker, system.tabs tab = some worker → ∀ entry ∈ worker.routed, entry.2.client = tab
  names : ∀ tab worker, system.tabs tab = some worker → ∀ epoch,
    worker.Names (hands tab) epoch → (epoch, tab) ∈ system.epochs
  lot : ∀ tab worker, system.tabs tab = some worker → ∀ client picks,
    worker.lot (only client picks) (hands tab) ≤ system.room tab client picks

/-- What is in the hand of the tab whose turn it is. -/
def holding (tab : String) (hand : Hand ν) : String → Hand ν :=
  fun other => if other = tab then hand else .empty

section
variable {numbers : Changes.NumberText ν} {engine : WorkerEngine E ν} {sizes : Sizes}
  {name tab : String} {hand : Hand ν} {system ready after : System E ν} {worker : Coordinator E ν}

lemma room_mono (posted : ∀ client, (system.posted client).Sublist (ready.posted client))
    (epochs : system.epochs.Sublist ready.epochs)
    (received : ∀ epoch client, (system.received epoch client).Sublist (ready.received epoch client))
    (tab client : String) (picks : WorkerRequest → Bool) :
    system.room tab client picks ≤ ready.room tab client picks := by
  refine Nat.add_le_add ?_ ?_
  · split
    · exact (posted client).countP_le
    · exact le_rfl
  · refine (List.sum_le_sum fun granted _ => ?_).trans
      ((epochs.map _).sum_le_sum fun _ _ => Nat.zero_le _)
    split
    · exact (received granted.1 client).countP_le
    · exact le_rfl

/-- What comes into a tab's hand has been granted to it, was posted by its page or has been read. -/
lemma Orderly.enter (orderly : system.Orderly fun _ => .empty) (tabs : ready.tabs = system.tabs)
    (distinct : (ready.epochs.map Prod.fst).Nodup) (epochs : system.epochs.Sublist ready.epochs)
    (named : ∀ epoch, hand.epoch? = some epoch → (epoch, tab) ∈ ready.epochs)
    (room : ∀ other client picks, system.room other client picks ≤ ready.room other client picks)
    (gain : ∀ client picks, hand.lot (only client picks) tab + system.room tab client picks ≤
      ready.room tab client picks) : ready.Orderly (holding tab hand) where
  distinct := distinct
  client := fun other worker h => orderly.client other worker (tabs ▸ h)
  routed := fun other worker h => orderly.routed other worker (tabs ▸ h)
  names := fun other worker h epoch hnames => by
    rw [tabs] at h
    have hothers := orderly.names other worker h epoch
    rcases hnames with hgranted | hrest
    · unfold holding at hgranted
      split at hgranted
      · next same =>
        rw [same]
        exact named epoch hgranted
      · cases hgranted
    · exact epochs.subset (hothers (.inr hrest))
  lot := fun other worker h client picks => by
    rw [tabs] at h
    have hlot := orderly.lot other worker h client picks
    unfold Coordinator.lot at hlot ⊢
    rw [Hand.lot_empty] at hlot
    rw [orderly.client other worker h, holding]
    split
    · next same =>
      subst same
      have hgain := gain client picks
      omega
    · have hroom := room other client picks
      rw [Hand.lot_empty]
      omega

lemma received_setTab {after : Coordinator E ν} {more : List (String × RoutedRequest)}
    (lives : ready.tabs tab = some worker) (sends : after.routed = worker.routed ++ more)
    (epoch client : String) :
    (ready.received epoch client).Sublist ((ready.setTab tab after).received epoch client) := by
  change ((ready.tabs client).elim [] (routedTo epoch)).take _ |>.Sublist
    (((if client = tab then some after else ready.tabs client).elim [] (routedTo epoch)).take _)
  split
  · next same =>
    rw [same, lives]
    change ((routedTo epoch worker).take _).Sublist ((routedTo epoch after).take _)
    rw [routedTo, routedTo, sends, List.filter_append, List.map_append, List.take_append]
    exact List.sublist_append_left _ _
  · exact List.Sublist.refl _

/-- A turn of a tab, once it has dealt with what was in its hand. -/
lemma Orderly.leave {holder : Option String} {executed : List (String × Served ν)}
    {after : Coordinator E ν} (orderly : ready.Orderly (holding tab hand))
    (lives : ready.tabs tab = some worker) (lot : ∀ P, after.lot P .empty ≤ worker.lot P hand)
    (onward : Coordinator.Onward (hand, worker) (.empty, after)) :
    { ready.setTab tab after with holder, executed }.Orderly fun _ => .empty := by
  obtain ⟨more, hmore, hclients⟩ := onward.routed
  have hhand : holding tab hand tab = hand := if_pos rfl
  have hroom (other client : String) (picks : WorkerRequest → Bool) : ready.room other client picks ≤
      { ready.setTab tab after with holder, executed }.room other client picks :=
    @room_mono E ν ready { ready.setTab tab after with holder, executed }
      (fun _ => List.Sublist.refl _) (List.Sublist.refl _) (received_setTab lives hmore) other client
      picks
  have hclient := orderly.client tab worker lives
  have hsplit (other : String) (found : Coordinator E ν)
      (h : (ready.setTab tab after).tabs other = some found) :
      (other = tab ∧ found = after) ∨ (other ≠ tab ∧ ready.tabs other = some found) := by
    change (if other = tab then some after else ready.tabs other) = some found at h
    split at h
    · next same => exact .inl ⟨same, (Option.some.inj h).symm⟩
    · next different => exact .inr ⟨different, h⟩
  refine ⟨orderly.distinct, fun other found h => ?_, fun other found h entry hentry => ?_,
    fun other found h epoch hnames => ?_, fun other found h client picks => ?_⟩
  · obtain ⟨rfl, rfl⟩ | ⟨-, hfound⟩ := hsplit other found h
    · exact onward.client.trans hclient
    · exact orderly.client other found hfound
  · obtain ⟨rfl, rfl⟩ | ⟨-, hfound⟩ := hsplit other found h
    · change found.routed = worker.routed ++ more at hmore
      rw [hmore] at hentry
      rcases List.mem_append.mp hentry with hentry | hentry
      · exact orderly.routed other worker lives entry hentry
      · exact (hclients entry hentry).trans hclient
    · exact orderly.routed other found hfound entry hentry
  · obtain ⟨rfl, rfl⟩ | ⟨hne, hfound⟩ := hsplit other found h
    · refine orderly.names other worker lives epoch ?_
      rw [hhand]
      exact onward.names epoch hnames
    · refine orderly.names other found hfound epoch ?_
      rw [holding, if_neg hne]
      exact hnames
  · obtain ⟨rfl, rfl⟩ | ⟨hne, hfound⟩ := hsplit other found h
    · have hlot := orderly.lot other worker lives client picks
      rw [hhand] at hlot
      exact (lot _).trans (hlot.trans (hroom other client picks))
    · have hlot := orderly.lot other found hfound client picks
      rw [holding, if_neg hne] at hlot
      exact hlot.trans (hroom other client picks)

/-! ## What comes into a hand -/

lemma Orderly.addTab (orderly : system.Orderly fun _ => .empty) (fresh : system.tabs tab = none)
    (compatibility : String) :
    (system.addTab tab (Coordinator.start tab compatibility name)).Orderly fun _ => .empty := by
  have hroom := @room_mono E ν system (system.addTab tab (Coordinator.start tab compatibility name))
    (fun _ => List.Sublist.refl _) (List.Sublist.refl _) fun epoch client => by
      change ((system.tabs client).elim [] (routedTo epoch)).take _ |>.Sublist
        (((if client = tab then some _ else system.tabs client).elim [] (routedTo epoch)).take _)
      split
      · next same =>
        rw [same, fresh, Option.elim_none, List.take_nil]
        exact List.nil_sublist _
      · exact List.Sublist.refl _
  have hsplit (other : String) (found : Coordinator E ν)
      (h : (system.addTab tab (Coordinator.start tab compatibility name)).tabs other = some found) :
      (other = tab ∧ found = Coordinator.start tab compatibility name) ∨
        system.tabs other = some found := by
    change (if other = tab then some (Coordinator.start tab compatibility name)
      else system.tabs other) = some found at h
    split at h
    · next same => exact .inl ⟨same, (Option.some.inj h).symm⟩
    · exact .inr h
  refine ⟨orderly.distinct, fun other found h => ?_, fun other found h entry hentry => ?_,
    fun other found h epoch hnames => ?_, fun other found h client picks => ?_⟩
  · obtain ⟨rfl, rfl⟩ | hfound := hsplit other found h
    · rfl
    · exact orderly.client other found hfound
  · obtain ⟨rfl, rfl⟩ | hfound := hsplit other found h
    · cases hentry
    · exact orderly.routed other found hfound entry hentry
  · obtain ⟨rfl, rfl⟩ | hfound := hsplit other found h
    · rcases hnames with h | h | h <;> cases h
    · exact orderly.names other found hfound epoch hnames
  · obtain ⟨rfl, rfl⟩ | hfound := hsplit other found h
    · exact Nat.zero_le _
    · exact (orderly.lot other found hfound client picks).trans (hroom other client picks)

lemma Orderly.post (orderly : system.Orderly fun _ => .empty)
    (message : Coordinator.PageMessage) :
    (system.notePosted tab message).Orderly (holding tab message.given) := by
  have hposted (client : String) : (system.notePosted tab message).posted client =
      system.posted client ++ if client = tab then message.request?.toList else [] := by
    change (if client = tab then system.posted tab ++ message.request?.toList
      else system.posted client) = _
    split
    · next same => rw [same]
    · rw [List.append_nil]
  have hsame (other client : String) (picks : WorkerRequest → Bool) :
      (system.notePosted tab message).came other client picks = system.came other client picks := rfl
  refine orderly.enter rfl orderly.distinct (List.Sublist.refl _) (fun epoch h => ?_)
    (fun other client picks => ?_) fun client picks => ?_
  · cases message <;> cases h
  · refine @room_mono E ν system (system.notePosted tab message) (fun client => ?_)
      (List.Sublist.refl _) (fun _ _ => List.Sublist.refl _) other client picks
    rw [hposted]
    exact List.sublist_append_left _ _
  · have hpicks (request : WorkerRequest) :
        (if only client picks tab request then 1 else 0) =
          if tab = client then [request].countP picks else 0 := by
      rw [only, List.countP_singleton]
      by_cases h : tab = client
      · rw [h, beq_self_eq_true, Bool.true_and, if_pos rfl]
      · rw [beq_false_of_ne h, Bool.false_and, if_neg h]
        rfl
    have hgiven : (message.given : Hand ν).lot (only client picks) tab =
        if tab = client then message.request?.toList.countP picks else 0 := by
      cases message with
      | statement sent => exact hpicks _
      | request sent => exact hpicks _
      | resync => exact (ite_self 0).symm
      | invalid id => exact (ite_self 0).symm
    rw [hgiven, room, room, hposted, hsame]
    by_cases h : tab = client
    · rw [if_pos h, if_pos h, if_pos h, if_pos h.symm, List.countP_append]
      omega
    · rw [if_neg h, if_neg h, if_neg h]
      omega

/-- A sum whose terms do not fall, and one of which gains so much. -/
lemma sum_gain {α : Type} {f g : α → Nat} {terms : List α} {term : α} {gain : Nat}
    (h : term ∈ terms) (le : ∀ other ∈ terms, f other ≤ g other) (gains : gain + f term ≤ g term) :
    gain + (terms.map f).sum ≤ (terms.map g).sum := by
  obtain ⟨before, behind, rfl⟩ := List.append_of_mem h
  have hbefore := List.sum_le_sum fun other hother => le other (List.mem_append_left _ hother)
  have hbehind := List.sum_le_sum (l := behind) fun other hother =>
    le other (List.mem_append_right _ (List.mem_cons_of_mem _ hother))
  rw [List.map_append, List.map_append, List.sum_append, List.sum_append, List.map_cons, List.map_cons,
    List.sum_cons, List.sum_cons]
  omega

lemma Orderly.arrive {client : String} {broker : Broker E ν} {posting : Coordinator E ν}
    {message : RoutedRequest} (orderly : system.Orderly fun _ => .empty)
    (lives : system.tabs tab = some worker) (owns : worker.owner = some broker)
    (posts : system.tabs client = some posting)
    (next : (routedTo broker.epoch posting)[system.routedRead broker.epoch client]? = some message) :
    { system with routedRead := advance system.routedRead broker.epoch client }.Orderly
      (holding tab (.arrived message)) := by
  have hgranted : (broker.epoch, tab) ∈ system.epochs := by
    refine orderly.names tab worker lives broker.epoch (.inr (.inr ?_))
    rw [Coordinator.work, owns]
    rfl
  have hclient : message.client = client := by
    obtain ⟨entry, hentry, rfl⟩ := List.mem_map.mp (List.mem_of_getElem? next)
    exact orderly.routed client posting posts entry (List.mem_filter.mp hentry).1
  generalize hready : { system with routedRead := advance system.routedRead broker.epoch client } = ready
  have hreceived (epoch other : String) : ready.received epoch other = system.received epoch other ++
      if epoch = broker.epoch ∧ other = client then [message] else [] := by
    rw [← hready]
    change ((system.tabs other).elim [] (routedTo epoch)).take (if epoch = broker.epoch ∧ other = client
      then system.routedRead broker.epoch client + 1 else system.routedRead epoch other) = _
    split
    · next same =>
      rw [received, same.1, same.2, posts, Option.elim_some, List.take_add_one, next]
      rfl
    · rw [List.append_nil]
      rfl
  have hroom : ∀ other client picks, system.room other client picks ≤ ready.room other client picks := by
    refine room_mono (fun _ => ?_) ?_ fun epoch other => ?_
    · rw [← hready]
    · rw [← hready]
    · rw [hreceived]
      exact List.sublist_append_left _ _
  refine orderly.enter (by rw [← hready]) (by rw [← hready]; exact orderly.distinct) (by rw [← hready])
    (fun _ h => by cases h) hroom fun other picks => ?_
  change (if only other picks message.client message.request then 1 else 0) + _ ≤ _
  by_cases hpicked : only other picks message.client message.request = true
  · have hother : other = client := by
      rw [only, Bool.and_eq_true, beq_iff_eq] at hpicked
      exact hpicked.1.symm.trans hclient
    have hposted : ready.posted = system.posted := by rw [← hready]
    have hepochs : ready.epochs = system.epochs := by rw [← hready]
    rw [if_pos hpicked, room, room, hposted, ← Nat.add_assoc, Nat.add_comm 1, Nat.add_assoc, came, came,
      hepochs]
    refine Nat.add_le_add_left (sum_gain hgranted (fun granted _ => ?_) ?_) _
    · split
      · rw [readUnder, readUnder, hreceived, List.countP_append]
        exact Nat.le_add_right _ _
      · exact le_rfl
    · rw [if_pos rfl, if_pos rfl, readUnder, readUnder, hreceived, List.countP_append,
        if_pos ⟨rfl, hother⟩, List.countP_singleton, if_pos hpicked, Nat.add_comm]
  · rw [if_neg hpicked, Nat.zero_add]
    exact hroom tab other picks

/-- What comes into a hand but is no request. -/
lemma Orderly.wake (orderly : system.Orderly fun _ => .empty) (tabs : ready.tabs = system.tabs)
    (posted : ready.posted = system.posted) (read : ready.routedRead = system.routedRead)
    (distinct : (ready.epochs.map Prod.fst).Nodup) (epochs : system.epochs.Sublist ready.epochs)
    (named : ∀ epoch, hand.epoch? = some epoch → (epoch, tab) ∈ ready.epochs)
    (free : ∀ P, hand.lot P tab = 0) : ready.Orderly (holding tab hand) := by
  have hroom := @room_mono E ν system ready (fun _ => by rw [posted]) epochs fun epoch client => by
    rw [received, received, tabs, read]
  refine orderly.enter tabs distinct epochs named hroom fun client picks => ?_
  rw [free, Nat.zero_add]
  exact hroom tab client picks

lemma Enters.orderly (enters : Enters name system tab hand ready)
    (orderly : system.Orderly fun _ => .empty) : ready.Orderly (holding tab hand) := by
  cases enters with
  | start fresh positive => exact (orderly.addTab fresh _).post (.request _)
  | post fresh => exact orderly.post _
  | arrive lives owns posts next => exact orderly.arrive (tabs_of_live lives) owns posts next
  | receive read posts sent =>
    exact orderly.wake rfl rfl rfl orderly.distinct (List.Sublist.refl _) (fun _ h => by cases h)
      fun _ => rfl
  | @grant epoch fresh =>
    refine orderly.wake rfl rfl rfl ?_ (List.sublist_append_left _ _) (fun _ h => ?_) fun _ => rfl
    · change ((system.epochs ++ [(epoch, tab)]).map Prod.fst).Nodup
      rw [List.map_append]
      exact orderly.distinct.append (List.nodup_singleton epoch) (List.disjoint_singleton.mpr fresh)
    · obtain rfl := Option.some.inj h
      exact List.mem_append_right _ (List.mem_singleton.mpr rfl)
  | wake groupRead =>
    exact orderly.wake rfl rfl rfl orderly.distinct (List.Sublist.refl _) (fun _ h => by cases h)
      fun _ => rfl

lemma Turn.orderly {after : System E ν} (turn : Turn name system after)
    (orderly : system.Orderly fun _ => .empty) : after.Orderly fun _ => .empty := by
  cases turn with
  | task enters lives acts =>
    exact (enters.orderly orderly).leave lives (fun _ => acts.lot) acts.onward

/-! ## No request is executed twice -/

/-- What a page has used of ids, and posted under them. -/
structure Numbered (system : System E ν) : Prop where
  unopened : ∀ tab, system.tabs tab = none → system.usedIds tab = []
  nodup : ∀ tab, (system.usedIds tab).Nodup
  posted : ∀ tab, ((system.posted tab).map WorkerRequest.id).Sublist (system.usedIds tab)

lemma Numbered.notePosted (numbered : system.Numbered) {message : Coordinator.PageMessage}
    (fresh : system.freshId tab message = true) (opens : system.tabs tab ≠ none) :
    (system.notePosted tab message).Numbered := by
  refine ⟨fun other h => ?_, fun other => ?_, fun other => ?_⟩
  · have hne : other ≠ tab := by
      rintro rfl
      exact opens h
    change (if other = tab then _ else system.usedIds other) = _
    rw [if_neg hne]
    exact numbered.unopened other h
  · change (if other = tab then system.usedIds tab ++ message.id?.toList
      else system.usedIds other).Nodup
    split
    · refine (numbered.nodup tab).append ?_ fun id hused hid => ?_
      · cases message.id? with
        | none => exact List.nodup_nil
        | some id => exact List.nodup_singleton id
      · have hfresh := (Option.all_eq_true _ _).mp fresh id (Option.mem_toList.mp hid)
        rw [Bool.and_eq_true, decide_eq_true_eq, decide_eq_true_eq] at hfresh
        exact hfresh.2 hused
    · exact numbered.nodup other
  · change ((if other = tab then system.posted tab ++ message.request?.toList
      else system.posted other).map WorkerRequest.id).Sublist (if other = tab then
      system.usedIds tab ++ message.id?.toList else system.usedIds other)
    split
    · rw [List.map_append]
      refine (numbered.posted tab).append ?_
      cases message with
      | statement sent => exact List.Sublist.refl _
      | request sent => exact List.Sublist.refl _
      | resync => exact List.Sublist.refl _
      | invalid id => exact List.nil_sublist _
    · exact numbered.posted other

lemma Numbered.of_tabs (numbered : system.Numbered)
    (tabs : ∀ other, ready.tabs other = none → system.tabs other = none)
    (used : ready.usedIds = system.usedIds) (posted : ready.posted = system.posted) :
    ready.Numbered := by
  refine ⟨fun other h => ?_, fun other => ?_, fun other => ?_⟩
  · rw [used]
    exact numbered.unopened other (tabs other h)
  · rw [used]
    exact numbered.nodup other
  · rw [used, posted]
    exact numbered.posted other

lemma setTab_none {after : Coordinator E ν} (other : String)
    (h : (system.setTab tab after).tabs other = none) : system.tabs other = none := by
  change (if other = tab then some after else system.tabs other) = none at h
  split at h
  · cases h
  · exact h

lemma Enters.numbered (enters : Enters name system tab hand ready) (lives : ready.tabs tab ≠ none)
    (numbered : system.Numbered) : ready.Numbered := by
  cases enters with
  | @start compatibility init fresh positive =>
    have hadded : (system.addTab tab (Coordinator.start tab compatibility name)).Numbered :=
      numbered.of_tabs (fun other h => setTab_none other h) rfl rfl
    refine hadded.notePosted ?_ lives
    change (decide (0 < init) && decide (init ∉ system.usedIds tab)) = true
    rw [numbered.unopened tab fresh, decide_eq_true positive]
    rfl
  | post fresh => exact numbered.notePosted fresh lives
  | _ => exact numbered.of_tabs (fun _ h => h) rfl rfl

lemma Turn.numbered {after : System E ν} (turn : Turn name system after)
    (numbered : system.Numbered) : after.Numbered := by
  cases turn with
  | task enters lives acts =>
    have hready := enters.numbered (by rw [lives]; exact Option.some_ne_none _) numbered
    exact hready.of_tabs (fun other h => setTab_none other h) rfl rfl

lemma orderly_start : (System.start : System E ν).Orderly fun _ => .empty := by
  refine ⟨List.nodup_nil, ?_, ?_, ?_, ?_⟩
  all_goals exact fun _ _ h => by cases h

/-- What the tabs keep in every run. -/
lemma Reaches.orderly (reached : Reaches numbers engine sizes name system) :
    system.Orderly (fun _ => .empty) ∧ system.Numbered :=
  Reaches.induction (P := fun system => system.Orderly (fun _ => .empty) ∧ system.Numbered)
    ⟨orderly_start, fun _ _ => rfl, fun _ => List.nodup_nil, fun _ => List.Sublist.refl _⟩
    (fun _ _ h turn => ⟨turn.orderly h.1, turn.numbered h.2⟩) reached

/-- What a tab has served. -/
def served (system : System E ν) (tab : String) : List (Served ν) :=
  (system.tabs tab).elim [] Coordinator.served

/-- How often a tab has executed a client's requests that `picks` picks. -/
def executions (system : System E ν) (client : String) (picks : WorkerRequest → Bool) (tab : String) :
    Nat :=
  (system.served tab).countP fun served => served.client == client && picks served.request

/-- The tabs' shares of what was read, in epochs that are each granted to one. -/
lemma sum_came_le (tabs : Finset String) (client : String) (picks : WorkerRequest → Bool) :
    ∑ tab ∈ tabs, system.came tab client picks ≤
      (system.epochs.map fun granted => system.readUnder client picks granted.1).sum := by
  unfold came
  induction system.epochs with
  | nil => simp
  | cons granted rest ih =>
    simp only [List.map_cons, List.sum_cons, Finset.sum_add_distrib, Finset.sum_ite_eq]
    refine Nat.add_le_add ?_ ih
    split
    · exact le_rfl
    · exact Nat.zero_le _

/-- What was sent on distinct channels is no more than what was sent. -/
lemma sum_routedTo_le (channels : Finset String) (p : RoutedRequest → Bool)
    (worker : Coordinator E ν) : ∑ channel ∈ channels, (routedTo channel worker).countP p ≤
      worker.routed.countP fun entry => p entry.2 := by
  unfold routedTo
  simp only [List.countP_map]
  induction worker.routed with
  | nil => simp
  | cons entry rest ih =>
    have hcons (channel : String) : ((entry :: rest).filter fun sent => sent.1 == channel).countP
        (p ∘ Prod.snd) = (rest.filter fun sent => sent.1 == channel).countP (p ∘ Prod.snd) +
          if entry.1 = channel then (if p entry.2 then 1 else 0) else 0 := by
      by_cases h : entry.1 = channel
      · rw [List.filter_cons, if_pos (by exact beq_iff_eq.mpr h), List.countP_cons, if_pos h]
        rfl
      · rw [List.filter_cons, if_neg (by exact mt beq_iff_eq.mp h), if_neg h, Nat.add_zero]
    simp only [hcons, Finset.sum_add_distrib, Finset.sum_ite_eq, List.countP_cons]
    refine Nat.add_le_add ih ?_
    split
    · exact le_rfl
    · exact Nat.zero_le _

/-- What a tab that is not the client's has executed has come to it. -/
lemma Orderly.executions_le (orderly : system.Orderly fun _ => .empty) {client : String}
    (other : tab ≠ client) (picks : WorkerRequest → Bool) :
    system.executions client picks tab ≤ system.came tab client picks := by
  rw [executions, served]
  cases htab : system.tabs tab with
  | none => exact Nat.zero_le _
  | some worker =>
    have hlot := orderly.lot tab worker htab client picks
    rw [room, if_neg other, Nat.zero_add, Coordinator.lot, Coordinator.load] at hlot
    change worker.served.countP (fun served => only client picks served.client served.request) ≤ _
    omega

/-- The client's own tab executes of its requests what it does not send to others. -/
lemma Orderly.own_executions_le (orderly : system.Orderly fun _ => .empty) (client : String)
    (picks : WorkerRequest → Bool) : system.executions client picks client +
      (system.epochs.map fun granted => system.readUnder client picks granted.1).sum ≤
        (system.posted client).countP picks + system.came client client picks := by
  rw [executions, served]
  cases htab : system.tabs client with
  | none =>
    have hnone (epoch : String) : system.readUnder client picks epoch = 0 := by
      rw [readUnder, received, htab, Option.elim_none, List.take_nil]
      rfl
    simp [hnone]
  | some worker =>
    have hlot := orderly.lot client worker htab client picks
    rw [room, if_pos rfl, Coordinator.lot, Coordinator.load] at hlot
    have hread : (system.epochs.map fun granted => system.readUnder client picks granted.1).sum ≤
        worker.routed.countP fun entry => only client picks entry.2.client entry.2.request := by
      have hmap : (system.epochs.map fun granted => system.readUnder client picks granted.1) =
          (system.epochs.map Prod.fst).map (system.readUnder client picks) := by
        rw [List.map_map]
        rfl
      rw [hmap, ← List.sum_toFinset _ orderly.distinct]
      refine (Finset.sum_le_sum fun epoch _ => ?_).trans (sum_routedTo_le _
        (fun message => only client picks message.client message.request) worker)
      rw [readUnder, received, htab]
      exact (List.take_sublist _ _).countP_le
    change worker.served.countP (fun served => only client picks served.client served.request) + _ ≤ _
    omega

lemma Reaches.sum_executions_le (reached : Reaches numbers engine sizes name system) (client : String)
    (picks : WorkerRequest → Bool) (tabs : Finset String) :
    ∑ tab ∈ tabs, system.executions client picks tab ≤ (system.posted client).countP picks := by
  have horderly := reached.orderly.1
  have hown := horderly.own_executions_le client picks
  have hothers := Finset.sum_le_sum fun tab (h : tab ∈ (insert client tabs).erase client) =>
    horderly.executions_le (Finset.ne_of_mem_erase h) picks
  have hcame := @sum_came_le E ν system (insert client tabs) client picks
  have hall : ∑ tab ∈ tabs, system.executions client picks tab ≤
      ∑ tab ∈ insert client tabs, system.executions client picks tab :=
    Finset.sum_le_sum_of_subset (Finset.subset_insert client tabs)
  rw [← Finset.add_sum_erase _ _ (Finset.mem_insert_self client tabs)] at hcame hall
  omega

theorem requests_execute_at_most_once (reached : Reaches numbers engine sizes name system)
    (client : String) :
    ((system.posted client).map WorkerRequest.id).Nodup ∧
      ∀ (picks : WorkerRequest → Bool) (tabs : Finset String),
        ∑ tab ∈ tabs, system.executions client picks tab ≤ (system.posted client).countP picks := by
  have hnumbered := reached.orderly.2
  exact ⟨(hnumbered.nodup client).sublist (hnumbered.posted client), reached.sum_executions_le client⟩

end

/-! ## Two tabs that share a database -/

section
variable (numbers : Changes.NumberText ν) (engine : WorkerEngine E ν) (sizes : Sizes) (name : String)

/-- Actions one after another, if each can happen. -/
def replay : List (Action E) → System E ν → Option (System E ν)
  | [], system => some system
  | action :: actions, system =>
    (system.step numbers engine sizes name action).bind (replay actions)

lemma reaches_replay (opens : ∀ state, engine.Opens state) {actions : List (Action E)}
    {system after : System E ν} (reached : Reaches numbers engine sizes name system)
    (happens : replay numbers engine sizes name actions system = some after) :
    Reaches numbers engine sizes name after := by
  induction actions generalizing system with
  | nil =>
    rw [← Option.some.inj happens]
    exact reached
  | cons action actions ih =>
    obtain ⟨next, hstep, hrest⟩ := Option.bind_eq_some_iff.mp happens
    exact ih (.step reached (fun _ state _ => opens state) hstep) hrest

end

def numberless : Changes.NumberText Empty := ⟨Empty.elim, fun x => x.elim, fun x => x.elim⟩

/-- An engine that tells its revision, and fails otherwise. -/
def revisionEngine : WorkerEngine Nat Empty where
  run
    | .revision => Effect.get
    | _ => Effect.fail Host.notActive
  Opens _ := True

def unitSizes : Sizes := ⟨fun _ => 1, fun _ => 1, fun _ => 1⟩

/-- One tab opens the database, and another initializes through it. -/
def shared : Option (System Nat Empty) :=
  replay numberless revisionEngine unitSizes "ledger"
    [.start "north" "1" 1, .grantClient "north", .grantDatabase "north" "first", .look "north" 0,
      .answer "north", .opened "north" 0, .start "south" "1" 1, .grantClient "south",
      .deliverGroup "south" "north", .deliverGroup "north" "south", .look "south" 0, .answer "south",
      .deliverRequest "south" "north", .deliverReply "north" "south"] start

lemma reaches_shared {system : System Nat Empty} (h : shared = some system) :
    Reaches numberless revisionEngine unitSizes "ledger" system :=
  reaches_replay _ _ _ _ (fun _ => trivial) .start h

theorem requests_execute_at_most_once_shared : ∃ system, shared = some system ∧
    ((system.posted "south").map WorkerRequest.id).Nodup ∧
      ∀ (picks : WorkerRequest → Bool) (tabs : Finset String),
        ∑ tab ∈ tabs, system.executions "south" picks tab ≤
          (system.posted "south").countP picks := by
  have hshared : shared.isSome = true := by decide +kernel
  obtain ⟨system, h⟩ := Option.isSome_iff_exists.mp hshared
  exact ⟨system, h, requests_execute_at_most_once (reaches_shared h) "south"⟩

end System
end Coordination
end TinyJoin
