import TinyJoin.TabExecutions

/-! What pages are answered. A page gets at most one response to each id it used, and a response that is
no error tells of its own request: what an owner's execution of it came to, or that the Worker has closed. -/
namespace TinyJoin
namespace Coordination
variable {E ν : Type}

/-! ## At most one response -/

/-- Whether a message to a page is a response to the request of an id. -/
def Posted.answers (id : Nat) : Posted ν → Bool
  | .response message => message.id == id
  | .event _ => false

/-- Whether a Worker may yet open an engine, for which a last response is kept. -/
def Election.mayOpen : Election → Bool
  | .idle | .waiting | .querying _ | .opening _ => true
  | .owning | .leaving | .left => false

lemma Election.mayOpen_leave (election : Election) : election.leave.mayOpen = false := by
  cases election <;> rfl

def ifIs (id given : Nat) : Nat := if given = id then 1 else 0

def Hand.answers (id : Nat) : Hand ν → Nat
  | .posted request => ifIs id request.id
  | .answering given => ifIs id given
  | _ => 0

namespace Coordinator

def kept (id : Nat) (worker : Coordinator E ν) : Nat :=
  if worker.election.mayOpen then worker.finishing.elim 0 fun message => ifIs id message.id else 0

def waits (id : Nat) (worker : Coordinator E ν) : Nat := if worker.pending.has id then 1 else 0

/-- How many responses to an id the page has, or may yet have. -/
def chances (id : Nat) (hand : Hand ν) (worker : Coordinator E ν) : Nat :=
  hand.answers id + worker.page.countP (Posted.answers id) + worker.waits id + worker.kept id

variable {hand : Hand ν} {worker after : Coordinator E ν} {id : Nat}

lemma chances_post (message : Response ν) :
    chances id hand (worker.post message) = chances id hand worker + ifIs id message.id := by
  change _ + List.countP _ (worker.page ++ [.response message]) + worker.waits id + worker.kept id = _
  rw [List.countP_append, List.countP_singleton, Posted.answers, chances, ifIs]
  simp only [beq_iff_eq]
  omega

lemma chances_postEvent (event : Changes.WorkerEvent ν) :
    chances id hand (worker.postEvent event) = chances id hand worker := by
  change _ + List.countP _ (worker.page ++ [.event event]) + worker.waits id + worker.kept id = _
  rw [List.countP_append, List.countP_singleton]
  rfl

lemma chances_removePending {key : Nat} {entry : Pending}
    (waiting : worker.pending.get key = some entry) :
    chances id hand (worker.removePending key) + ifIs id key = chances id hand worker := by
  have hwaits : (worker.removePending key).waits id + ifIs id key = worker.waits id := by
    rw [waits, waits, removePending, InsertionMap.has, InsertionMap.has, InsertionMap.get_delete, ifIs]
    by_cases h : id = key
    · rw [if_pos h, h, waiting]
      simp
    · rw [if_neg h, if_neg (Ne.symm h)]
      rfl
  change hand.answers id + List.countP _ worker.page + (worker.removePending key).waits id +
    worker.kept id + _ = _
  rw [chances]
  omega

lemma chances_hand (hand : Hand ν) (worker : Coordinator E ν) :
    chances id hand worker = hand.answers id + chances id .empty worker := by
  change _ = hand.answers id + (0 + worker.page.countP _ + worker.waits id + worker.kept id)
  rw [chances]
  omega

/-- Of a page and an election that are as they were, or may only open less. -/
lemma chances_le (page : after.page = worker.page) (finishing : after.finishing = worker.finishing)
    (waits : after.waits id ≤ worker.waits id)
    (opens : after.election.mayOpen = true → worker.election.mayOpen = true) :
    chances id hand after ≤ chances id hand worker := by
  have hkept : after.kept id ≤ worker.kept id := by
    rw [kept, kept, finishing]
    split
    · next h => rw [if_pos (opens h)]
    · exact Nat.zero_le _
  rw [chances, chances, page]
  omega

lemma waits_removePending (key : Nat) : (worker.removePending key).waits id ≤ worker.waits id := by
  rw [waits, waits, removePending, InsertionMap.has, InsertionMap.has, InsertionMap.get_delete]
  split <;> simp

lemma chances_leave : chances id hand worker.leave ≤ chances id hand worker :=
  chances_le rfl rfl le_rfl fun h => Bool.noConfusion (h.symm.trans worker.election.mayOpen_leave)

/-- A response that is kept counts while an engine may yet open. -/
lemma chances_keep {message : Response ν} {starting : Announcement}
    (opening : worker.election = .opening starting) :
    chances id hand { worker with finishing := some message } ≤
      chances id hand worker + ifIs id message.id := by
  change _ + _ + worker.waits id + (if worker.election.mayOpen = true then ifIs id message.id else 0) ≤ _
  rw [chances, opening]
  simp only [Election.mayOpen, if_true]
  omega

lemma Move.chances {a b : Hand ν × Coordinator E ν} (move : Move a b) :
    chances id b.1 b.2 ≤ chances id a.1 a.2 := by
  cases move with
  | leave => exact chances_leave
  | remove key => exact chances_le rfl rfl (waits_removePending key) fun h => h
  | answer due waits =>
    rw [← chances_removePending waits]
    exact (chances_post _).le
  | @keep hand worker entry starting message due waits opening =>
    rw [← chances_removePending waits]
    exact @chances_keep E ν hand (worker.removePending message.id) id message starting opening
  | drop => exact Nat.add_le_add_right (Nat.add_le_add_right (Nat.add_le_add_right (Nat.zero_le _) _) _) _
  | _ => exact le_rfl

lemma waits_marked {key : Nat} {entry : Pending} (waiting : worker.Unsent key entry) (epoch : String) :
    (worker.marked key entry epoch).waits id = worker.waits id := by
  rw [waits, waits, marked, InsertionMap.has, InsertionMap.has, InsertionMap.get_set]
  split
  · next h => rw [h, waiting.1]; rfl
  · rfl

lemma Asks.answers {message : Response ν} (asks : worker.Asks hand message) :
    ifIs id message.id ≤ hand.answers id := by
  rcases asks with ⟨rfl, -⟩ | ⟨request, rfl, hid, -⟩
  · exact le_rfl
  · rw [hid]
    exact le_rfl

/-- An act gives no response but to an id that was due one. -/
lemma Act.chances {a b : Hand ν × Coordinator E ν} (act : Act a b) :
    chances id b.1 b.2 ≤ chances id a.1 a.2 := by
  cases act with
  | move move => exact move.chances
  | @ignore hand worker =>
    rw [chances_hand hand]
    exact Nat.le_add_left _ _
  | @answerNow hand worker message asks =>
    rw [chances_hand hand, Nat.add_comm]
    exact (chances_post message).le.trans (Nat.add_le_add_left asks.answers _)
  | @keepNow hand worker starting message asks opening =>
    rw [chances_hand hand, Nat.add_comm]
    exact (chances_keep opening).trans (Nat.add_le_add_left asks.answers _)
  | @enqueue request worker bytes =>
    have hwaits : (worker.enqueued request bytes).waits id ≤ worker.waits id + ifIs id request.id := by
      rw [waits, waits, enqueued, InsertionMap.has, InsertionMap.has, InsertionMap.get_set, ifIs]
      by_cases h : id = request.id
      · rw [if_pos h, if_pos h.symm]
        simp
      · rw [if_neg h, if_neg (Ne.symm h)]
        exact le_rfl
    change 0 + worker.page.countP _ + (worker.enqueued request bytes).waits id + worker.kept id ≤
      ifIs id request.id + worker.page.countP _ + worker.waits id + worker.kept id
    omega
  | event event => exact (chances_postEvent event).le
  | mark epoch waits => exact chances_le rfl rfl (waits_marked waits _).le fun h => h
  | route channel epoch waits => exact chances_le rfl rfl (waits_marked waits _).le fun h => h
  | lose epoch waits => exact chances_le rfl rfl (waits_marked waits _).le fun h => h
  | await idle => exact chances_le rfl rfl le_rfl fun _ => by rw [idle]; rfl
  | decline epoch waits => exact chances_le rfl rfl le_rfl fun h => by cases h
  | elect epoch waits => exact chances_le rfl rfl le_rfl fun _ => by rw [waits]; rfl
  | «open» queried => exact chances_le rfl rfl le_rfl fun _ => by rw [queried]; rfl
  | lead opening => exact chances_le rfl rfl le_rfl fun h => by cases h
  | release leaves => exact chances_le rfl rfl le_rfl fun h => by cases h
  | @finish worker starting message last opening going ends =>
    have hkept : worker.kept id = ifIs id message.id := by
      rw [kept, opening, going]
      rfl
    have hleft : Coordinator.chances id .empty worker.leave + worker.kept id =
        Coordinator.chances id .empty worker := by
      have hnone : worker.leave.kept id = 0 := by
        rw [kept, leave, Election.mayOpen_leave]
        rfl
      rw [Coordinator.chances, Coordinator.chances, hnone]
      rfl
    have hid : last.id = message.id := by
      rcases ends with rfl | ⟨error, rfl⟩ <;> rfl
    have hpost := @chances_post E ν .empty worker.leave id last
    rw [hid] at hpost
    dsimp only
    omega
  | _ => exact le_rfl

lemma Acts.chances {a b : Hand ν × Coordinator E ν} (acts : Acts a b) :
    chances id b.1 b.2 ≤ chances id a.1 a.2 := by
  induction acts with
  | refl => exact le_rfl
  | tail _ act ih => exact act.chances.trans ih

end Coordinator

namespace System
open Coordinator (chances)

section
variable {numbers : Changes.NumberText ν} {engine : WorkerEngine E ν} {sizes : Sizes}
  {name tab : String} {hand : Hand ν} {system ready after : System E ν} {worker : Coordinator E ν}

/-- Whether no page has, or may yet have, more responses to an id than it used the id. -/
def AnsweredOnce (system : System E ν) : Prop := ∀ tab worker, system.tabs tab = some worker →
  ∀ id, 0 < id → chances id .empty worker ≤ (system.usedIds tab).count id

lemma Enters.other (enters : Enters name system tab hand ready) {other : String} (h : other ≠ tab) :
    ready.tabs other = system.tabs other ∧ ready.usedIds other = system.usedIds other ∧
      ready.posted other = system.posted other := by
  cases enters with
  | start fresh positive => exact ⟨if_neg h, if_neg h, if_neg h⟩
  | post fresh => exact ⟨rfl, if_neg h, if_neg h⟩
  | _ => exact ⟨rfl, rfl, rfl⟩

lemma answers_given (message : Coordinator.PageMessage) {id : Nat} (positive : 0 < id) :
    (message.given : Hand ν).answers id ≤ message.id?.toList.count id := by
  have hsingle (given : Nat) : ifIs id given = [given].count id := by
    rw [ifIs, List.count_singleton]
    simp only [beq_iff_eq]
  cases message with
  | statement sent => exact (hsingle sent.id).le
  | request sent => exact (hsingle sent.id).le
  | resync => exact Nat.zero_le _
  | invalid given =>
    cases given with
    | some given => exact (hsingle given).le
    | none => exact (if_neg positive.ne).le

lemma Enters.chances (enters : Enters name system tab hand ready) (answered : system.AnsweredOnce)
    (lives : ready.tabs tab = some worker) {id : Nat} (positive : 0 < id) :
    chances id hand worker ≤ (ready.usedIds tab).count id := by
  have hsame {hand : Hand ν} (free : hand.answers id = 0) (before : system.tabs tab = some worker)
      (used : ready.usedIds = system.usedIds) :
      Coordinator.chances id hand worker ≤ (ready.usedIds tab).count id := by
    rw [Coordinator.chances_hand, free, Nat.zero_add, used]
    exact answered tab worker before id positive
  cases enters with
  | @start compatibility init fresh positive' =>
    obtain rfl := Option.some.inj ((if_pos rfl).symm.trans lives)
    change ifIs id init + 0 + 0 + 0 ≤ (if tab = tab then system.usedIds tab ++ [init] else _).count id
    rw [if_pos rfl, List.count_append, List.count_singleton, ifIs]
    simp only [beq_iff_eq]
    omega
  | @post message fresh =>
    have hgiven := @answers_given ν message id positive
    have hbefore := answered tab worker lives id positive
    change _ ≤ (if tab = tab then system.usedIds tab ++ message.id?.toList else _).count id
    rw [Coordinator.chances_hand, if_pos rfl, List.count_append]
    omega
  | _ => exact hsame rfl lives rfl

lemma Turn.answeredOnce {after : System E ν} (turn : Turn name system after)
    (answered : system.AnsweredOnce) : after.AnsweredOnce := by
  intro other found h id positive
  cases turn with
  | @task tab hand ready worker done holder executed enters lives acts =>
    change (if other = tab then some done else ready.tabs other) = some found at h
    change _ ≤ (ready.usedIds other).count id
    split at h
    · next same =>
      obtain rfl := Option.some.inj h
      rw [same]
      exact acts.chances.trans (enters.chances answered lives positive)
    · next different =>
      obtain ⟨htabs, hused, -⟩ := enters.other different
      rw [hused]
      exact answered other found (htabs.symm.trans h) id positive

theorem requests_are_answered_at_most_once (reached : Reaches numbers engine sizes name system)
    (lives : system.tabs tab = some worker) : (system.usedIds tab).Nodup ∧ ∀ id, 0 < id →
      worker.page.countP (Posted.answers id) ≤ (system.usedIds tab).count id := by
  refine ⟨reached.orderly.2.nodup tab, fun id positive => ?_⟩
  have hanswered : system.AnsweredOnce := reached.induction (fun _ _ h => by cases h)
    fun _ _ h turn => turn.answeredOnce h
  have hchances := hanswered tab worker lives id positive
  rw [Coordinator.chances] at hchances
  omega

end

theorem requests_are_answered_at_most_once_shared : ∃ system worker, shared = some system ∧
    system.tabs "south" = some worker ∧ (system.usedIds "south").Nodup ∧ ∀ id, 0 < id →
      worker.page.countP (Posted.answers id) ≤ (system.usedIds "south").count id := by
  have hlives : (shared.bind fun system => system.tabs "south").isSome = true := by decide +kernel
  obtain ⟨worker, h⟩ := Option.isSome_iff_exists.mp hlives
  obtain ⟨system, hsystem, hworker⟩ := Option.bind_eq_some_iff.mp h
  exact ⟨system, worker, hsystem, hworker,
    requests_are_answered_at_most_once (reaches_shared hsystem) hworker⟩

end System

/-! ## What a response tells of -/

/-- The response that is in a hand. -/
def Hand.brings : Hand ν → Option (Response ν)
  | .received answer => some answer.response
  | .posted request => if request.method.isClose then some (.ok request.id .undefined) else none
  | _ => none

namespace Coordinator
variable {hand other : Hand ν} {worker : Coordinator E ν} {client : String} {response message : Response ν}

/-- Whether a client has, or may yet have, a response of this Worker. -/
def Offers (client : String) (response : Response ν) (hand : Hand ν) (worker : Coordinator E ν) : Prop :=
  client = worker.client ∧ (hand.brings = some response ∨ .response response ∈ worker.page ∨
    worker.finishing = some response) ∨ ∃ epoch, (client, ⟨epoch, response⟩) ∈ worker.replies

lemma Offers.post (offers : Offers client response hand (worker.post message)) :
    Offers client response hand worker ∨ client = worker.client ∧ response = message := by
  rcases offers with ⟨hclient, h | h | h⟩ | h
  · exact .inl (.inl ⟨hclient, .inl h⟩)
  · rcases List.mem_append.mp h with h | h
    · exact .inl (.inl ⟨hclient, .inr (.inl h)⟩)
    · exact .inr ⟨hclient, Posted.response.inj (List.mem_singleton.mp h)⟩
  · exact .inl (.inl ⟨hclient, .inr (.inr h)⟩)
  · exact .inl (.inr h)

lemma Offers.postEvent {event : Changes.WorkerEvent ν}
    (offers : Offers client response hand (worker.postEvent event)) :
    Offers client response hand worker := by
  rcases offers with ⟨hclient, h | h | h⟩ | h
  · exact .inl ⟨hclient, .inl h⟩
  · rcases List.mem_append.mp h with h | h
    · exact .inl ⟨hclient, .inr (.inl h)⟩
    · cases List.mem_singleton.mp h
  · exact .inl ⟨hclient, .inr (.inr h)⟩
  · exact .inr h

/-- What was in a hand is dealt with. -/
lemma Offers.drop (offers : Offers client response other worker) (free : other.brings = none) :
    Offers client response hand worker := by
  rcases offers with ⟨hclient, h | h⟩ | h
  · cases free.symm.trans h
  · exact .inl ⟨hclient, .inr h⟩
  · exact .inr h

lemma Due.offers (due : worker.Due hand message) (hclient : client = worker.client)
    (same : response = message) :
    Offers client response hand worker ∨ worker.Justified client response := by
  subst hclient same
  rcases due with justified | ⟨epoch, rfl⟩
  · exact .inr justified
  · exact .inl (.inl ⟨rfl, .inl rfl⟩)

/-- A response that is kept is offered. -/
lemma Offers.keep (offers : Offers client response hand { worker with finishing := some message }) :
    Offers client response hand worker ∨ client = worker.client ∧ response = message := by
  rcases offers with ⟨hclient, h | h | h⟩ | h
  · exact .inl (.inl ⟨hclient, .inl h⟩)
  · exact .inl (.inl ⟨hclient, .inr (.inl h)⟩)
  · exact .inr ⟨hclient, (Option.some.inj h).symm⟩
  · exact .inl (.inr h)

lemma Move.offers {a b : Hand ν × Coordinator E ν} (move : Move a b)
    (offers : Offers client response b.1 b.2) :
    Offers client response a.1 a.2 ∨ a.2.Justified client response := by
  cases move with
  | @answer hand worker entry message due waits =>
    obtain h | ⟨hclient, hsame⟩ :=
      @Offers.post E ν hand (worker.removePending message.id) client response message offers
    · exact .inl h
    · exact due.offers hclient hsame
  | @keep hand worker entry starting message due waits opening =>
    obtain h | ⟨hclient, hsame⟩ :=
      @Offers.keep E ν hand (worker.removePending message.id) client response message offers
    · exact .inl h
    · exact due.offers hclient hsame
  | @reply hand worker other epoch message justified =>
    rcases offers with h | ⟨epoch, h⟩
    · exact .inl (.inl h)
    · rcases List.mem_append.mp h with h | h
      · exact .inl (.inr ⟨epoch, h⟩)
      · cases List.mem_singleton.mp h
        exact .inr justified
  | _ => exact .inl offers

lemma Asks.offers (asks : worker.Asks hand message) (hclient : client = worker.client)
    (same : response = message) :
    Offers client response hand worker ∨ worker.Justified client response := by
  subst hclient same
  rcases asks with ⟨-, justified⟩ | ⟨request, rfl, -, justified | ⟨closes, rfl⟩⟩
  · exact .inr justified
  · exact .inr justified
  · exact .inl (.inl ⟨rfl, .inl (if_pos closes)⟩)

/-- An act offers a client no response but errors and what it served. -/
lemma Act.offers {a b : Hand ν × Coordinator E ν} (act : Act a b)
    (offers : Offers client response b.1 b.2) :
    Offers client response a.1 a.2 ∨ a.2.Justified client response := by
  cases act with
  | move move => exact move.offers offers
  | ignore => exact .inl (Offers.drop offers rfl)
  | answerNow asks =>
    obtain h | ⟨hclient, hsame⟩ := Offers.post offers
    · exact .inl (h.drop rfl)
    · exact asks.offers hclient hsame
  | keepNow asks opening =>
    obtain h | ⟨hclient, hsame⟩ := Offers.keep offers
    · exact .inl (h.drop rfl)
    · exact asks.offers hclient hsame
  | @enqueue request worker bytes => exact .inl (@Offers.drop E ν _ _ worker _ _ offers rfl)
  | @serve request worker outcome => exact .inl (@Offers.drop E ν _ _ worker _ _ offers rfl)
  | event event => exact .inl (Offers.postEvent offers)
  | @finish worker starting message last opening going ends =>
    obtain h | ⟨hclient, rfl⟩ := @Offers.post E ν .empty worker.leave client response last offers
    · exact .inl h
    · rcases ends with rfl | ⟨error, rfl⟩
      · exact .inl (.inl ⟨hclient, .inr (.inr going)⟩)
      · exact .inr (justified_failed _ _ _ _)
  | _ => exact .inl offers

lemma Acts.offers {a b : Hand ν × Coordinator E ν} (acts : Acts a b)
    (offers : Offers client response b.1 b.2) :
    Offers client response a.1 a.2 ∨ b.2.Justified client response := by
  induction acts with
  | refl => exact .inl offers
  | tail _ act ih =>
    have hserved {x y : Hand ν × Coordinator E ν} (served : x.2.served <+: y.2.served)
        (justified : x.2.Justified client response) : y.2.Justified client response := by
      refine justified.imp_right fun h => ?_
      obtain ⟨found, hfound, htells⟩ := h
      exact ⟨found, served.subset hfound, htells⟩
    rcases act.offers offers with h | h
    · exact (ih h).imp_right (hserved act.onward.served)
    · exact .inr (hserved act.onward.served h)

end Coordinator

namespace System
open Coordinator (Offers)

variable {numbers : Changes.NumberText ν} {engine : WorkerEngine E ν} {sizes : Sizes}
  {name tab client : String} {hand : Hand ν} {system ready after : System E ν}
  {worker : Coordinator E ν} {response : Response ν}

/-- Whether a client may be given a response: an error, that a request has closed its Worker, or what
came of one that was served. -/
def Tells (system : System E ν) (client : String) (response : Response ν) : Prop :=
  (∃ id error, response = .failed id error) ∨
  (∃ request ∈ system.posted client, request.method.isClose = true ∧
    response = .ok request.id .undefined) ∨
  ∃ owner, ∃ served ∈ system.served owner, served.client = client ∧
    response = answered served.request.id served.outcome

lemma Tells.mono (tells : system.Tells client response)
    (posted : system.posted client ⊆ ready.posted client)
    (served : ∀ owner, system.served owner ⊆ ready.served owner) : ready.Tells client response := by
  refine tells.imp_right fun h => h.imp (fun h => ?_) fun h => ?_
  · obtain ⟨request, hrequest, hcloses⟩ := h
    exact ⟨request, posted hrequest, hcloses⟩
  · obtain ⟨owner, found, hfound, htells⟩ := h
    exact ⟨owner, found, served owner hfound, htells⟩

/-- Whether no tab offers a client what it may not be given. -/
def Truthful (system : System E ν) : Prop := ∀ tab worker, system.tabs tab = some worker →
  ∀ client response, worker.Offers client response .empty → system.Tells client response

lemma Enters.keeps (enters : Enters name system tab hand ready) (client : String) :
    system.posted client ⊆ ready.posted client ∧
      ∀ owner, system.served owner ⊆ ready.served owner := by
  have hnoted (message : Coordinator.PageMessage) :
      system.posted client ⊆ (system.notePosted tab message).posted client := by
    change _ ⊆ if client = tab then system.posted tab ++ _ else system.posted client
    split
    · next same =>
      rw [same]
      exact List.subset_append_left _ _
    · exact List.Subset.refl _
  cases enters with
  | @start compatibility init fresh positive =>
    refine ⟨hnoted (.request ⟨init, .init (.opfs name)⟩), fun owner => ?_⟩
    change (system.tabs owner).elim [] _ ⊆ (if owner = tab then some _ else system.tabs owner).elim [] _
    split
    · next same =>
      rw [same, fresh]
      exact List.nil_subset _
    · exact List.Subset.refl _
  | post fresh => exact ⟨hnoted _, fun _ => List.Subset.refl _⟩
  | _ => exact ⟨List.Subset.refl _, fun _ => List.Subset.refl _⟩

/-- What a tab offers once something is in its hand. -/
lemma Enters.tells (enters : Enters name system tab hand ready)
    (orderly : system.Orderly fun _ => .empty) (truthful : system.Truthful)
    (lives : ready.tabs tab = some worker) (offers : worker.Offers client response hand) :
    ready.Tells client response := by
  have hkept (before : system.tabs tab = some worker)
      (offers : worker.Offers client response .empty) : ready.Tells client response :=
    (truthful tab worker before client response offers).mono (enters.keeps client).1
      (enters.keeps client).2
  cases enters with
  | start fresh positive =>
    obtain rfl := Option.some.inj ((if_pos rfl).symm.trans lives)
    rcases offers with ⟨-, h | h | h⟩ | ⟨epoch, h⟩ <;> cases h
  | @post message fresh =>
    rcases offers with ⟨hclient, h | h⟩ | h
    · obtain ⟨request, hgiven, hrequest⟩ : ∃ request, (message.given : Hand ν) = .posted request ∧
          request ∈ message.request?.toList := by
        cases message with
        | statement sent => exact ⟨_, rfl, List.mem_singleton_self _⟩
        | request sent => exact ⟨_, rfl, List.mem_singleton_self _⟩
        | resync => cases h
        | invalid id => cases id <;> cases h
      rw [hgiven, Hand.brings] at h
      split at h
      · next hcloses =>
        refine .inr (.inl ⟨request, ?_, hcloses, (Option.some.inj h).symm⟩)
        rw [hclient, orderly.client tab worker lives]
        change _ ∈ if tab = tab then system.posted tab ++ _ else _
        rw [if_pos rfl]
        exact List.mem_append_right _ hrequest
      · cases h
    · exact hkept lives (.inl ⟨hclient, .inr h⟩)
    · exact hkept lives (.inr h)
  | @receive owner posting answer read posts sent =>
    rcases offers with ⟨hclient, h | h⟩ | h
    · obtain ⟨entry, hentry, rfl⟩ := List.mem_map.mp sent
      obtain ⟨hmem, hentry⟩ := List.mem_filter.mp hentry
      obtain rfl := Option.some.inj h
      refine truthful owner posting posts client entry.2.response (.inr ⟨entry.2.epoch, ?_⟩)
      rw [hclient, orderly.client tab worker lives, ← beq_iff_eq.mp hentry]
      exact hmem
    · exact hkept lives (.inl ⟨hclient, .inr h⟩)
    · exact hkept lives (.inr h)
  | _ => exact hkept lives (Offers.drop offers rfl)

lemma Turn.truthful (turn : Turn name system after)
    (orderly : system.Orderly fun _ => .empty) (truthful : system.Truthful) : after.Truthful := by
  cases turn with
  | @task tab hand ready worker done holder executed enters lives acts =>
    have hready (owner : String) :
        ready.served owner ⊆ { ready.setTab tab done with holder, executed }.served owner := by
      change _ ⊆ (if owner = tab then some done else ready.tabs owner).elim [] _
      split
      · next same =>
        rw [served, same, lives]
        exact acts.onward.served.subset
      · exact List.Subset.refl _
    intro other found h client response offers
    change (if other = tab then some done else ready.tabs other) = some found at h
    split at h
    · next same =>
      obtain rfl := Option.some.inj h
      rcases acts.offers offers with hoffers | hfailed | ⟨serving, hserved, htells⟩
      · exact (enters.tells orderly truthful lives hoffers).mono (List.Subset.refl _) hready
      · exact .inl hfailed
      · refine .inr (.inr ⟨tab, serving, ?_, htells⟩)
        change serving ∈ (if tab = tab then some done else ready.tabs tab).elim [] _
        rw [if_pos rfl]
        exact hserved
    · next different =>
      have hbefore := (enters.other different).1.symm.trans h
      exact ((truthful other found hbefore client response offers).mono (enters.keeps client).1
        (enters.keeps client).2).mono (List.Subset.refl _) hready

/-- What a tab has served for a client is of the client's requests. -/
lemma Reaches.served_posted (reached : Reaches numbers engine sizes name system) {owner : String}
    {served : Served ν} (mem : served ∈ system.served owner) :
    served.request ∈ system.posted served.client := by
  classical
  have hexecutes := reached.sum_executions_le served.client (fun request => request = served.request)
    {owner}
  rw [Finset.sum_singleton] at hexecutes
  have hpos : 0 < system.executions served.client (fun request => request = served.request) owner :=
    List.countP_pos_iff.mpr ⟨served, mem, by simp⟩
  obtain ⟨request, hrequest, hsame⟩ := List.countP_pos_iff.mp (hpos.trans_le hexecutes)
  rw [decide_eq_true_eq] at hsame
  exact hsame ▸ hrequest

theorem responses_tell_of_executions (reached : Reaches numbers engine sizes name system)
    (lives : system.tabs tab = some worker) (posted : .response response ∈ worker.page) :
    (∃ id error, response = .failed id error) ∨ ∃ request ∈ system.posted tab,
      (request.method.isClose = true ∧ response = .ok request.id .undefined) ∨
        ∃ owner outcome, ⟨tab, request, outcome⟩ ∈ system.served owner ∧
          response = answered request.id outcome := by
  obtain ⟨horderly, htruthful⟩ : system.Orderly (fun _ => .empty) ∧ system.Truthful :=
    Reaches.induction (P := fun system => system.Orderly (fun _ => .empty) ∧ system.Truthful)
      ⟨orderly_start, fun _ _ h => by cases h⟩
      (fun _ _ h turn => ⟨turn.orderly h.1, turn.truthful h.1 h.2⟩) reached
  have hclient := horderly.client tab worker lives
  rcases htruthful tab worker lives tab response (.inl ⟨hclient.symm, .inr (.inl posted)⟩) with
    h | ⟨request, hrequest, hcloses⟩ | ⟨owner, ⟨_, request, outcome⟩, hserved, rfl, htells⟩
  · exact .inl h
  · exact .inr ⟨request, hrequest, .inl hcloses⟩
  · exact .inr ⟨request, reached.served_posted hserved, .inr ⟨owner, outcome, hserved, htells⟩⟩

/-- A response that is an object and no error. -/
def ok? : Posted ν → Option (Response ν)
  | .response (.ok id value) => some (.ok id value)
  | _ => none

theorem responses_tell_of_executions_shared : ∃ system worker id value, shared = some system ∧
    system.tabs "south" = some worker ∧ .response (.ok id value) ∈ worker.page ∧
    ((∃ failedId error, Response.ok id value = .failed failedId error) ∨
      ∃ request ∈ system.posted "south",
        (request.method.isClose = true ∧ Response.ok id value = .ok request.id .undefined) ∨
          ∃ owner outcome, ⟨"south", request, outcome⟩ ∈ system.served owner ∧
            Response.ok id value = answered request.id outcome) := by
  have hanswered : (shared.bind fun system => (system.tabs "south").bind fun worker =>
      worker.page.findSome? ok?).isSome = true := by decide +kernel
  obtain ⟨response, h⟩ := Option.isSome_iff_exists.mp hanswered
  obtain ⟨system, hsystem, h⟩ := Option.bind_eq_some_iff.mp h
  obtain ⟨worker, hworker, h⟩ := Option.bind_eq_some_iff.mp h
  obtain ⟨posted, hposted, hok⟩ := List.exists_of_findSome?_eq_some h
  obtain ⟨id, value, rfl⟩ : ∃ id value, posted = .response (.ok id value) := by
    unfold ok? at hok
    split at hok
    · exact ⟨_, _, rfl⟩
    · cases hok
  exact ⟨system, worker, id, value, hsystem, hworker, hposted,
    responses_tell_of_executions (reaches_shared hsystem) hworker hposted⟩

end System
end Coordination
end TinyJoin
