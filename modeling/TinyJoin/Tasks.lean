import TinyJoin.Acts

/-! Every task of a Worker is acts, from what comes into its hand to an empty one. -/
namespace TinyJoin
namespace Coordination
namespace Coordinator
variable {E ν : Type} {numbers : Changes.NumberText ν} {engine : WorkerEngine E ν} {hand : Hand ν}
  {worker : Coordinator E ν}

lemma Act.rests {a b : Hand ν × Coordinator E ν} (act : Act a b) (rests : a.2.Rests) : b.2.Rests := by
  cases act with
  | move move => exact move.rests rests
  | own host opening =>
    intro _ h
    cases h
  | _ => exact rests

lemma Acts.rests {a b : Hand ν × Coordinator E ν} (acts : Acts a b) (rests : a.2.Rests) :
    b.2.Rests := by
  induction acts with
  | refl => exact rests
  | tail _ act ih => exact act.rests ih

lemma Acts.ignored {after : Coordinator E ν} (acts : Acts (.empty, worker) (.empty, after)) :
    Acts (hand, worker) (.empty, after) :=
  Act.ignore.acts.trans acts

lemma acts_ignore : Acts (hand, worker) (.empty, worker) := Act.ignore.acts

lemma acts_resume {after : Coordinator E ν} (acts : Acts (hand, worker) (.empty, after)) :
    Acts (hand, worker) (.empty, resumePump numbers engine after) :=
  acts.trans moves_resumePump.acts

/-! ## Announcements -/

lemma acts_resync (revision : Nat) : Acts (hand, worker) (hand, worker.resync revision) := by
  unfold resync
  split
  · exact (Act.event _).acts
  · exact acts_refl _

lemma acts_turnTo (message : Announcement) : Acts (.empty, worker) (.empty, worker.turnTo message) := by
  unfold turnTo
  split
  · exact (Act.move .aside).acts
  · exact (moves_failPending leaderChanged true).acts.trans (Act.move .aside).acts

lemma acts_announce (message : Announcement) (rests : worker.Rests) :
    Acts (.empty, worker) (.empty, announce numbers engine message worker) := by
  unfold announce
  split
  · exact acts_refl _
  split
  · refine Moves.acts ((moves_failPending leaderChanged true).trans ?_)
    exact Move.aside.moves.trans (moves_failPending versionMismatch false)
  have hturn := @acts_turnTo E ν worker message
  dsimp only
  split
  · have hdispatch := hturn.trans
      (@acts_dispatchAll E ν numbers engine (worker.turnTo message) (hturn.rests rests)).1
    refine acts_resume ?_
    split
    · exact hdispatch.trans ((Act.move .aside).acts.trans (acts_resync _))
    · exact hdispatch
  · exact hturn

/-! ## The page's requests -/

lemma acts_enqueue {request : WorkerRequest} (bytes : Nat) (rests : worker.Rests) :
    Acts (.posted request, worker) (.empty, enqueue numbers engine request bytes worker) := by
  have hdispatch := @acts_dispatch E ν numbers engine (worker.enqueued request bytes) request.id rests
  exact acts_resume ((Act.enqueue bytes).acts.trans hdispatch.1)

/-- Serving a request of the page at once, and settling it. -/
lemma acts_settle {request : WorkerRequest} {outcome : Except Thrown (Value ν)}
    {owner : Option (Broker E ν)} (same : owner.map Broker.work = worker.work) :
    Acts (.posted request, worker) (.empty, settle engine Coordinator.post request outcome
      ({ worker with owner }.noteServed worker.client request outcome)) := by
  obtain ⟨message, noted, hid, hjustified, hclient, hnoted, hrest⟩ :=
    @settle_cases E ν engine ({ worker with owner }.noteServed worker.client request outcome)
      Coordinator.post worker.client request outcome
      (List.mem_append_right _ (List.mem_singleton.mpr rfl))
  have hserve : Act (.posted request, { worker with owner }) (.answering request.id,
      { worker with owner }.noteServed worker.client request outcome) := .serve outcome
  refine (moves_tend same).acts.trans (hserve.acts.trans ((hnoted _).acts.trans ?_))
  refine (Act.answerNow (.inl ⟨by rw [hid], ?_⟩)).acts.trans (hrest _).acts
  rw [hclient]
  exact hjustified

lemma serveStatement_cases {request : StatementRequest} {after : Coordinator E ν}
    (serves : serveStatement engine request worker = some after) :
    ∃ owner outcome, owner.map Broker.work = worker.work ∧
      after = settle engine Coordinator.post (statementRequest request) outcome
        ({ worker with owner }.noteServed worker.client (statementRequest request) outcome) := by
  unfold serveStatement at serves
  split at serves
  · cases serves
  next broker howner =>
  have hwork (host : Host E ν) : (some { broker with host }).map Broker.work = worker.work := by
    rw [work, howner]
    rfl
  split at serves
  · cases serves
  dsimp only at serves
  split at serves
  · cases serves
  · exact ⟨_, .error _, hwork _, (Option.some.inj serves).symm⟩
  · exact ⟨_, .ok (.statement _), hwork _, (Option.some.inj serves).symm⟩

lemma acts_fail (request : WorkerRequest) (error : SerializedError) :
    Acts (.posted request, worker) (.empty, worker.fail request.id error) := by
  have hremove : Act (.posted request, worker) (.posted request, worker.removePending request.id) :=
    .move (.remove request.id)
  refine hremove.acts.trans (Act.answerNow (.inr ⟨request, rfl, rfl, .inl ?_⟩)).acts
  exact justified_failed _ _ _ _

/-- A request that closes the Worker at once. -/
lemma acts_closeNow {request : WorkerRequest} (closes : request.method.isClose = true) :
    Acts (.posted request, worker) (.empty, finishClose engine (.ok request.id .undefined) worker) := by
  obtain ⟨closed, owner, engineOpen, group, hshrinks, ⟨starting, hopening, heq⟩ | ⟨last, hlast, heq⟩⟩ :=
    @finishClose_cases E ν engine worker (.ok request.id .undefined)
  all_goals
    have htend : Move (.posted request, worker) (.posted request, { worker with owner }) :=
      .tend hshrinks
    have haside : Move (.posted request, { worker with owner })
      (.posted request, { worker with closed, owner, engineOpen, group }) := .aside
    refine (Moves.acts (htend.moves.trans haside.moves)).trans ?_
    rw [heq]
  · exact (@Act.keepNow E ν (.posted request) { worker with closed, owner, engineOpen, group } starting _
      (.inr ⟨request, rfl, rfl, .inr ⟨closes, rfl⟩⟩) hopening).acts
  · have hasks : Asks (.posted request) { worker with closed, owner, engineOpen, group } last := by
      rcases hlast with rfl | ⟨error, rfl⟩
      · exact .inr ⟨request, rfl, rfl, .inr ⟨closes, rfl⟩⟩
      · exact .inr ⟨request, rfl, rfl, .inl (justified_failed _ _ _ _)⟩
    exact (Act.answerNow hasks).acts.trans (Moves.acts (Move.leave.moves.trans Move.aside.moves))

section Page
variable {sizes : Sizes}

lemma acts_receiveStatement {request : StatementRequest} (rests : worker.Rests) :
    Acts (.posted (statementRequest request), worker)
      (.empty, receiveStatement numbers engine sizes request worker) := by
  unfold receiveStatement
  split
  · next error _ => exact acts_fail (statementRequest request) error
  dsimp only
  split
  · exact acts_fail (statementRequest request) _
  split
  · cases hserve : serveStatement engine request worker with
    | none => exact acts_enqueue _ rests
    | some after =>
      obtain ⟨owner, outcome, hwork, rfl⟩ := serveStatement_cases hserve
      exact acts_settle hwork
  · exact acts_enqueue _ rests

lemma acts_receiveRequest {request : WorkerRequest} (rests : worker.Rests) :
    Acts (.posted request, worker)
      (.empty, receiveRequest numbers engine sizes request worker) := by
  unfold receiveRequest
  split
  · next hclose => exact acts_closeNow hclose.1
  split
  · next error _ => exact acts_fail _ error
  dsimp only
  generalize (if (request.method.isClose || request.method.isFinish) = true then 8 else 0) = places
  generalize (if (request.method.isClose || request.method.isFinish) = true then 8192 else 0) = bytes
  split
  · exact acts_fail _ _
  split
  · cases hserve : serveLocal numbers engine request worker with
    | none => exact acts_enqueue _ rests
    | some after =>
      rw [serveLocal] at hserve
      split at hserve
      · cases hserve
      · obtain ⟨owner, outcome, hwork, rfl⟩ := serveNow_cases hserve
        exact acts_settle hwork
  · exact acts_enqueue _ rests

lemma acts_receiveResync : Acts (.empty, worker) (.empty, worker.receiveResync) := by
  unfold receiveResync
  dsimp only
  split
  · refine (Act.move .aside).acts.trans ((acts_resync _).trans (Act.move .aside).acts)
  · exact (Act.move .aside).acts

/-- What a message from the page puts in the Worker's hand. -/
def PageMessage.given : PageMessage → Hand ν
  | .statement sent => .posted (statementRequest sent)
  | .request sent => .posted sent
  | .resync => .empty
  | .invalid id => .answering (id.getD 0)

lemma acts_receive {message : PageMessage} (rests : worker.Rests) :
    Acts (message.given, worker) (.empty, receive numbers engine sizes message worker) := by
  unfold receive
  split
  · exact acts_ignore
  cases message with
  | statement request => exact acts_receiveStatement rests
  | request request => exact acts_receiveRequest rests
  | resync => exact acts_receiveResync
  | invalid id => exact (Act.answerNow (.inl ⟨rfl, justified_failed _ _ _ _⟩)).acts

end Page

/-! ## Other tabs -/

lemma acts_onInbox {answer : RoutedResponse ν} :
    Acts (.received answer, worker) (.empty, onInbox engine answer worker) := by
  unfold onInbox
  split
  · have hresponse : Moves (.received answer, worker)
        (.received answer, response engine answer.response worker) :=
      moves_response (.inr ⟨answer.epoch, rfl⟩)
    exact hresponse.acts.trans Act.ignore.acts
  · exact acts_ignore

lemma acts_onOwnerInbox {sizes : Sizes} {message : RoutedRequest} (rests : worker.Rests) :
    Acts (.arrived message, worker) (.empty, onOwnerInbox numbers engine sizes message worker) := by
  unfold onOwnerInbox
  split
  · exact acts_resume (moves_ownerReceive rests).acts
  · exact acts_ignore

lemma acts_clientGone (client : String) (rests : worker.Rests) :
    Acts (.empty, worker) (.empty, clientGone numbers engine client worker) := by
  have hgone : Acts (.empty, worker) (.empty, worker.modifyOwner (Broker.gone client)) :=
    (moves_modifyOwner (Broker.work_gone client)).acts
  exact acts_resume (hgone.trans (moves_startPump (hgone.rests rests)).acts)

lemma acts_onEvent (epoch : String) (event : Changes.WorkerEvent ν) :
    Acts (hand, worker) (hand, worker.onEvent epoch event) := by
  unfold onEvent
  split
  · exact acts_refl _
  split
  · exact (Act.move .aside).acts.trans (Act.event event).acts
  · exact acts_refl _

lemma acts_onGroup (message : GroupMessage ν) : Acts (hand, worker) (hand, worker.onGroup message) := by
  cases message with
  | discover =>
    unfold onGroup
    dsimp only
    split
    · exact (Act.move .aside).acts
    · exact acts_refl _
  | leader announcement => exact (Act.move .aside).acts
  | event epoch event => exact acts_onEvent epoch event
  | failed epoch error => exact (moves_onFailed epoch error).acts

lemma acts_onTimer : Acts (.empty, worker) (.empty, onTimer numbers engine worker) := by
  unfold onTimer
  split
  · exact acts_refl _
  next broker howner =>
  have htimer (changes : Changes.Host ν) : Acts (.empty, worker)
      (.empty, { worker with owner := some { broker with host := { broker.host with changes } } }) := by
    refine (moves_tend ?_).acts
    rw [work, howner]
    rfl
  dsimp only
  split
  · exact (htimer _).trans ((Act.move .aside).acts.trans (acts_onEvent broker.epoch _))
  · exact htimer _

/-! ## The locks -/

lemma acts_clientLockGranted (idle : worker.election = .idle) (vacant : worker.owner = none)
    (rests : worker.Rests) :
    Acts (.empty, worker) (.empty, clientLockGranted numbers engine worker) := by
  unfold clientLockGranted
  split
  · exact acts_refl _
  have hgrant : Act (.empty, worker) (.empty, { worker with releaseClient := true }) := .move .aside
  have hdispatch := @acts_dispatchAll E ν numbers engine { worker with releaseClient := true } rests
  have hvacant := @dispatchAll_vacant E ν numbers engine { worker with releaseClient := true } vacant
  dsimp only
  generalize dispatchAll numbers engine { worker with releaseClient := true } = dispatched at *
  have hdiscover : Act (.empty, dispatched) (.empty, dispatched.postGroup .discover) := .move .aside
  refine (hgrant.acts.trans hdispatch.1).trans (hdiscover.acts.trans (Act.await ?_).acts)
  exact hvacant.2.trans idle

lemma acts_databaseLockGranted (epoch : String) (waits : worker.election = .waiting) :
    Acts (.granted epoch, worker) (.empty, databaseLockGranted epoch worker) := by
  unfold databaseLockGranted
  split
  · exact (Act.decline epoch waits).acts
  · exact (Act.elect epoch waits).acts.trans (Act.move .aside).acts

lemma acts_elect {starting : Announcement} {held : Option String}
    (querying : worker.election = .querying starting.epoch) (rests : worker.Rests) :
    Acts (.empty, worker) (.empty, elect numbers engine starting.epoch held worker) := by
  unfold elect
  split
  · have hleave : Move (.empty, worker) (.empty, worker.leave) := .leave
    rw [leave, querying] at hleave
    exact Moves.acts (hleave.moves.trans (Move.aside.moves.trans (moves_failPending electionLost false)))
  · next ownerId =>
    have hopen := @Act.open E ν worker
      ⟨starting.epoch, worker.compatibility, false, worker.localRevision, ownerId⟩ querying
    exact hopen.acts.trans ((Act.move .aside).acts.trans (acts_announce _ rests))

lemma acts_queryAnswered (rests : worker.Rests) :
    Acts (.empty, worker) (.empty, queryAnswered numbers engine worker) := by
  unfold queryAnswered
  split
  · next purpose held queries hqueries =>
    have hdismiss : Acts (.empty, worker) (.empty, { worker with queries }) := (Act.move .aside).acts
    refine hdismiss.trans ?_
    dsimp only
    split
    · split
      · exact (Act.move .aside).acts.trans (acts_announce _ rests)
      · exact acts_refl _
    · split
      · next epoch hquerying =>
        split
        · exact Move.leave.moves.acts
        · exact @acts_elect E ν numbers engine { worker with queries } ⟨epoch, "", false, 0, ""⟩ held
            hquerying rests
      · exact acts_refl _
  · exact acts_refl _

lemma acts_openFailed (thrown : Thrown) :
    Acts (.empty, worker) (.empty, openFailed numbers engine thrown worker) := by
  unfold openFailed
  split
  · next starting hopening =>
    split
    · next message hfinishing =>
      obtain ⟨last, heq, hlast⟩ := @finish_eq E ν worker message (.error thrown)
      rw [heq]
      exact (Act.finish hopening hfinishing hlast).acts.trans (Act.move .aside).acts
    · generalize serializeError (rejection thrown) = error
      have hpost : Move (.empty, worker) (.empty, worker.postGroup (.failed starting.epoch error)) :=
        .aside
      have hfail : Moves (.empty, worker.postGroup (.failed starting.epoch error)) (.empty, _) :=
        moves_onFailed starting.epoch error
      exact Moves.acts (hpost.moves.trans (hfail.trans Move.leave.moves))
  · exact acts_refl _

lemma acts_opened (state : E) (rests : worker.Rests) :
    Acts (.empty, worker) (.empty, opened numbers engine state worker) := by
  unfold opened
  split
  · next starting hopening =>
    split
    · next revision host hinit =>
      have hown : Acts (.empty, worker) (.empty, { worker with
          localRevision := revision
          engineOpen := true
          owner := some (Broker.start host starting.epoch worker.compatibility) }) :=
        (Act.own host hopening).acts.trans (Act.move .aside).acts
      refine hown.trans ?_
      dsimp only
      generalize hready : { worker with
        localRevision := revision
        engineOpen := true
        owner := some (Broker.start host starting.epoch worker.compatibility) } = ready at hown
      have hstill : ready.election = .opening starting := by rw [← hready]; exact hopening
      split
      · next message hfinishing =>
        obtain ⟨owner, engineOpen, hclose, hwork⟩ := @closeEngine_eq E ν engine
          (ready.modifyOwner Broker.close)
        obtain ⟨last, heq, hlast⟩ := @finish_eq E ν _ message _
        have htend : Move (.empty, ready) (.empty, { ready with owner }) :=
          .tend (hwork ▸ shrinks_close ready.owner)
        have haside : Move (.empty, { ready with owner }) (.empty, { ready with owner, engineOpen }) :=
          .aside
        have hfinish := @Act.finish E ν { ready with owner, engineOpen } starting message last hstill
          (by rw [← hready]; exact hfinishing) hlast
        rw [heq, hclose]
        exact (Moves.acts (htend.moves.trans haside.moves)).trans (hfinish.acts.trans (Act.move .aside).acts)
      · subst hready
        refine (Act.lead hstill).acts.trans ((Act.move .aside).acts.trans (acts_announce _ ?_))
        exact hown.rests rests
    · exact acts_refl _
    · exact acts_openFailed _
  · exact acts_refl _

end Coordinator
end Coordination
end TinyJoin
